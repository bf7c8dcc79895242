import EnresLogger.SDConfig

/-!
# Reading the meters

`readMeterData` and `readFlowData` are a sequence of Modbus transactions.  Each
one that succeeds fills the response buffer, and some fields are computed from
it; the first one that fails ends the call.  `transactions` lists them for each
meter type, `runTransactions` is the call.

Floats are the words that hold them.  What the processor computes with them is
an `Fpu`.
-/

namespace EnresLogger

open Lib

/-- The results of the float expressions, as words. -/
structure Fpu where
  /-- `a * b` -/
  mul : UInt32 → UInt32 → UInt32
  /-- `(n / d) * a`, in doubles -/
  scale : Nat → Nat → UInt32 → UInt32
  /-- `n * a` for an integer `n` -/
  mulInt : UInt64 → UInt32 → UInt32
  /-- the two corrections of a power factor beyond -1 and 1 -/
  foldPf : UInt32 → UInt32
  /-- `((n / 4095.) * 100.0) * a` -/
  percent : UInt16 → UInt32 → UInt32
  /-- `getSensor(k) * gain + offset` -/
  sensor : Nat → UInt32 → UInt32 → UInt32

/-- A processor that makes zero of everything. -/
def Fpu.null : Fpu where
  mul _ _ := 0
  scale _ _ _ := 0
  mulInt _ _ := 0
  foldPf _ := 0
  percent _ _ := 0
  sensor _ _ _ := 0

structure MeterData where
  mdt : UInt32 := 0
  watt : UInt32 := 0
  wattHour : UInt32 := 0
  pf : UInt32 := 0
  varh : UInt32 := 0
  i0 : UInt32 := 0
  i1 : UInt32 := 0
  i2 : UInt32 := 0
  v0 : UInt32 := 0
  v1 : UInt32 := 0
  v2 : UInt32 := 0
  deriving DecidableEq, Repr

structure FlowData where
  mdt : UInt32 := 0
  inst_flux : UInt32 := 0
  ins_heat_flow : UInt32 := 0
  tm1 : UInt32 := 0
  tm2 : UInt32 := 0
  signal_ratio : UInt32 := 0
  reynolds : UInt32 := 0
  q_str : UInt32 := 0
  up_str : UInt32 := 0
  down_str : UInt32 := 0
  deriving DecidableEq, Repr

/-- `_u16ResponseBuffer` -/
abbrev ResponseBuffer := Vector UInt16 128

def getResponseBuffer (buf : ResponseBuffer) (i : Nat) : UInt16 := buf[i]?.getD 0xFFFF

/-- The status and the response buffer that the `k`-th transaction of a call
ends with, given the slave, the start address, the quantity and the function. -/
abbrev Bus := Nat → UInt8 → UInt16 → UInt16 → UInt8 → UInt8 × ResponseBuffer

/-- A bus on which every slave answers every request with zeros. -/
def Bus.zeros : Bus := fun _ _ _ _ _ => (0, .replicate _ 0)

/-- A float lies in two registers, high word first. -/
def wordToFloat (h l : UInt16) : UInt32 := UInt32.ofNat (65536 * h.toNat + l.toNat)

/-- `u16Tou32` takes its words the other way round. -/
def u16Tou32 (h l : UInt16) : UInt32 := UInt32.ofNat (h.toNat + 65536 * l.toNat)

inductive MeterField
  | watt | wattHour | pf | varh | i0 | i1 | i2 | v0 | v1 | v2
  deriving DecidableEq, Repr

def MeterData.set (d : MeterData) (x : UInt32) : MeterField → MeterData
  | .watt => { d with watt := x }
  | .wattHour => { d with wattHour := x }
  | .pf => { d with pf := x }
  | .varh => { d with varh := x }
  | .i0 => { d with i0 := x }
  | .i1 => { d with i1 := x }
  | .i2 => { d with i2 := x }
  | .v0 => { d with v0 := x }
  | .v1 => { d with v1 := x }
  | .v2 => { d with v2 := x }

/-- A right-hand side of an assignment. -/
abbrev Value := Fpu → ResponseBuffer → Vector UInt32 10 → UInt32

/-- `wordToFloat(getResponseBuffer(k), getResponseBuffer(k+1))*adj[a]` -/
def floatAt (k : Nat) (a : Fin 10) : Value := fun fpu buf adj =>
  fpu.mul (wordToFloat (getResponseBuffer buf k) (getResponseBuffer buf (k + 1))) adj[a]

/-- `(getResponseBuffer(0)/d)*adj[a]` -/
def scaled (d : Nat) (a : Fin 10) : Value := fun fpu buf adj =>
  fpu.scale (getResponseBuffer buf 0).toNat d adj[a]

/-- `(u16Tou32(getResponseBuffer(0), getResponseBuffer(1))/100.00)*adj[a]` -/
def scaled32 (a : Fin 10) : Value := fun fpu buf adj =>
  fpu.scale (u16Tou32 (getResponseBuffer buf 0) (getResponseBuffer buf 1)).toNat 100 adj[a]

/-- Four registers as one integer. -/
def int64At (a : Fin 10) : Value := fun fpu buf adj =>
  fpu.mulInt (UInt64.ofNat (281474976710656 * (getResponseBuffer buf 0).toNat +
    4294967296 * (getResponseBuffer buf 1).toNat + 65536 * (getResponseBuffer buf 2).toNat +
    (getResponseBuffer buf 3).toNat)) adj[a]

def foldedPf : Value := fun fpu buf adj => fpu.foldPf (floatAt 0 2 fpu buf adj)

def zero : Value := fun _ _ _ => 0

structure Transaction where
  startAddress : UInt16
  readQty : UInt16
  fnRead : UInt8
  assign : List (MeterField × Value)

def ku8MBReadHoldingRegisters : UInt8 := 0x03

/-- The transactions of `readMeterData` for a meter type. -/
def transactions (slaveIndex mType : UInt8) (mt : Vector UInt16 11) : List Transaction :=
  let fn : UInt8 := mt[10].toUInt8
  let at2000 : Nat → UInt16 := fun a => UInt16.ofNat (a + 2000 * slaveIndex.toNat)
  match mType with
  | 0x01 => -- dts353
    [⟨0x000e, 6, 0x03, [(.v0, floatAt 0 7), (.v1, floatAt 2 8), (.v2, floatAt 4 9)]⟩,
      ⟨0x0016, 8, 0x03,
        [(.i0, floatAt 0 4), (.i1, floatAt 2 5), (.i2, floatAt 4 6), (.watt, floatAt 6 0)]⟩,
      ⟨0x0034, 2, 0x03, [(.pf, floatAt 0 2)]⟩,
      ⟨0x0100, 2, 0x03, [(.wattHour, floatAt 0 1)]⟩,
      ⟨0x0118, 2, 0x03, [(.varh, floatAt 0 3)]⟩]
  | 0x02 => -- eastron
    [⟨at2000 0x0000, 12, 0x04,
        [(.v0, floatAt 0 7), (.v1, floatAt 2 8), (.v2, floatAt 4 9), (.i0, floatAt 6 4),
          (.i1, floatAt 8 5), (.i2, floatAt 10 6)]⟩,
      ⟨at2000 0x0034, 2, 0x04, [(.watt, floatAt 0 0)]⟩,
      ⟨at2000 0x003E, 2, 0x04, [(.pf, floatAt 0 2)]⟩,
      ⟨at2000 0x0156, 4, 0x04, [(.wattHour, floatAt 0 1), (.varh, floatAt 2 3)]⟩]
  | 0x03 => -- iem3255
    [⟨2999, 6, 0x03, [(.i0, floatAt 0 4), (.i1, floatAt 2 5), (.i2, floatAt 4 6)]⟩,
      ⟨3027, 6, 0x03, [(.v0, floatAt 0 7), (.v1, floatAt 2 8), (.v2, floatAt 4 9)]⟩,
      ⟨3059, 2, 0x03, [(.watt, floatAt 0 0)]⟩,
      ⟨3083, 2, 0x03, [(.pf, foldedPf)]⟩,
      ⟨3203, 4, 0x03, [(.wattHour, int64At 1)]⟩,
      ⟨3219, 4, 0x03, [(.varh, int64At 3)]⟩]
  | 0x04 => -- heyuan3
    [⟨mt[0], 1, fn, [(.watt, scaled 100 0)]⟩, ⟨mt[1], 2, fn, [(.wattHour, scaled32 1)]⟩,
      ⟨mt[2], 1, fn, [(.pf, scaled 1000 2)]⟩, ⟨mt[3], 2, fn, [(.varh, scaled32 3)]⟩,
      ⟨mt[4], 1, fn, [(.i0, scaled 10000 4)]⟩, ⟨mt[5], 1, fn, [(.i1, scaled 10000 5)]⟩,
      ⟨mt[6], 1, fn, [(.i2, scaled 10000 6)]⟩, ⟨mt[7], 1, fn, [(.v0, scaled 100 7)]⟩,
      ⟨mt[8], 1, fn, [(.v1, scaled 100 8)]⟩, ⟨mt[9], 1, fn, [(.v2, scaled 100 9)]⟩]
  | 0x05 => -- heyuan1
    [⟨mt[0], 1, fn, [(.watt, scaled 100 0)]⟩, ⟨mt[1], 2, fn, [(.wattHour, scaled32 1)]⟩,
      ⟨mt[2], 1, fn, [(.pf, scaled 1000 2)]⟩, ⟨mt[3], 2, fn, [(.varh, scaled32 3)]⟩,
      ⟨mt[4], 1, fn, [(.i0, scaled 10000 4), (.i1, zero), (.i2, zero)]⟩,
      ⟨mt[7], 1, fn, [(.v0, scaled 100 7), (.v1, zero), (.v2, zero)]⟩]
  | 0x09 => -- generic3
    [⟨mt[0], 2, fn, [(.watt, floatAt 0 0)]⟩, ⟨mt[1], 2, fn, [(.wattHour, floatAt 0 1)]⟩,
      ⟨mt[2], 2, fn, [(.pf, floatAt 0 2)]⟩, ⟨mt[3], 2, fn, [(.varh, floatAt 0 3)]⟩,
      ⟨mt[4], 2, fn, [(.i0, floatAt 0 4)]⟩, ⟨mt[5], 2, fn, [(.i1, floatAt 0 5)]⟩,
      ⟨mt[6], 2, fn, [(.i2, floatAt 0 6)]⟩, ⟨mt[7], 2, fn, [(.v0, floatAt 0 7)]⟩,
      ⟨mt[8], 2, fn, [(.v1, floatAt 0 8)]⟩, ⟨mt[9], 2, fn, [(.v2, floatAt 0 9)]⟩]
  | 0x0a => -- generic1
    [⟨mt[0], 2, fn, [(.watt, floatAt 0 0)]⟩, ⟨mt[1], 2, fn, [(.wattHour, floatAt 0 1)]⟩,
      ⟨mt[2], 2, fn, [(.pf, floatAt 0 2)]⟩, ⟨mt[3], 2, fn, [(.varh, floatAt 0 3)]⟩,
      ⟨mt[4], 2, fn, [(.i0, floatAt 0 4), (.i1, zero), (.i2, zero)]⟩,
      ⟨mt[7], 2, fn, [(.v0, floatAt 0 7), (.v1, zero), (.v2, zero)]⟩]
  | _ => []

/-- The meter table. -/
abbrev Meters := Vector MeterData MAXMETER

/-- The transactions from the `k`-th one on; then `md[index].mdt = mdt`. -/
def runTransactions (fpu : Fpu) (bus : Bus) (index slave : UInt8) (mdt : UInt32)
    (adj : Vector UInt32 10) : Nat → List Transaction → Meters → Option (UInt8 × Meters)
  | _, [], md => do
      let d ← md[index.toNat]?
      let md ← putAt md index.toNat { d with mdt }
      return (0, md)
  | k, t :: ts, md =>
      let r := bus k slave t.startAddress t.readQty t.fnRead
      if r.1 ≠ 0 then some (r.1, md)
      else do
        let d ← md[index.toNat]?
        let md ← putAt md index.toNat
          (t.assign.foldl (fun d a => d.set (a.2 fpu r.2 adj) a.1) d)
        runTransactions fpu bus index slave mdt adj (k + 1) ts md

/-- `readMeterData`; `none` when it leaves `md`.  A type the switch does not
know reports success and does nothing. -/
def readMeterData (fpu : Fpu) (bus : Bus) (md : Meters) (index slave slaveIndex mType : UInt8)
    (mdt : UInt32) (adj : Vector UInt32 10) (mt : Vector UInt16 11) :
    Option (UInt8 × Meters) :=
  match transactions slaveIndex mType mt with
  | [] => some (0, md)
  | t :: ts => runTransactions fpu bus index slave mdt adj 0 (t :: ts) md

/-- `readFlowData` -/
def readFlowData (fpu : Fpu) (bus : Bus) (fd : FlowData) (slave : UInt8) (mdt : UInt32)
    (adj : Vector UInt32 9) : UInt8 × FlowData :=
  let float := fun (buf : ResponseBuffer) (k : Nat) (a : Fin 9) =>
    fpu.mul (wordToFloat (getResponseBuffer buf k) (getResponseBuffer buf (k + 1))) adj[a]
  let r := bus 0 slave 1 4 ku8MBReadHoldingRegisters
  if r.1 ≠ 0 then (r.1, fd) else
  let fd := { fd with inst_flux := float r.2 0 0, ins_heat_flow := float r.2 2 1 }
  let r := bus 1 slave 33 4 ku8MBReadHoldingRegisters
  if r.1 ≠ 0 then (r.1, fd) else
  let fd := { fd with tm1 := float r.2 0 2, tm2 := float r.2 2 3 }
  let r := bus 2 slave 91 3 ku8MBReadHoldingRegisters
  if r.1 ≠ 0 then (r.1, fd) else
  let fd := { fd with
    q_str := fpu.mulInt (UInt64.ofNat ((getResponseBuffer r.2 0).toNat % 256)) adj[6]
    up_str := fpu.percent (getResponseBuffer r.2 1) adj[7]
    down_str := fpu.percent (getResponseBuffer r.2 2) adj[8] }
  let r := bus 3 slave 97 4 ku8MBReadHoldingRegisters
  if r.1 ≠ 0 then (r.1, fd) else
  let fd := { fd with signal_ratio := float r.2 0 4, reynolds := float r.2 2 5 }
  (0, { fd with mdt })

/-! ### Bounds -/

theorem runTransactions_isSome {fpu : Fpu} {bus : Bus} {index slave : UInt8} {mdt : UInt32}
    {adj : Vector UInt32 10} (h : index.toNat < MAXMETER) (k : Nat) (ts : List Transaction)
    (md : Meters) : (runTransactions fpu bus index slave mdt adj k ts md).isSome = true := by
  induction ts generalizing k md with
  | nil =>
    rw [runTransactions, Vector.getElem?_eq_getElem h, Option.bind_eq_bind, Option.bind_some,
      putAt_some _ h]
    rfl
  | cons t ts ih =>
    rw [runTransactions]
    by_cases hr : (bus k slave t.startAddress t.readQty t.fnRead).1 ≠ 0
    · rw [if_pos hr]
      rfl
    · rw [if_neg hr, Vector.getElem?_eq_getElem h, Option.bind_eq_bind, Option.bind_some,
        putAt_some _ h, Option.bind_eq_bind, Option.bind_some]
      exact ih _ _

/-- A bus that answers every transaction. -/
def Bus.Answers (bus : Bus) : Prop :=
  ∀ k slave startAddress readQty fnRead, (bus k slave startAddress readQty fnRead).1 = 0

theorem runTransactions_answered {fpu : Fpu} {bus : Bus} (hbus : bus.Answers)
    {index slave : UInt8} {mdt : UInt32} {adj : Vector UInt32 10} (h : index.toNat < MAXMETER)
    (k : Nat) (ts : List Transaction) (md : Meters) :
    ∃ md', runTransactions fpu bus index slave mdt adj k ts md = some (0, md') := by
  induction ts generalizing k md with
  | nil =>
    rw [runTransactions, Vector.getElem?_eq_getElem h, Option.bind_eq_bind, Option.bind_some,
      putAt_some _ h]
    exact ⟨_, rfl⟩
  | cons t ts ih =>
    rw [runTransactions]
    simp only [hbus k slave t.startAddress t.readQty t.fnRead, ne_eq, not_true_eq_false, if_false,
      Vector.getElem?_eq_getElem h, putAt_some _ h, Option.bind_eq_bind, Option.bind_some]
    exact ih _ _

theorem readMeterData_answered {fpu : Fpu} {bus : Bus} (hbus : bus.Answers) {md : Meters}
    {index slave slaveIndex mType : UInt8} {mdt : UInt32} {adj : Vector UInt32 10}
    {mt : Vector UInt16 11} (h : index.toNat < MAXMETER) :
    ∃ md', readMeterData fpu bus md index slave slaveIndex mType mdt adj mt = some (0, md') := by
  rw [readMeterData]
  split
  · exact ⟨md, rfl⟩
  · exact runTransactions_answered hbus h _ _ _

theorem readMeterData_isSome {fpu : Fpu} {bus : Bus} {md : Meters}
    {index slave slaveIndex mType : UInt8} {mdt : UInt32} {adj : Vector UInt32 10}
    {mt : Vector UInt16 11} (h : index.toNat < MAXMETER) :
    (readMeterData fpu bus md index slave slaveIndex mType mdt adj mt).isSome = true := by
  rw [readMeterData]
  split
  · rfl
  · exact runTransactions_isSome h _ _ _

end EnresLogger
