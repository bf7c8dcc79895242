import EnresLogger.Lib.Bytes
import EnresLogger.Meter

/-!
# Records

A `Record` is what one 64-byte record of the ring says, and `Record.bytes` how
it lies in the flash: little-endian words, then zeros.

`fillMeters`, `fillSensor` and `fillFlow` are the parts of `meterToFlash`,
`SensorToFlash` and `flowToFlash` that write `wBuff`.  Each leaves it beginning
with the bytes of its records (`fillMeters_holds` and so on).  `wBuff` has room
for 21 records, and `fillMeters` leaves it with one more: `fillMeters_none`.

The cursor of the source is a `uint16_t`; a position it could wrap at lies
outside `wBuff`.
-/

namespace EnresLogger

open Lib

def RECSIZE : Nat := 64
def RECSIZESENSOR : Nat := 64

/-- `wBuff` and `rBuff`, `RECSIZE*MAXMETER` bytes. -/
abbrev RecordBuff := Buf 1344

/-- One group of a sensor record. -/
structure SensorGroup where
  used : UInt8
  xid : UInt32
  time : UInt32
  values : Vector UInt32 4

inductive Record
  | meter (xid : UInt32) (d : MeterData)
  | sensor (g₀ g₁ : SensorGroup)
  | flow (xid : UInt32) (d : FlowData)

/-- The words of a meter record. -/
def meterWords (xid : UInt32) (d : MeterData) : List UInt32 :=
  [xid, d.mdt, d.watt, d.wattHour, d.pf, d.varh, d.i0, d.i1, d.i2, d.v0, d.v1, d.v2]

/-- The words of a flow record. -/
def flowWords (xid : UInt32) (d : FlowData) : List UInt32 :=
  [xid, d.mdt, d.inst_flux, d.ins_heat_flow, d.tm1, d.tm2, d.signal_ratio, d.reynolds, d.q_str,
    d.up_str, d.down_str]

def SensorGroup.bytes (g : SensorGroup) : List UInt8 :=
  g.used :: wordsBytes (g.xid :: g.time :: g.values.toList)

def Record.bytes : Record → List UInt8
  | .meter xid d => wordsBytes (meterWords xid d) ++ List.replicate 16 0
  | .sensor g₀ g₁ => g₀.bytes ++ g₁.bytes ++ List.replicate 14 0
  | .flow xid d => wordsBytes (flowWords xid d) ++ List.replicate 20 0

@[simp] theorem SensorGroup.bytes_length (g : SensorGroup) : g.bytes.length = 25 := by
  simp [bytes]

@[simp] theorem Record.bytes_length (r : Record) : r.bytes.length = 64 := by
  cases r <;> simp [bytes, meterWords, flowWords]

/-- Records one after the other. -/
def recordBytes (rs : List Record) : List UInt8 := rs.flatMap Record.bytes

@[simp] theorem recordBytes_length (rs : List Record) :
    (recordBytes rs).length = 64 * rs.length := by
  induction rs with
  | nil => rfl
  | cons r rs ih =>
    rw [recordBytes, List.flatMap_cons, List.length_append, ← recordBytes, ih,
      Record.bytes_length, List.length_cons]
    omega

theorem recordBytes_append (rs rs' : List Record) :
    recordBytes (rs ++ rs') = recordBytes rs ++ recordBytes rs' := List.flatMap_append

theorem recordBytes_drop_take {rs : List Record} {k : Nat} (h : k < rs.length) :
    ((recordBytes rs).drop (64 * k)).take 64 = rs[k].bytes := by
  have hsplit : recordBytes rs =
      recordBytes (rs.take k) ++ (rs[k].bytes ++ recordBytes (rs.drop (k + 1))) := by
    conv_lhs => rw [← List.take_append_drop k rs, List.drop_eq_getElem_cons h]
    rw [recordBytes_append]
    rfl
  have hk : (recordBytes (rs.take k)).length = 64 * k := by
    rw [recordBytes_length, List.length_take, Nat.min_eq_left (by omega)]
  rw [hsplit, ← hk, List.drop_left, ← Record.bytes_length rs[k], List.take_left]

/-! ### Filling `wBuff` -/

/-- `for(int i = index; (i%RECSIZE)>0; i++) { wBuff[index] = 0; index++; }` -/
def padding (index : Nat) : Nat := (RECSIZE - index % RECSIZE) % RECSIZE

def pad (c : Cursor 1344) : Option (Cursor 1344) := c.put (List.replicate (padding c.index) 0)

def fillMeters (numMeter : Nat) (cfgM : Vector ConfigMeter MAXMETER) (md : Meters)
    (wBuff : RecordBuff) : Option (Cursor 1344) :=
  forLoop numMeter (fun i c => do
    let m ← cfgM[i]?
    let d ← md[i]?
    let c ← c.putWords (meterWords m.xid d)
    pad c) ⟨wBuff, 0⟩

/-- The four values of group `i`. -/
def fillValues (fpu : Fpu) (cfgS : ConfigSensor) (i : Nat) (c : Cursor 1344) :
    Option (Cursor 1344) :=
  forLoop 4 (fun j c => do
    let adjust ← cfgS.adjust[4 * i + j]?
    c.putWords [fpu.sensor (4 * i + j) adjust[0] adjust[1]]) c

/-- Group `i`.  `now` is `mktime(&timeinfo)`. -/
def fillGroup (fpu : Fpu) (cfgS : ConfigSensor) (now : UInt32) (i : Nat) (c : Cursor 1344) :
    Option (Cursor 1344) := do
  let used ← cfgS.used[i]?
  let c ← c.put [used]
  let xid ← cfgS.xid[i]?
  let c ← c.putWords [xid, now]
  fillValues fpu cfgS i c

def fillSensor (fpu : Fpu) (cfgS : ConfigSensor) (now : UInt32) (wBuff : RecordBuff) :
    Option (Cursor 1344) := do
  let c ← forLoop 2 (fillGroup fpu cfgS now) ⟨wBuff, 0⟩
  pad c

def fillFlow (cfgF : ConfigFlow) (fd : FlowData) (wBuff : RecordBuff) :
    Option (Cursor 1344) := do
  let c ← (⟨wBuff, 0⟩ : Cursor 1344).putWords (flowWords cfgF.xid fd)
  pad c

/-! ### What is filled in -/

/-- The records of a logging pass over the meters. -/
def meterRecords (numMeter : Nat) (cfgM : Vector ConfigMeter MAXMETER) (md : Meters) :
    List Record :=
  ((cfgM.toList.zip md.toList).take numMeter).map fun p => .meter p.1.xid p.2

def sensorGroup (fpu : Fpu) (cfgS : ConfigSensor) (now : UInt32) (i : Fin 2) : SensorGroup where
  used := cfgS.used[i]
  xid := cfgS.xid[i]
  time := now
  values := .ofFn fun j =>
    fpu.sensor (4 * i + j) cfgS.adjust[4 * i.val + j.val][0] cfgS.adjust[4 * i.val + j.val][1]

def sensorRecord (fpu : Fpu) (cfgS : ConfigSensor) (now : UInt32) : Record :=
  .sensor (sensorGroup fpu cfgS now 0) (sensorGroup fpu cfgS now 1)

theorem meterRecords_length {n : Nat} (h : n ≤ MAXMETER) (cfgM : Vector ConfigMeter MAXMETER)
    (md : Meters) : (meterRecords n cfgM md).length = n := by
  simp [meterRecords, h]

theorem meterRecords_succ {n : Nat} (h : n < MAXMETER) (cfgM : Vector ConfigMeter MAXMETER)
    (md : Meters) :
    meterRecords (n + 1) cfgM md = meterRecords n cfgM md ++ [.meter cfgM[n].xid md[n]] := by
  have hlen : n < (cfgM.toList.zip md.toList).length := by simpa using h
  rw [meterRecords, List.take_succ_eq_append_getElem hlen, List.map_append, ← meterRecords]
  simp

theorem pad_holds {c : Cursor 1344} {bs : List UInt8} {n : Nat} (h : c.Holds bs)
    (hlow : 64 * n < bs.length) (hhigh : bs.length ≤ 64 * n + 64) (hroom : 64 * n + 64 ≤ 1344) :
    ∃ c', pad c = some c' ∧
      c'.Holds (bs ++ List.replicate (64 * n + 64 - bs.length) 0) := by
  have hpad : padding c.index = 64 * n + 64 - bs.length := by
    rw [padding, RECSIZE, h.index]
    omega
  rw [pad, hpad]
  exact h.put _ (by rw [List.length_replicate]; omega)

/-- **The meters' records are in `wBuff`.** -/
theorem fillMeters_holds {n : Nat} (hn : n ≤ MAXMETER) (cfgM : Vector ConfigMeter MAXMETER)
    (md : Meters) (wBuff : RecordBuff) :
    ∃ c, fillMeters n cfgM md wBuff = some c ∧
      c.Holds (recordBytes (meterRecords n cfgM md)) := by
  refine forLoop_spec (fun i (c : Cursor 1344) => c.Holds (recordBytes (meterRecords i cfgM md)))
    (Cursor.holds_start wBuff) (fun i c hi hc => ?_)
  have hi' : i < MAXMETER := Nat.lt_of_lt_of_le hi hn
  have hmax : MAXMETER = 21 := rfl
  have hlen : (recordBytes (meterRecords i cfgM md)).length = 64 * i := by
    rw [recordBytes_length, meterRecords_length (Nat.le_of_lt hi')]
  obtain ⟨c1, h1, hold1⟩ := hc.putWords (meterWords cfgM[i].xid md[i])
    (by rw [hlen, meterWords]; simp only [List.length_cons, List.length_nil]; omega)
  have hlen1 : (recordBytes (meterRecords i cfgM md) ++
      wordsBytes (meterWords cfgM[i].xid md[i])).length = 64 * i + 48 := by
    rw [List.length_append, hlen, wordsBytes_length]
    rfl
  obtain ⟨c2, h2, hold2⟩ := pad_holds (n := i) hold1 (by omega) (by omega) (by omega)
  refine ⟨c2, ?_, ?_⟩
  · rw [Vector.getElem?_eq_getElem hi', Vector.getElem?_eq_getElem hi', Option.bind_eq_bind,
      Option.bind_some, Option.bind_eq_bind, Option.bind_some, h1]
    exact h2
  · rw [meterRecords_succ hi', recordBytes_append]
    rw [hlen1, show 64 * i + 64 - (64 * i + 48) = 16 by omega, List.append_assoc] at hold2
    rw [show recordBytes [.meter cfgM[i].xid md[i]] =
      wordsBytes (meterWords cfgM[i].xid md[i]) ++ List.replicate 16 0 from List.append_nil _]
    exact hold2

/-- One meter more than the tables have leads out of them. -/
theorem fillMeters_none {n : Nat} (hn : MAXMETER < n) (cfgM : Vector ConfigMeter MAXMETER)
    (md : Meters) (wBuff : RecordBuff) : fillMeters n cfgM md wBuff = none := by
  refine forLoop_none hn (fun c => ?_)
  rw [Vector.getElem?_eq_none (Nat.le_refl MAXMETER)]
  rfl

theorem fillFlow_holds (cfgF : ConfigFlow) (fd : FlowData) (wBuff : RecordBuff) :
    ∃ c, fillFlow cfgF fd wBuff = some c ∧ c.Holds (recordBytes [.flow cfgF.xid fd]) := by
  obtain ⟨c1, h1, hold1⟩ := (Cursor.holds_start wBuff).putWords (flowWords cfgF.xid fd)
    (by simp [flowWords])
  have hlen1 : ([] ++ wordsBytes (flowWords cfgF.xid fd)).length = 44 := by simp [flowWords]
  obtain ⟨c2, h2, hold2⟩ := pad_holds (n := 0) hold1 (by omega) (by omega) (by omega)
  refine ⟨c2, by rw [fillFlow, h1]; exact h2, ?_⟩
  rw [hlen1] at hold2
  rw [show recordBytes [.flow cfgF.xid fd] =
    [] ++ wordsBytes (flowWords cfgF.xid fd) ++ List.replicate 20 0 from List.append_nil _]
  exact hold2

theorem fillValues_holds {c : Cursor 1344} {bs : List UInt8} (h : c.Holds bs)
    (hroom : bs.length + 16 ≤ 1344) (fpu : Fpu) (cfgS : ConfigSensor) (now : UInt32) (i : Fin 2) :
    ∃ c', fillValues fpu cfgS i c = some c' ∧
      c'.Holds (bs ++ wordsBytes (sensorGroup fpu cfgS now i).values.toList) := by
  have hvalues : (sensorGroup fpu cfgS now i).values.toList.length = 4 := by simp
  have hloop : ∃ c', fillValues fpu cfgS i c = some c' ∧
      c'.Holds (bs ++ wordsBytes ((sensorGroup fpu cfgS now i).values.toList.take 4)) := by
    refine forLoop_spec (fun j (c : Cursor 1344) =>
      c.Holds (bs ++ wordsBytes ((sensorGroup fpu cfgS now i).values.toList.take j)))
      ?_ (fun j c hj hc => ?_)
    · rw [List.take_zero, wordsBytes, List.flatMap_nil, List.append_nil]
      exact h
    · have hidx : 4 * i.val + j < 8 := by omega
      obtain ⟨c1, h1, hold1⟩ := hc.putWords
        [fpu.sensor (4 * i + j) cfgS.adjust[4 * i.val + j][0] cfgS.adjust[4 * i.val + j][1]]
        (by
          rw [List.length_append, wordsBytes_length, List.length_take, hvalues]
          simp only [List.length_cons, List.length_nil]
          omega)
      refine ⟨c1, ?_, ?_⟩
      · rw [Vector.getElem?_eq_getElem hidx, Option.bind_eq_bind, Option.bind_some]
        exact h1
      · have hj' : j < (sensorGroup fpu cfgS now i).values.toList.length := by omega
        have hvalue : (sensorGroup fpu cfgS now i).values.toList[j] =
            fpu.sensor (4 * i + j) cfgS.adjust[4 * i.val + j][0]
              cfgS.adjust[4 * i.val + j][1] := by
          simp [sensorGroup]
        rw [List.take_succ_eq_append_getElem (by omega), hvalue, wordsBytes, List.flatMap_append,
          ← List.append_assoc]
        exact hold1
  rw [List.take_of_length_le (by omega)] at hloop
  exact hloop

theorem fillGroup_holds {c : Cursor 1344} {bs : List UInt8} (h : c.Holds bs)
    (hroom : bs.length + 25 ≤ 1344) (fpu : Fpu) (cfgS : ConfigSensor) (now : UInt32) (i : Fin 2) :
    ∃ c', fillGroup fpu cfgS now i c = some c' ∧
      c'.Holds (bs ++ (sensorGroup fpu cfgS now i).bytes) := by
  obtain ⟨c1, h1, hold1⟩ := h.put [cfgS.used[i]]
    (by simp only [List.length_cons, List.length_nil]; omega)
  obtain ⟨c2, h2, hold2⟩ := hold1.putWords [cfgS.xid[i], now]
    (by simp only [List.length_append, List.length_cons, List.length_nil]; omega)
  obtain ⟨c3, h3, hold3⟩ := fillValues_holds hold2
    (by simp only [List.length_append, wordsBytes_length, List.length_cons, List.length_nil]
        omega) fpu cfgS now i
  refine ⟨c3, ?_, ?_⟩
  · rw [fillGroup, Vector.getElem?_eq_getElem i.isLt, Option.bind_eq_bind, Option.bind_some,
      show c.put [cfgS.used[i.val]] = some c1 from h1, Option.bind_eq_bind, Option.bind_some,
      Vector.getElem?_eq_getElem i.isLt, Option.bind_eq_bind, Option.bind_some,
      show c1.putWords [cfgS.xid[i.val], now] = some c2 from h2]
    exact h3
  · have hbytes : bs ++ (sensorGroup fpu cfgS now i).bytes = bs ++ [cfgS.used[i]] ++
        wordsBytes [cfgS.xid[i], now] ++
          wordsBytes (sensorGroup fpu cfgS now i).values.toList := by
      simp [SensorGroup.bytes, sensorGroup, wordsBytes]
    rw [hbytes]
    exact hold3

/-- **The sensor record is in `wBuff`.** -/
theorem fillSensor_holds (fpu : Fpu) (cfgS : ConfigSensor) (now : UInt32) (wBuff : RecordBuff) :
    ∃ c, fillSensor fpu cfgS now wBuff = some c ∧
      c.Holds (recordBytes [sensorRecord fpu cfgS now]) := by
  obtain ⟨c1, h1, hold1⟩ := fillGroup_holds (Cursor.holds_start wBuff) (by simp) fpu cfgS now 0
  obtain ⟨c2, h2, hold2⟩ := fillGroup_holds hold1 (by simp) fpu cfgS now 1
  obtain ⟨c3, h3, hold3⟩ := pad_holds (n := 0) hold2 (by simp) (by simp) (by simp)
  have hbytes : recordBytes [sensorRecord fpu cfgS now] =
      [] ++ (sensorGroup fpu cfgS now 0).bytes ++ (sensorGroup fpu cfgS now 1).bytes ++
        List.replicate 14 0 := List.append_nil _
  have hlen : ([] ++ (sensorGroup fpu cfgS now 0).bytes ++
      (sensorGroup fpu cfgS now 1).bytes).length = 50 := by simp
  rw [hlen] at hold3
  refine ⟨c3, ?_, hbytes ▸ hold3⟩
  rw [fillSensor, forLoop_succ, forLoop_succ, forLoop_zero, Option.bind_some,
    show fillGroup fpu cfgS now 0 ⟨wBuff, 0⟩ = some c1 from h1, Option.bind_some,
    show fillGroup fpu cfgS now 1 c1 = some c2 from h2]
  exact h3

end EnresLogger
