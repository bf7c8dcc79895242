import EnresLogger.Station
import EnresLogger.Reading

/-!
# Reading the meters on the UART

`Meter.lean` has a `Bus` where `readMeterData` and `readFlowData` call
`masterTransaction`.  Here they call it: the receive queue and the response buffer go
from one transaction to the next, from one meter to the next, and from one pass to the
next.

`logTask_uart` says that nothing is lost by the `Bus`.  On a line with slaves a pass is
the pass of the other model, with the bus on which each transaction is the reading it
is for, and it leaves the queue empty for the next one.  What makes this true of the
response buffer, which is never cleared, is that no type looks at a word it has not
just read: `transactions_within`.  `logTask_registers` puts it together for the meters: a
pass goes through if and only if every slave answers every transaction, and then each
field is computed from registers that its slave had when it was asked.
-/

namespace EnresLogger

open Lib

/-! ### The functions -/

def Transaction.request (t : Transaction) (slave : UInt8) : Request :=
  ⟨slave, t.startAddress, t.readQty, t.fnRead⟩

namespace Master

/-- The transactions from the `k`-th one on, each with its exchange. -/
def runTransactions (fpu : Fpu) (x : Nat → Request → Exchange) (index slave : UInt8) (mdt : UInt32)
    (adj : Vector UInt32 10) :
    Nat → List Transaction → Meters → Master → Option ((UInt8 × Meters) × Master)
  | _, [], md, m => do
      let d ← md[index.toNat]?
      let md ← putAt md index.toNat { d with mdt }
      return ((0, md), m)
  | k, t :: ts, md, m =>
      let r := masterTransaction (t.request slave) (x k (t.request slave)) m
      if r.1 ≠ 0 then some ((r.1, md), r.2)
      else do
        let d ← md[index.toNat]?
        let md ← putAt md index.toNat
          (t.assign.foldl (fun d a => d.set (a.2 fpu r.2.buf adj) a.1) d)
        runTransactions fpu x index slave mdt adj (k + 1) ts md r.2

def readMeterData (fpu : Fpu) (x : Nat → Request → Exchange) (md : Meters)
    (index slave slaveIndex mType : UInt8) (mdt : UInt32) (adj : Vector UInt32 10)
    (mt : Vector UInt16 11) (m : Master) : Option ((UInt8 × Meters) × Master) :=
  match transactions slaveIndex mType mt with
  | [] => some ((0, md), m)
  | t :: ts => runTransactions fpu x index slave mdt adj 0 (t :: ts) md m

def readFlowData (fpu : Fpu) (x : Nat → Request → Exchange) (fd : FlowData) (slave : UInt8)
    (mdt : UInt32) (adj : Vector UInt32 9) (m : Master) : (UInt8 × FlowData) × Master :=
  let float := fun (buf : ResponseBuffer) (k a : Nat) =>
    fpu.mul (wordToFloat (getResponseBuffer buf k) (getResponseBuffer buf (k + 1))) adj[a]!
  let q : Request := ⟨slave, 1, 4, ku8MBReadHoldingRegisters⟩
  let r := masterTransaction q (x 0 q) m
  if r.1 ≠ 0 then ((r.1, fd), r.2) else
  let fd := { fd with inst_flux := float r.2.buf 0 0, ins_heat_flow := float r.2.buf 2 1 }
  let q : Request := ⟨slave, 33, 4, ku8MBReadHoldingRegisters⟩
  let r := masterTransaction q (x 1 q) r.2
  if r.1 ≠ 0 then ((r.1, fd), r.2) else
  let fd := { fd with tm1 := float r.2.buf 0 2, tm2 := float r.2.buf 2 3 }
  let q : Request := ⟨slave, 91, 3, ku8MBReadHoldingRegisters⟩
  let r := masterTransaction q (x 2 q) r.2
  if r.1 ≠ 0 then ((r.1, fd), r.2) else
  let fd := { fd with
    q_str := fpu.mulInt (UInt64.ofNat ((getResponseBuffer r.2.buf 0).toNat % 256)) adj[6]!
    up_str := fpu.percent (getResponseBuffer r.2.buf 1) adj[7]!
    down_str := fpu.percent (getResponseBuffer r.2.buf 2) adj[8]! }
  let q : Request := ⟨slave, 97, 4, ku8MBReadHoldingRegisters⟩
  let r := masterTransaction q (x 3 q) r.2
  if r.1 ≠ 0 then ((r.1, fd), r.2) else
  let fd := { fd with signal_ratio := float r.2.buf 0 4, reynolds := float r.2.buf 2 5 }
  ((0, { fd with mdt }), r.2)

end Master

/-- What a pass meets on the UART: for the `k`-th transaction of the `i`-th meter, the
slaves at that moment, what the stack holds, and how much of the reply arrives. -/
structure Traffic where
  line : Nat → Nat → Line
  stack : Nat → Nat → Nat → UInt8
  cut : Nat → Nat → Nat

namespace Traffic

def exchange (w : Traffic) (i k : Nat) (q : Request) : Exchange :=
  (w.line i k).exchange q (w.stack i k) (w.cut i k)

def call (w : Traffic) (i k : Nat) (q : Request) : Except UInt8 (List UInt16) :=
  (w.line i k).call q (w.cut i k)

/-- The bus on which each transaction is the reading it is for. -/
def bus (w : Traffic) (i : Nat) : Bus := fun k slave startAddress readQty fnRead =>
  finish (.replicate _ 0) (w.call i k ⟨slave, startAddress, readQty, fnRead⟩)

/-- The pass of the other model. -/
def pass (w : Traffic) (now : UInt32) (fpu : Fpu) (outcome : WriteOutcome) : Pass :=
  ⟨now, fpu, w.bus, outcome⟩

end Traffic

namespace Logger

/-- The loop over the meters. -/
def readMetersOn (now : UInt32) (fpu : Fpu) (x : Nat → Nat → Request → Exchange) (s : Logger)
    (m : Master) : Option ((Bool × Meters) × Master) :=
  forLoop s.sd.cfgG.numMeter.toNat (fun i st =>
    if st.1.1 then do
      let c ← s.sd.cfgM[i]?
      let r ← Master.readMeterData fpu (x i) st.1.2 (UInt8.ofNat i) c.id c.index c.type now c.adjust
        c.table st.2
      return ((r.1.1 == 0, r.1.2), r.2)
    else some st) ((true, s.md), m)

/-- `logTask` with the two objects. -/
def logTaskOn (now : UInt32) (fpu : Fpu) (outcome : WriteOutcome)
    (x : Nat → Nat → Request → Exchange) (s : Logger) (u : Uart) : Option (Logger × Uart) :=
  match s.sd.cfgG.type with
  | 1 => do
      let (r, m) ← s.readMetersOn now fpu x ⟨u.rx, u.meter⟩
      let s := { s with md := r.2 }
      let s ← if r.1 then s.meterToFlash outcome else some s
      return (s, u.put m .meter)
  | 2 => do
      let s ← s.SensorToFlash fpu now outcome
      return (s, u)
  | 3 => do
      let (r, m) := Master.readFlowData fpu (x 0) s.fd s.sd.cfgF.id now s.sd.cfgF.adjust
        ⟨u.rx, u.flow⟩
      let s := { s with fd := r.2 }
      let s ← if r.1 = 0 then s.flowToFlash outcome else some s
      return (s, u.put m .flow)
  | _ => some (s, u)

end Logger

/-! ### Words that have just been read -/

/-- The value looks at no word behind the first `n`. -/
def Value.Within (v : Value) (n : Nat) : Prop :=
  ∀ (fpu : Fpu) (buf buf' : ResponseBuffer) (adj : Vector UInt32 10),
    (∀ i < n, getResponseBuffer buf i = getResponseBuffer buf' i) → v fpu buf adj = v fpu buf' adj

section Within

variable {n k d : Nat} {a : Fin 10}

theorem floatAt_within (h : k + 1 < n) : Value.Within (floatAt k a) n := by
  intro fpu buf buf' adj hsame
  rw [floatAt, floatAt, hsame k (by omega), hsame (k + 1) h]

theorem foldedPf_within (h : 1 < n) : Value.Within foldedPf n := by
  intro fpu buf buf' adj hsame
  rw [foldedPf, foldedPf, floatAt_within (k := 0) h fpu buf buf' adj hsame]

theorem scaled_within (h : 0 < n) : Value.Within (scaled d a) n := by
  intro fpu buf buf' adj hsame
  rw [scaled, scaled, hsame 0 h]

theorem scaled32_within (h : 1 < n) : Value.Within (scaled32 a) n := by
  intro fpu buf buf' adj hsame
  rw [scaled32, scaled32, hsame 0 (by omega), hsame 1 h]

theorem int64At_within (h : 3 < n) : Value.Within (int64At a) n := by
  intro fpu buf buf' adj hsame
  rw [int64At, int64At, hsame 0 (by omega), hsame 1 (by omega), hsame 2 (by omega), hsame 3 h]

theorem zero_within : Value.Within zero n := fun _ _ _ _ _ => rfl

end Within

/-- What a call of the driver may ask for, so that it can go by the answer alone: it reads
registers, and no value looks behind them. -/
structure Transaction.Sound (t : Transaction) : Prop where
  reads : t.fnRead = 0x03 ∨ t.fnRead = 0x04
  within : ∀ a ∈ t.assign, Value.Within a.2 t.readQty.toNat

/-- **No type looks at a word it has not just read.** -/
theorem transactions_within (slaveIndex mType : UInt8) (mt : Vector UInt16 11) :
    ∀ t ∈ transactions slaveIndex mType mt, ∀ a ∈ t.assign, Value.Within a.2 t.readQty.toNat := by
  unfold transactions
  split <;> simp only [List.forall_mem_cons, List.not_mem_nil, false_implies, implies_true, and_true]
  all_goals and_intros
  all_goals first
    | exact floatAt_within (by decide)
    | exact foldedPf_within (by decide)
    | exact scaled_within (by decide)
    | exact scaled32_within (by decide)
    | exact int64At_within (by decide)
    | exact zero_within

/-- The transactions of a meter read registers: the function in the configuration is one
of the two, where the type uses it. -/
def ConfigMeter.Reads (c : ConfigMeter) : Prop :=
  ∀ t ∈ transactions c.index c.type c.table, t.fnRead = 0x03 ∨ t.fnRead = 0x04

/-- All of the configured meters do. -/
def SDConfig.Reads (sd : SDConfig) : Prop :=
  ∀ i (h : i < MAXMETER), i < sd.cfgG.numMeter.toNat → sd.cfgM[i].Reads

instance (c : ConfigMeter) : Decidable c.Reads := inferInstanceAs (Decidable (∀ t ∈ _, _))

instance (sd : SDConfig) : Decidable sd.Reads :=
  inferInstanceAs (Decidable (∀ i (h : i < MAXMETER), i < sd.cfgG.numMeter.toNat →
    sd.cfgM[i].Reads))

theorem ConfigMeter.Reads.sound {c : ConfigMeter} (h : c.Reads) :
    ∀ t ∈ transactions c.index c.type c.table, t.Sound := fun t ht =>
  ⟨h t ht, transactions_within c.index c.type c.table t ht⟩

/-! ### One reading -/

theorem Line.call_error {l : Line} {q : Request} {cut : Nat} {code : UInt8}
    (h : l.call q cut = .error code) : code ≠ 0 := by
  rw [Line.call] at h
  cases hs : l q.slave with
  | none =>
    rw [hs] at h
    cases h
    decide
  | some s =>
    rw [hs] at h
    have hanswers := s.answer_answers q
    dsimp only at h
    cases ha : s.answer q with
    | registers ws =>
      rw [ha] at h
      dsimp only at h
      split at h <;> cases h
      decide
    | exception c =>
      rw [ha] at h hanswers
      dsimp only at h
      split at h <;> cases h
      · exact hanswers
      · decide

theorem getResponseBuffer_load (buf : ResponseBuffer) {ws : List UInt16} {i : Nat}
    (hi : i < ws.length) (h128 : i < 128) : getResponseBuffer (buf.load ws) i = ws[i] := by
  rw [getResponseBuffer, Vector.getElem?_eq_getElem h128, ResponseBuffer.load, Vector.getElem_ofFn,
    List.getElem?_eq_getElem hi]
  rfl

/-- Behind a reading the words that were there before make no difference. -/
theorem load_same (buf buf' : ResponseBuffer) {ws : List UInt16} {i : Nat} (hi : i < ws.length) :
    getResponseBuffer (buf.load ws) i = getResponseBuffer (buf'.load ws) i := by
  by_cases h128 : i < 128
  · rw [getResponseBuffer_load buf hi h128, getResponseBuffer_load buf' hi h128]
  · rw [getResponseBuffer, getResponseBuffer, Vector.getElem?_eq_none (by omega),
      Vector.getElem?_eq_none (by omega)]

theorem assign_congr (value value' : Value → UInt32) {l : List (MeterField × Value)}
    (h : ∀ a ∈ l, value a.2 = value' a.2) (d : MeterData) :
    l.foldl (fun d a => d.set (value a.2) a.1) d = l.foldl (fun d a => d.set (value' a.2) a.1) d := by
  induction l generalizing d with
  | nil => rfl
  | cons a l ih =>
    rw [List.foldl_cons, List.foldl_cons, h a List.mem_cons_self]
    exact ih (fun a' ha' => h a' (List.mem_cons_of_mem a ha')) _

section Reading

variable {fpu : Fpu} {w : Traffic} {i : Nat} {index slave : UInt8} {mdt : UInt32}
  {adj : Vector UInt32 10}

/-- **A transaction is that of the bus**: the code is the same, and so is what can be looked
at behind it. -/
theorem masterTransaction_uart {q : Request} (hfn : q.fnRead = 0x03 ∨ q.fnRead = 0x04) (k : Nat)
    {m : Master} (hrx : m.rx = []) :
    ∃ code buf, masterTransaction q (w.exchange i k q) m = (code, ⟨[], buf⟩) ∧
      (w.bus i k q.slave q.startAddress q.readQty q.fnRead).1 = code ∧
      (code = 0 → ∀ j < q.readQty.toNat, getResponseBuffer buf j =
        getResponseBuffer (w.bus i k q.slave q.startAddress q.readQty q.fnRead).2 j) := by
  have hcall := masterTransaction_call hfn (w.line i k) (w.stack i k) (w.cut i k) hrx
  change masterTransaction q (w.exchange i k q) m = _ at hcall
  refine ⟨_, _, hcall, ?_⟩
  show (finish _ ((w.line i k).call q (w.cut i k))).1 = _ ∧ (_ → ∀ j < _, _ =
    getResponseBuffer (finish _ ((w.line i k).call q (w.cut i k))).2 j)
  cases hread : (w.line i k).call q (w.cut i k) with
  | error code => exact ⟨rfl, fun hzero => absurd hzero (Line.call_error hread)⟩
  | ok ws => exact ⟨rfl, fun _ j hj => load_same _ _ (by rw [(Line.call_ok_iff.mp hread).1.length]; exact hj)⟩

/-- **The transactions of a reading**, by induction on them: each of them finds the queue
empty. -/
theorem runTransactions_uart {k : Nat} {ts : List Transaction} (hts : ∀ t ∈ ts, t.Sound)
    (md : Meters) {m : Master} (hrx : m.rx = []) :
    ∃ buf, Master.runTransactions fpu (w.exchange i) index slave mdt adj k ts md m =
      (runTransactions fpu (w.bus i) index slave mdt adj k ts md).map fun r => (r, ⟨[], buf⟩) := by
  induction ts generalizing k md m with
  | nil =>
    refine ⟨m.buf, ?_⟩
    rw [Master.runTransactions, runTransactions, ← hrx]
    by_cases hindex : index.toNat < MAXMETER
    · rw [Vector.getElem?_eq_getElem hindex]
      simp only [Option.bind_eq_bind, Option.bind_some, putAt_some _ hindex]
      rfl
    · rw [Vector.getElem?_eq_none (by omega)]
      rfl
  | cons t ts ih =>
    obtain ⟨hfn, hwithin⟩ := hts t List.mem_cons_self
    obtain ⟨code, buf, hcall, hbus, hsame⟩ :=
      masterTransaction_uart (w := w) (i := i) (q := t.request slave) hfn k hrx
    change (w.bus i k slave t.startAddress t.readQty t.fnRead).1 = code at hbus
    rw [Master.runTransactions, runTransactions, hcall, hbus]
    dsimp only
    by_cases hcode : code = 0
    · have hvalues := fun d => assign_congr (l := t.assign) (fun v => v fpu buf adj)
        (fun v => v fpu (w.bus i k slave t.startAddress t.readQty t.fnRead).2 adj)
        (fun a ha => hwithin a ha fpu _ _ adj (hsame hcode)) d
      rw [if_neg (not_not_intro hcode), if_neg (not_not_intro hcode)]
      by_cases hindex : index.toNat < MAXMETER
      · simp only [Vector.getElem?_eq_getElem hindex, putAt_some _ hindex, Option.bind_eq_bind,
          Option.bind_some, hvalues]
        exact ih (fun t' ht' => hts t' (List.mem_cons_of_mem t ht')) _ rfl
      · rw [Vector.getElem?_eq_none (by omega)]
        exact ⟨buf, rfl⟩
    · rw [if_pos hcode, if_pos hcode]
      exact ⟨buf, rfl⟩

theorem readMeterData_uart (fpu : Fpu) (w : Traffic) (i : Nat) (index : UInt8) (mdt : UInt32)
    {c : ConfigMeter} (hc : c.Reads) (md : Meters) {m : Master} (hrx : m.rx = []) :
    ∃ buf, Master.readMeterData fpu (w.exchange i) md index c.id c.index c.type mdt c.adjust c.table
        m = (readMeterData fpu (w.bus i) md index c.id c.index c.type mdt c.adjust c.table).map
          fun r => (r, ⟨[], buf⟩) := by
  have hsound := hc.sound
  rw [Master.readMeterData, readMeterData]
  generalize transactions c.index c.type c.table = ts at hsound ⊢
  cases ts with
  | nil =>
    refine ⟨m.buf, ?_⟩
    rw [← hrx]
    rfl
  | cons t ts => exact runTransactions_uart hsound md hrx

theorem word_pair {buf buf' : ResponseBuffer} {n : Nat}
    (h : ∀ j < n, getResponseBuffer buf j = getResponseBuffer buf' j) (k : Nat) (hk : k + 1 < n) :
    wordToFloat (getResponseBuffer buf k) (getResponseBuffer buf (k + 1)) =
      wordToFloat (getResponseBuffer buf' k) (getResponseBuffer buf' (k + 1)) := by
  rw [h k (by omega), h (k + 1) hk]

/-- **The four transactions of the flow meter.** -/
theorem readFlowData_uart (fpu : Fpu) (w : Traffic) (i : Nat) (slave : UInt8) (mdt : UInt32)
    (adj : Vector UInt32 9) (fd : FlowData) {m : Master} (hrx : m.rx = []) :
    ∃ buf, Master.readFlowData fpu (w.exchange i) fd slave mdt adj m =
      (readFlowData fpu (w.bus i) fd slave mdt adj, ⟨[], buf⟩) := by
  obtain ⟨code₀, buf₀, hcall₀, hbus₀, hsame₀⟩ := masterTransaction_uart (w := w) (i := i)
    (q := ⟨slave, 1, 4, ku8MBReadHoldingRegisters⟩) (Or.inl rfl) 0 hrx
  obtain ⟨code₁, buf₁, hcall₁, hbus₁, hsame₁⟩ := masterTransaction_uart (w := w) (i := i)
    (q := ⟨slave, 33, 4, ku8MBReadHoldingRegisters⟩) (Or.inl rfl) 1 (m := ⟨[], buf₀⟩) rfl
  obtain ⟨code₂, buf₂, hcall₂, hbus₂, hsame₂⟩ := masterTransaction_uart (w := w) (i := i)
    (q := ⟨slave, 91, 3, ku8MBReadHoldingRegisters⟩) (Or.inl rfl) 2 (m := ⟨[], buf₁⟩) rfl
  obtain ⟨code₃, buf₃, hcall₃, hbus₃, hsame₃⟩ := masterTransaction_uart (w := w) (i := i)
    (q := ⟨slave, 97, 4, ku8MBReadHoldingRegisters⟩) (Or.inl rfl) 3 (m := ⟨[], buf₂⟩) rfl
  dsimp only at hbus₀ hsame₀ hbus₁ hsame₁ hbus₂ hsame₂ hbus₃ hsame₃
  rw [Master.readFlowData, readFlowData]
  simp only [hcall₀, hbus₀, ne_eq]
  by_cases h₀ : code₀ = 0
  · rw [if_neg (not_not_intro h₀), if_neg (not_not_intro h₀)]
    simp only [hcall₁, hbus₁, word_pair (hsame₀ h₀) 0 (by decide),
      word_pair (hsame₀ h₀) 2 (by decide)]
    by_cases h₁ : code₁ = 0
    · rw [if_neg (not_not_intro h₁), if_neg (not_not_intro h₁)]
      simp only [hcall₂, hbus₂, word_pair (hsame₁ h₁) 0 (by decide),
        word_pair (hsame₁ h₁) 2 (by decide)]
      by_cases h₂ : code₂ = 0
      · rw [if_neg (not_not_intro h₂), if_neg (not_not_intro h₂)]
        simp only [hcall₃, hbus₃, hsame₂ h₂ 0 (by decide), hsame₂ h₂ 1 (by decide),
          hsame₂ h₂ 2 (by decide)]
        refine ⟨buf₃, ?_⟩
        by_cases h₃ : code₃ = 0
        · rw [if_neg (not_not_intro h₃), if_neg (not_not_intro h₃)]
          simp only [word_pair (hsame₃ h₃) 0 (by decide), word_pair (hsame₃ h₃) 2 (by decide)]
          rfl
        · rw [if_pos h₃, if_pos h₃]
          rfl
      · rw [if_pos h₂, if_pos h₂]
        exact ⟨buf₂, rfl⟩
    · rw [if_pos h₁, if_pos h₁]
      exact ⟨buf₁, rfl⟩
  · rw [if_pos h₀, if_pos h₀]
    exact ⟨buf₀, rfl⟩

end Reading

/-- **The loop over the meters**: each of them finds the queue empty. -/
theorem Logger.readMetersOn_eq {s : Logger} (h : s.sd.Reads) (w : Traffic) (now : UInt32)
    (fpu : Fpu) (o : WriteOutcome) {m : Master} (hrx : m.rx = []) :
    ∃ buf, s.readMetersOn now fpu w.exchange m =
      (s.readMeters (w.pass now fpu o)).map fun r => (r, ⟨[], buf⟩) := by
  rw [readMetersOn, readMeters]
  have hreads : ∀ i (h : i < MAXMETER), i < s.sd.cfgG.numMeter.toNat → s.sd.cfgM[i].Reads := h
  generalize s.sd.cfgG.numMeter.toNat = n at hreads ⊢
  induction n with
  | zero => exact ⟨m.buf, by rw [forLoop_zero, forLoop_zero, ← hrx]; rfl⟩
  | succ n ih =>
    obtain ⟨buf, heq⟩ := ih fun i hi hin => hreads i hi (Nat.lt_succ_of_lt hin)
    rw [forLoop_succ, forLoop_succ, heq]
    cases hloop : forLoop n _ (true, s.md) with
    | none => exact ⟨buf, rfl⟩
    | some st =>
      obtain ⟨ok, md⟩ := st
      rw [Option.map_some, Option.bind_some, Option.bind_some]
      cases ok with
      | false => exact ⟨buf, rfl⟩
      | true =>
        dsimp only
        rw [if_pos rfl, if_pos rfl]
        by_cases hn : n < MAXMETER
        · obtain ⟨buf', hread⟩ := readMeterData_uart fpu w n (UInt8.ofNat n) now
            (hreads n hn (Nat.lt_succ_self n)) md (m := ⟨[], buf⟩) rfl
          refine ⟨buf', ?_⟩
          simp only [Vector.getElem?_eq_getElem hn, Option.bind_eq_bind, Option.bind_some, hread]
          rw [Option.bind_map, Option.map_bind]
          rfl
        · rw [Vector.getElem?_eq_none (by omega)]
          exact ⟨buf, rfl⟩

/-! ### What the entries are -/

/-- An entry of `md` that is made of what the slaves of the traffic have: each measurement
from one transaction, which they have answered with these words. -/
structure PolledMeter (w : Traffic) (now : UInt32) (fpu : Fpu) (i : Nat) (c : ConfigMeter)
    (d : MeterData) : Prop where
  mdt : d.mdt = now
  phase : ∀ f : MeterField, SinglePhase c.type → f.OtherPhase → d.get f = 0
  field : ∀ f : MeterField, ¬ (SinglePhase c.type ∧ f.OtherPhase) → ∃ j t v ws,
    (transactions c.index c.type c.table)[j]? = some t ∧ (f, v) ∈ t.assign ∧
      (w.line i j).Holds (t.request c.id) ws ∧
      d.get f = v fpu (ResponseBuffer.load (.replicate _ 0) ws) c.adjust

/-- The slaves have what the transactions of the meter ask for, and nothing is lost. -/
def Traffic.Serves (w : Traffic) (i : Nat) (c : ConfigMeter) : Prop :=
  ∀ (j : Nat) (t : Transaction), (transactions c.index c.type c.table)[j]? = some t →
    ∃ ws, (w.line i j).Holds (t.request c.id) ws ∧ 2 * ws.length + 5 ≤ w.cut i j

theorem bus_answer {w : Traffic} {i j : Nat} {t : Transaction} {slave : UInt8} :
    t.answer (w.bus i) slave j =
      finish (.replicate _ 0) ((w.line i j).call (t.request slave) (w.cut i j)) := rfl

/-- A transaction that succeeds is a reading. -/
theorem bus_answer_zero {w : Traffic} {i j : Nat} {t : Transaction} {slave : UInt8}
    (h : (t.answer (w.bus i) slave j).1 = 0) : ∃ ws, (w.line i j).Holds (t.request slave) ws ∧
      2 * ws.length + 5 ≤ w.cut i j ∧
      (t.answer (w.bus i) slave j).2 = ResponseBuffer.load (.replicate _ 0) ws := by
  rw [bus_answer] at h ⊢
  cases hread : (w.line i j).call (t.request slave) (w.cut i j) with
  | error code =>
    rw [hread] at h
    exact absurd h (Line.call_error hread)
  | ok ws =>
    obtain ⟨hholds, hcut⟩ := Line.call_ok_iff.mp hread
    exact ⟨ws, hholds, hcut, rfl⟩

theorem meterAnswers_iff {w : Traffic} {now : UInt32} {fpu : Fpu} {o : WriteOutcome} {i : Nat}
    {c : ConfigMeter} : MeterAnswers (w.pass now fpu o) i c ↔ w.Serves i c := by
  constructor
  · intro h j t hj
    have hzero := h j t hj
    rw [Nat.zero_add] at hzero
    obtain ⟨ws, hholds, hcut, _⟩ := bus_answer_zero (w := w) (i := i) hzero
    exact ⟨ws, hholds, hcut⟩
  · intro h j t hj
    obtain ⟨ws, hboth⟩ := h j t hj
    show (t.answer (w.bus i) c.id (0 + j)).1 = 0
    rw [Nat.zero_add, bus_answer, Line.call_ok_iff.mpr hboth]
    rfl

theorem polledMeter_of_whole {w : Traffic} {now : UInt32} {fpu : Fpu} {o : WriteOutcome} {i : Nat}
    {c : ConfigMeter} {d : MeterData} (h : WholeMeter (w.pass now fpu o) i c d) :
    PolledMeter w now fpu i c d where
  mdt := h.mdt
  phase := h.phase
  field := by
    intro f hf
    obtain ⟨j, t, v, hj, hv, hzero, hx⟩ := h.field f hf
    rw [Nat.zero_add] at hzero hx
    obtain ⟨ws, hholds, _, hload⟩ := bus_answer_zero (w := w) (i := i) hzero
    refine ⟨j, t, v, ws, hj, hv, hholds, hx.trans ?_⟩
    rw [← hload]
    rfl

namespace Logger

/-- **A pass on the UART** is the pass on the bus of its traffic. -/
theorem logTask_uart {s : Logger} (h : s.sd.cfgG.type = 1 → s.sd.Reads) (w : Traffic)
    (now : UInt32) (fpu : Fpu) (o : WriteOutcome) {u : Uart} (hrx : u.rx = []) :
    ∃ u', u'.rx = [] ∧ s.logTaskOn now fpu o w.exchange u =
      (s.logTask (w.pass now fpu o)).map fun s' => (s', u') := by
  rw [logTaskOn]
  split
  · -- the meters
    rename_i htype
    obtain ⟨buf, hread⟩ := readMetersOn_eq (h htype) w now fpu o (m := ⟨u.rx, u.meter⟩) hrx
    refine ⟨u.put ⟨[], buf⟩ .meter, rfl, ?_⟩
    rw [hread, logTask, htype]
    show _ = Option.map _ (s.ReadMeterToFlash_Task (w.pass now fpu o))
    rw [ReadMeterToFlash_Task]
    cases s.readMeters (w.pass now fpu o) with
    | none => rfl
    | some r =>
      obtain ⟨ok, md⟩ := r
      cases ok with
      | true => exact Option.map_eq_bind.symm
      | false => rfl
  · -- the sensors are not on the UART
    rename_i htype
    rw [logTask, htype]
    exact ⟨u, hrx, Option.map_eq_bind.symm⟩
  · -- the flow meter
    rename_i htype
    obtain ⟨buf, hread⟩ := readFlowData_uart fpu w 0 s.sd.cfgF.id now s.sd.cfgF.adjust s.fd
      (m := ⟨u.rx, u.flow⟩) hrx
    refine ⟨u.put ⟨[], buf⟩ .flow, rfl, ?_⟩
    rw [hread, logTask, htype]
    show _ = Option.map _ (s.ReadFlowToFlash_Task (w.pass now fpu o))
    rw [ReadFlowToFlash_Task]
    dsimp only [Traffic.pass]
    by_cases hok : (readFlowData fpu (w.bus 0) s.fd s.sd.cfgF.id now s.sd.cfgF.adjust).1 = 0
    · simp only [hok, if_true]
      exact Option.map_eq_bind.symm
    · simp only [hok, if_false]
      rfl
  · rename_i hmeter hsensor hflow
    have hnone : s.logTask (w.pass now fpu o) = some s := by
      rw [logTask]
      split
      · exact absurd ‹_› hmeter
      · exact absurd ‹_› hsensor
      · exact absurd ‹_› hflow
      · rfl
    rw [hnone]
    exact ⟨u, hrx, rfl⟩

/-- **From the registers to the bytes of the records.**  A pass over the meters hands records
to the flash if and only if every slave serves each of its transactions, and then each of
them is made of words that its slave had when it was asked. -/
theorem logTask_registers {s : Logger} (h : Metered s.sd) (hreads : s.sd.Reads) (w : Traffic)
    (now : UInt32) (fpu : Fpu) (o : WriteOutcome) {u : Uart} (hrx : u.rx = []) :
    ∃ s₁ b? u', u'.rx = [] ∧ s₁.flash = s.flash ∧
      s.logTaskOn now fpu o w.exchange u = some ((match b? with
        | none => s₁
        | some b => s₁.writeBatch o b), u') ∧
      (b? = none ↔ ¬ ∀ i (h : i < MAXMETER), i < s.sd.cfgG.numMeter.toNat →
        w.Serves i s.sd.cfgM[i]) ∧
      ∀ b, b? = some b → b.data.length = 64 * s.sd.cfgG.numMeter.toNat ∧
        ∀ i (h : i < MAXMETER), i < s.sd.cfgG.numMeter.toNat → ∃ d,
          PolledMeter w now fpu i s.sd.cfgM[i] d ∧ (b.data.drop (64 * i)).take 64 =
            wordsBytes (s.sd.cfgM[i].xid :: now :: MeterField.all.map d.get) ++
              List.replicate 16 0 := by
  obtain ⟨u', hrx', heq⟩ := logTask_uart (fun _ => hreads) w now fpu o hrx
  obtain ⟨s₁, b?, hb, hflash, hnone, hwhole⟩ := batch_whole h (w.pass now fpu o)
  refine ⟨s₁, b?, u', hrx', hflash, ?_, ?_, ?_⟩
  · rw [heq, logTask_eq, hb]
    rfl
  · rw [hnone]
    refine not_congr (forall_congr' fun i => forall_congr' fun hi => forall_congr' fun hin => ?_)
    exact meterAnswers_iff
  · intro b hsome
    obtain ⟨hlen, hall⟩ := hwhole b hsome
    refine ⟨hlen, fun i hi hin => ?_⟩
    obtain ⟨d, hd, hbytes⟩ := hall i hi hin
    exact ⟨d, polledMeter_of_whole hd, hbytes⟩

/-- Every register holds 7, and nothing is lost. -/
def allSevens : Traffic := ⟨fun _ _ => .sevens, fun _ _ _ => 0, fun _ _ => 255⟩

theorem sevens_holds {q : Request} (hfn : q.fnRead = 0x03) (h1 : 1 ≤ q.readQty.toNat)
    (h2 : q.readQty.toNat ≤ 125) (h3 : q.startAddress.toNat + q.readQty.toNat ≤ 65536) :
    Line.sevens.Holds q (List.replicate q.readQty.toNat 7) where
  length := List.length_replicate
  bounds := by rw [List.length_replicate]; exact ⟨h1, h2⟩
  words := by
    refine ⟨_, _, rfl, if_pos hfn, fun i hi => ?_⟩
    rw [List.length_replicate] at hi
    rw [List.getElem_replicate]
    exact ⟨by omega, rfl⟩

theorem twoDts353_meter {i : Nat} (hi : i < MAXMETER) :
    twoDts353.cfgM[i] = ⟨1, 7, 1, 0, .replicate _ 0, .replicate _ 0⟩ := by
  rw [twoDts353]
  exact Vector.getElem_replicate hi

theorem twoDts353_metered : Metered twoDts353 := by
  refine ⟨rfl, by decide, fun i hi _ => ?_⟩
  rw [twoDts353_meter hi]
  decide

theorem twoDts353_reads : twoDts353.Reads := by
  intro i hi _
  rw [twoDts353_meter hi]
  unfold ConfigMeter.Reads
  decide

/-- Two meters, and every register holds 7: two records are handed to the flash. -/
theorem logTask_registers_two :
    ∃ (s₁ : Logger) (b : Batch) (u' : Uart),
      (factory (blankChip 65536) twoDts353 ⟨0, 0, 0⟩).logTaskOn 60 .null .healthy
        allSevens.exchange ⟨[], .replicate _ 0, .replicate _ 0⟩ =
      some (s₁.writeBatch .healthy b, u') ∧ b.data.length = 128 := by
  obtain ⟨s₁, b?, u', _, _, heq, hnone, hall⟩ := logTask_registers
    (s := factory (blankChip 65536) twoDts353 ⟨0, 0, 0⟩) twoDts353_metered twoDts353_reads allSevens
    60 .null .healthy (u := ⟨[], .replicate _ 0, .replicate _ 0⟩) rfl
  cases b? with
  | none =>
    refine absurd (fun i hi _ => ?_) (hnone.mp rfl)
    show allSevens.Serves i twoDts353.cfgM[i]
    rw [twoDts353_meter hi]
    intro j t hj
    have hall : ∀ t ∈ transactions 0 1 (.replicate _ 0), t.fnRead = 0x03 ∧ 1 ≤ t.readQty.toNat ∧
        t.readQty.toNat ≤ 125 ∧ t.startAddress.toNat + t.readQty.toNat ≤ 65536 := by decide
    obtain ⟨hfn, h1, h2, h3⟩ := hall t (List.mem_of_getElem? hj)
    refine ⟨_, sevens_holds (q := t.request 1) hfn h1 h2 h3, ?_⟩
    rw [List.length_replicate]
    show 2 * t.readQty.toNat + 5 ≤ 255
    omega
  | some b => exact ⟨s₁, b, u', heq, (hall b rfl).1⟩

/-! ### Runs -/

/-- The states of a device with its UART: a logging pass is made on the UART, with any
slaves and any losses; a reset sets the UART up again. -/
inductive UartReach (fmt : Format) (ok : Logger → Label → Logger → Prop) (s₀ : Logger) :
    Logger → Uart → Prop
  | refl {u : Uart} : u.rx = [] → UartReach fmt ok s₀ s₀ u
  | log {s s' : Logger} {u u' : Uart} (w : Traffic) (now : UInt32) (fpu : Fpu) (o : WriteOutcome) :
      UartReach fmt ok s₀ s u → (s.sd.cfgG.type = 1 → s.sd.Reads) →
      s.start.logTaskOn now fpu o w.exchange u = some (s', u') →
      ok s (.log (w.pass now fpu o)) s' → UartReach fmt ok s₀ s' u'
  | step {s s' : Logger} {u u' : Uart} {l : Label} :
      UartReach fmt ok s₀ s u → (∀ p, l ≠ .log p) → next fmt l s = some s' → ok s l s' →
      u' = u ∨ u'.rx = [] → UartReach fmt ok s₀ s' u'

/-- **A run with the UART is a run of the other model**, by induction on the run, and the
receive queue is empty between its steps. -/
theorem UartReach.reach {fmt : Format} {ok : Logger → Label → Logger → Prop} {s₀ s : Logger}
    {u : Uart} (h : UartReach fmt ok s₀ s u) : Reach fmt ok s₀ s ∧ u.rx = [] := by
  induction h with
  | refl hrx => exact ⟨.refl, hrx⟩
  | @log s s' u u' w now fpu o _ hreads hlog hok ih =>
    obtain ⟨hreach, hrx⟩ := ih
    obtain ⟨u₁, hrx₁, heq⟩ := logTask_uart (s := s.start) hreads w now fpu o hrx
    rw [heq] at hlog
    obtain ⟨s₁, htask, hpair⟩ := Option.map_eq_some_iff.mp hlog
    cases hpair
    exact ⟨hreach.step (l := .log (w.pass now fpu o)) htask hok, hrx₁⟩
  | step _ _ hnext hok hu ih =>
    obtain ⟨hreach, hrx⟩ := ih
    refine ⟨hreach.step hnext hok, ?_⟩
    rcases hu with rfl | hrx'
    · exact hrx
    · exact hrx'

/-- The same line, with every reply cut off after three bytes. -/
def cutSevens : Traffic := { allSevens with cut := fun _ _ => 3 }

/-- A device with two meters logs two records, posts them, and makes a pass on a line that
cuts every reply. -/
theorem UartReach.reach_three : ∃ s u,
    UartReach .zero (fun _ _ _ => True) (factory (blankChip 65536) twoDts353 ⟨0, 0, 0⟩) s u ∧
      s.wIndex = 2 ∧ s.rIndex = 2 ∧
      Reach .zero (fun _ _ _ => True) (factory (blankChip 65536) twoDts353 ⟨0, 0, 0⟩) s ∧
      u.rx = [] := by
  have hrun : (((factory (blankChip 65536) twoDts353 ⟨0, 0, 0⟩).start.logTaskOn 60 .null .healthy
      allSevens.exchange ⟨[], .replicate _ 0, .replicate _ 0⟩).bind fun x =>
      (next .zero (.post ⟨true, (false, false), fun _ => 200⟩) x.1).bind fun s₂ =>
      (s₂.start.logTaskOn 120 .null .healthy cutSevens.exchange x.2).map fun y =>
        (decide s₂.sd.Reads, y.1.wIndex, y.1.rIndex)) = some (true, 2, 2) := by
    decide +kernel
  obtain ⟨⟨s₁, u₁⟩, h₁, hrun⟩ := Option.bind_eq_some_iff.mp hrun
  obtain ⟨s₂, h₂, hrun⟩ := Option.bind_eq_some_iff.mp hrun
  obtain ⟨⟨s₃, u₃⟩, h₃, heq⟩ := Option.map_eq_some_iff.mp hrun
  simp only [Prod.mk.injEq, decide_eq_true_eq] at heq
  obtain ⟨hreads, hw, hr⟩ := heq
  have hpass : UartReach .zero (fun _ _ _ => True) _ s₁ u₁ :=
    .log allSevens 60 .null .healthy (.refl rfl) (fun _ => twoDts353_reads) h₁ trivial
  have hpost := UartReach.step hpass (fun _ h => Label.noConfusion h) h₂ trivial (Or.inl rfl)
  have h := UartReach.log cutSevens 120 .null .healthy hpost (fun _ => hreads) h₃ trivial
  exact ⟨s₃, u₃, h, hw, hr, h.reach⟩

end Logger

end EnresLogger
