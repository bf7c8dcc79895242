import EnresLogger.Tables

/-!
# Whole records

`readMeterData` fills an entry of `md` field by field and can stop after each
transaction, so between two passes the table is a mix of old and new fields.

`runTransactions_spec` says what a call leaves: a call that succeeds has made
every transaction, and each field is computed from one of them or is as it was.
For the seven types no field is as it was (`transactions_assign`).  The pass
stops at the first meter that fails, so when it comes to the write every meter
has been read in this pass: `readMeters_whole`, `records_whole`.
-/

namespace EnresLogger

open Lib

/-! ### Fields -/

def MeterData.get (d : MeterData) : MeterField → UInt32
  | .watt => d.watt
  | .wattHour => d.wattHour
  | .pf => d.pf
  | .varh => d.varh
  | .i0 => d.i0
  | .i1 => d.i1
  | .i2 => d.i2
  | .v0 => d.v0
  | .v1 => d.v1
  | .v2 => d.v2

/-- The measurements in the order of the record. -/
def MeterField.all : List MeterField := [.watt, .wattHour, .pf, .varh, .i0, .i1, .i2, .v0, .v1, .v2]

theorem MeterData.get_set (d : MeterData) (x : UInt32) (f g : MeterField) :
    (d.set x f).get g = if f = g then x else d.get g := by
  cases f <;> cases g <;> rfl

theorem meterWords_eq (xid : UInt32) (d : MeterData) :
    meterWords xid d = xid :: d.mdt :: MeterField.all.map d.get := rfl

/-- What a list of assignments leaves in a field: the value of one of them, or
what was there when none is to it. -/
theorem assign_get (value : Value → UInt32) (l : List (MeterField × Value)) (d : MeterData)
    (f : MeterField) :
    (∃ v, (f, v) ∈ l ∧ (l.foldl (fun d a => d.set (value a.2) a.1) d).get f = value v) ∨
      ((∀ v, (f, v) ∉ l) ∧ (l.foldl (fun d a => d.set (value a.2) a.1) d).get f = d.get f) := by
  induction l generalizing d with
  | nil => exact Or.inr ⟨fun _ => List.not_mem_nil, rfl⟩
  | cons a l ih =>
    rw [List.foldl_cons]
    rcases ih (d.set (value a.2) a.1) with ⟨v, hv, hget⟩ | ⟨hnone, hget⟩
    · exact Or.inl ⟨v, List.mem_cons_of_mem _ hv, hget⟩
    · rw [hget, MeterData.get_set]
      by_cases h : a.1 = f
      · subst h
        exact Or.inl ⟨a.2, List.mem_cons_self, if_pos rfl⟩
      · refine Or.inr ⟨fun v hv => ?_, if_neg h⟩
        rcases List.mem_cons.mp hv with rfl | hv
        · exact h rfl
        · exact hnone v hv

/-! ### One call -/

/-- The status and the response buffer of the `k`-th transaction of a call. -/
def Transaction.answer (t : Transaction) (bus : Bus) (slave : UInt8) (k : Nat) :
    UInt8 × ResponseBuffer := bus k slave t.startAddress t.readQty t.fnRead

/-- The value is computed from the answer to a transaction of the call, the
`k`-th one at the earliest. -/
def Computed (fpu : Fpu) (bus : Bus) (slave : UInt8) (adj : Vector UInt32 10) (k : Nat)
    (ts : List Transaction) (f : MeterField) (x : UInt32) : Prop :=
  ∃ (j : Nat) (t : Transaction) (v : Value), ts[j]? = some t ∧ (f, v) ∈ t.assign ∧
    (t.answer bus slave (k + j)).1 = 0 ∧ x = v fpu (t.answer bus slave (k + j)).2 adj

/-- Every transaction is answered. -/
def Answered (bus : Bus) (slave : UInt8) (k : Nat) (ts : List Transaction) : Prop :=
  ∀ (j : Nat) (t : Transaction), ts[j]? = some t → (t.answer bus slave (k + j)).1 = 0

section Call

variable {fpu : Fpu} {bus : Bus} {index slave : UInt8} {mdt : UInt32} {adj : Vector UInt32 10}

theorem Answered.cons {k : Nat} {t : Transaction} {ts : List Transaction} :
    Answered bus slave k (t :: ts) ↔
      (t.answer bus slave k).1 = 0 ∧ Answered bus slave (k + 1) ts := by
  constructor
  · intro h
    refine ⟨h 0 t rfl, fun j t' hj => ?_⟩
    rw [Nat.add_assoc, Nat.add_comm 1 j]
    exact h (j + 1) t' hj
  · rintro ⟨h0, h⟩ j t' hj
    cases j with
    | zero =>
      obtain rfl : t = t' := Option.some.inj hj
      exact h0
    | succ j =>
      rw [← Nat.succ_add_eq_add_succ]
      exact h j t' hj

theorem Computed.of_tail {k : Nat} {t : Transaction} {ts : List Transaction} {f : MeterField}
    {x : UInt32} (h : Computed fpu bus slave adj (k + 1) ts f x) :
    Computed fpu bus slave adj k (t :: ts) f x := by
  obtain ⟨j, t', v, hj, hv, hok, hx⟩ := h
  rw [Nat.succ_add_eq_add_succ] at hok hx
  exact ⟨j + 1, t', v, hj, hv, hok, hx⟩

/-- **What a call leaves.**  It succeeds if and only if every transaction is
answered; the other entries stay. -/
theorem runTransactions_spec (h : index.toNat < MAXMETER) (k : Nat) (ts : List Transaction)
    (md : Meters) :
    ∃ r md', runTransactions fpu bus index slave mdt adj k ts md = some (r, md') ∧
      (∀ j (hj : j < MAXMETER), j ≠ index.toNat → md'[j] = md[j]) ∧
      (r = 0 ↔ Answered bus slave k ts) ∧
      (r = 0 → md'[index.toNat].mdt = mdt ∧ ∀ f,
        Computed fpu bus slave adj k ts f (md'[index.toNat].get f) ∨
          (md'[index.toNat].get f = md[index.toNat].get f ∧
            ∀ t ∈ ts, ∀ v, (f, v) ∉ t.assign)) := by
  induction ts generalizing k md with
  | nil =>
    refine ⟨0, md.set index.toNat { md[index.toNat] with mdt }, ?_, fun j hj hne => ?_, ?_, ?_⟩
    · rw [runTransactions, Vector.getElem?_eq_getElem h, Option.bind_eq_bind, Option.bind_some,
        putAt_some _ h]
      rfl
    · exact Vector.getElem_set_ne _ _ (Ne.symm hne)
    · exact iff_of_true rfl (fun j t hj => by cases hj)
    · intro _
      rw [Vector.getElem_set_self]
      exact ⟨rfl, fun f => Or.inr ⟨by cases f <;> rfl, fun t ht => by cases ht⟩⟩
  | cons t ts ih =>
    rw [runTransactions]
    change ∃ r md', (if (t.answer bus slave k).1 ≠ 0 then some ((t.answer bus slave k).1, md)
      else _) = some (r, md') ∧ _
    by_cases hok : (t.answer bus slave k).1 = 0
    · -- the fields of this transaction, then the others
      rw [if_neg (not_not_intro hok), Vector.getElem?_eq_getElem h]
      simp only [Option.bind_eq_bind, Option.bind_some, putAt_some _ h]
      obtain ⟨r, md', hrun, hframe, hans, hfields⟩ := ih (k + 1) (md.set index.toNat
        (t.assign.foldl (fun d a => d.set (a.2 fpu (t.answer bus slave k).2 adj) a.1)
          md[index.toNat]))
      refine ⟨r, md', hrun, fun j hj hne => ?_, ?_, fun hr => ?_⟩
      · rw [hframe j hj hne, Vector.getElem_set_ne _ _ (Ne.symm hne)]
      · rw [Answered.cons, hans, and_iff_right hok]
      · obtain ⟨hmdt, hall⟩ := hfields hr
        refine ⟨hmdt, fun f => ?_⟩
        rcases hall f with hlater | ⟨hsame, hnone⟩
        · exact Or.inl hlater.of_tail
        · rw [Vector.getElem_set_self] at hsame
          rcases assign_get (fun v => v fpu (t.answer bus slave k).2 adj) t.assign
            md[index.toNat] f with ⟨v, hv, hget⟩ | ⟨hfirst, hget⟩
          · exact Or.inl ⟨0, t, v, rfl, hv, hok, hsame.trans hget⟩
          · refine Or.inr ⟨hsame.trans hget, fun t' ht' => ?_⟩
            rcases List.mem_cons.mp ht' with rfl | ht'
            · exact hfirst
            · exact hnone t' ht'
    · -- the call ends here
      rw [if_pos hok]
      refine ⟨_, md, rfl, fun _ _ _ => rfl, ?_, fun hr => absurd hr hok⟩
      rw [Answered.cons]
      exact iff_of_false hok (fun hall => hok hall.1)

end Call

/-! ### The seven types -/

/-- The types the switch of `readMeterData` knows. -/
def Supported (type : UInt8) : Prop := type ∈ [0x01, 0x02, 0x03, 0x04, 0x05, 0x09, 0x0a]

/-- `heyuan1` and `generic1`. -/
def SinglePhase (type : UInt8) : Prop := type = 0x05 ∨ type = 0x0a

/-- The fields of the second and the third phase. -/
def MeterField.OtherPhase (f : MeterField) : Prop := f ∈ [i1, i2, v1, v2]

instance (type : UInt8) : Decidable (Supported type) :=
  inferInstanceAs (Decidable (type ∈ [0x01, 0x02, 0x03, 0x04, 0x05, 0x09, 0x0a]))

instance (f : MeterField) : Decidable f.OtherPhase :=
  inferInstanceAs (Decidable (f ∈ [.i1, .i2, .v1, .v2]))

/-- **Every type computes every field.** -/
theorem transactions_assign {type : UInt8} (h : Supported type) (slaveIndex : UInt8)
    (mt : Vector UInt16 11) (f : MeterField) :
    ∃ t ∈ transactions slaveIndex type mt, ∃ v, (f, v) ∈ t.assign := by
  have hall : f ∈ (transactions slaveIndex type mt).flatMap fun t => t.assign.map Prod.fst := by
    simp only [Supported, List.mem_cons, List.not_mem_nil, or_false] at h
    rcases h with rfl | rfl | rfl | rfl | rfl | rfl | rfl
    · show f ∈ [.v0, .v1, .v2, .i0, .i1, .i2, .watt, .pf, .wattHour, .varh]
      cases f <;> decide
    · show f ∈ [.v0, .v1, .v2, .i0, .i1, .i2, .watt, .pf, .wattHour, .varh]
      cases f <;> decide
    · show f ∈ [.i0, .i1, .i2, .v0, .v1, .v2, .watt, .pf, .wattHour, .varh]
      cases f <;> decide
    · show f ∈ [.watt, .wattHour, .pf, .varh, .i0, .i1, .i2, .v0, .v1, .v2]
      cases f <;> decide
    · show f ∈ [.watt, .wattHour, .pf, .varh, .i0, .i1, .i2, .v0, .v1, .v2]
      cases f <;> decide
    · show f ∈ [.watt, .wattHour, .pf, .varh, .i0, .i1, .i2, .v0, .v1, .v2]
      cases f <;> decide
    · show f ∈ [.watt, .wattHour, .pf, .varh, .i0, .i1, .i2, .v0, .v1, .v2]
      cases f <;> decide
  obtain ⟨t, ht, hf⟩ := List.mem_flatMap.mp hall
  obtain ⟨⟨f', v⟩, hv, rfl⟩ := List.mem_map.mp hf
  exact ⟨t, ht, v, hv⟩

theorem transactions_zero {type : UInt8} (h : SinglePhase type) {slaveIndex : UInt8}
    {mt : Vector UInt16 11} {f : MeterField} (hf : f.OtherPhase) {t : Transaction}
    (ht : t ∈ transactions slaveIndex type mt) {v : Value} (hv : (f, v) ∈ t.assign) :
    v = zero := by
  have hall : (f, v) ∈ (transactions slaveIndex type mt).flatMap Transaction.assign :=
    List.mem_flatMap.mpr ⟨t, ht, hv⟩
  rcases h with rfl | rfl
  · change (f, v) ∈ [(.watt, scaled 100 0), (.wattHour, scaled32 1), (.pf, scaled 1000 2),
      (.varh, scaled32 3), (.i0, scaled 10000 4), (.i1, zero), (.i2, zero), (.v0, scaled 100 7),
      (.v1, zero), (.v2, zero)] at hall
    cases f
    case i1 | i2 | v1 | v2 => simpa using hall
    all_goals exact absurd hf (by decide)
  · change (f, v) ∈ [(.watt, floatAt 0 0), (.wattHour, floatAt 0 1), (.pf, floatAt 0 2),
      (.varh, floatAt 0 3), (.i0, floatAt 0 4), (.i1, zero), (.i2, zero), (.v0, floatAt 0 7),
      (.v1, zero), (.v2, zero)] at hall
    cases f
    case i1 | i2 | v1 | v2 => simpa using hall
    all_goals exact absurd hf (by decide)

/-- An entry of `md` as a pass over the meters leaves it. -/
structure WholeMeter (p : Pass) (i : Nat) (m : ConfigMeter) (d : MeterData) : Prop where
  mdt : d.mdt = p.now
  phase : ∀ f : MeterField, SinglePhase m.type → f.OtherPhase → d.get f = 0
  field : ∀ f : MeterField, ¬ (SinglePhase m.type ∧ f.OtherPhase) →
    Computed p.fpu (p.bus i) m.id m.adjust 0 (transactions m.index m.type m.table) f (d.get f)

/-- The meter answers every transaction of its call. -/
def MeterAnswers (p : Pass) (i : Nat) (m : ConfigMeter) : Prop :=
  Answered (p.bus i) m.id 0 (transactions m.index m.type m.table)

/-- **One meter.** -/
theorem readMeterData_spec {m : ConfigMeter} (hm : Supported m.type) (p : Pass) {i : Nat}
    (hi : i < MAXMETER) (md : Meters) :
    ∃ r md', readMeterData p.fpu (p.bus i) md (UInt8.ofNat i) m.id m.index m.type p.now m.adjust
        m.table = some (r, md') ∧
      (∀ j (hj : j < MAXMETER), j ≠ i → md'[j] = md[j]) ∧ (r = 0 ↔ MeterAnswers p i m) ∧
      (r = 0 → WholeMeter p i m md'[i]) := by
  have hindex : (UInt8.ofNat i).toNat = i := by
    rw [UInt8.toNat_ofNat', Nat.mod_eq_of_lt (Nat.lt_trans hi (by decide))]
  obtain ⟨r, md', hrun, hframe, hans, hfields⟩ := @runTransactions_spec p.fpu (p.bus i)
    (UInt8.ofNat i) m.id p.now m.adjust (by rw [hindex]; exact hi) 0
    (transactions m.index m.type m.table) md
  simp only [hindex] at hframe hfields
  refine ⟨r, md', ?_, hframe, hans, fun hr => ?_⟩
  · rw [readMeterData]
    split
    · rename_i hnil
      obtain ⟨t, ht, _⟩ := transactions_assign hm m.index m.table .watt
      rw [hnil] at ht
      cases ht
    · rename_i hcons
      rw [hcons] at hrun
      exact hrun
  · obtain ⟨hmdt, hall⟩ := hfields hr
    have hcomputed : ∀ f, Computed p.fpu (p.bus i) m.id m.adjust 0
        (transactions m.index m.type m.table) f (md'[i].get f) := by
      intro f
      rcases hall f with h | ⟨_, hnone⟩
      · exact h
      · obtain ⟨t, ht, v, hv⟩ := transactions_assign hm m.index m.table f
        exact absurd hv (hnone t ht v)
    refine ⟨hmdt, fun f hphase hf => ?_, fun f _ => hcomputed f⟩
    obtain ⟨j, t, v, hj, hv, _, hx⟩ := hcomputed f
    rw [hx, transactions_zero hphase hf (List.mem_of_getElem? hj) hv]
    rfl

namespace Logger

/-- A configuration of 1 to 21 meters of the seven types. -/
structure Metered (sd : SDConfig) : Prop where
  type : sd.cfgG.type = 1
  number : 1 ≤ sd.cfgG.numMeter.toNat ∧ sd.cfgG.numMeter.toNat ≤ MAXMETER
  types : ∀ i (h : i < MAXMETER), i < sd.cfgG.numMeter.toNat → Supported sd.cfgM[i].type

/-- Every configured meter answers every transaction of the pass. -/
def AllAnswer (sd : SDConfig) (p : Pass) : Prop :=
  ∀ i (h : i < MAXMETER), i < sd.cfgG.numMeter.toNat → MeterAnswers p i sd.cfgM[i]

/-- **The loop over the meters** goes through if and only if all of them answer,
and then every entry is of this pass. -/
theorem readMeters_whole {s : Logger} (h : Metered s.sd) (p : Pass) :
    ∃ ok md, s.readMeters p = some (ok, md) ∧ (ok = true ↔ AllAnswer s.sd p) ∧
      (ok = true → ∀ i (hi : i < MAXMETER), i < s.sd.cfgG.numMeter.toNat →
        WholeMeter p i s.sd.cfgM[i] md[i]) := by
  have hn := h.number.2
  obtain ⟨⟨ok, md⟩, hread, hans, hwhole⟩ := forLoop_spec (n := s.sd.cfgG.numMeter.toNat)
    (s := (true, s.md))
    (f := fun i (st : Bool × Meters) =>
      if st.1 then do
        let m ← s.sd.cfgM[i]?
        let r ← readMeterData p.fpu (p.bus i) st.2 (UInt8.ofNat i) m.id m.index m.type p.now
          m.adjust m.table
        return (r.1 == 0, r.2)
      else some st)
    (fun k st =>
      (st.1 = true ↔ ∀ i (_ : i < MAXMETER), i < k → MeterAnswers p i s.sd.cfgM[i]) ∧
      (st.1 = true → ∀ i (_ : i < MAXMETER), i < k → WholeMeter p i s.sd.cfgM[i] st.2[i]))
    ⟨iff_of_true rfl (fun i _ hi => absurd hi (Nat.not_lt_zero i)),
      fun _ i _ hi => absurd hi (Nat.not_lt_zero i)⟩ (by
    rintro k ⟨ok, md⟩ hk ⟨hans, hwhole⟩
    have hk' : k < MAXMETER := by omega
    cases ok with
    | false =>
      -- a meter before this one has failed
      refine ⟨(false, md), rfl, iff_of_false Bool.false_ne_true fun hall => ?_,
        fun hok => absurd hok Bool.false_ne_true⟩
      exact Bool.false_ne_true (hans.mpr fun i hi hik => hall i hi (Nat.lt_succ_of_lt hik))
    | true =>
      obtain ⟨r, md', hr, hframe, hone, hnew⟩ := readMeterData_spec (h.types k hk' hk) p hk' md
      refine ⟨(r == 0, md'), ?_, ?_, fun hok i hi hik => ?_⟩
      · simp only [if_true, Vector.getElem?_eq_getElem hk', Option.bind_eq_bind, Option.bind_some,
          hr, Option.pure_def]
      · rw [beq_iff_eq, hone]
        constructor
        · intro hlast i hi hik
          rcases Nat.lt_or_eq_of_le (Nat.le_of_lt_succ hik) with hlt | rfl
          · exact hans.mp rfl i hi hlt
          · exact hlast
        · exact fun hall => hall k hk' (Nat.lt_succ_self k)
      · rcases Nat.lt_or_eq_of_le (Nat.le_of_lt_succ hik) with hlt | rfl
        · rw [hframe i hi (by omega)]
          exact hwhole rfl i hi hlt
        · exact hnew (beq_iff_eq.mp hok))
  exact ⟨ok, md, hread, hans, hwhole⟩

theorem meterRecords_get {n i : Nat} (hn : n ≤ MAXMETER) (hi : i < n)
    (cfgM : Vector ConfigMeter MAXMETER) (md : Meters)
    (h : i < (meterRecords n cfgM md).length) :
    (meterRecords n cfgM md)[i] = .meter cfgM[i].xid md[i] := by
  simp [meterRecords]

/-- **What a pass hands to the flash.** -/
def WholeBatch (sd : SDConfig) (p : Pass) (b : Batch) : Prop :=
  b.data.length = 64 * sd.cfgG.numMeter.toNat ∧
    ∀ i (h : i < MAXMETER), i < sd.cfgG.numMeter.toNat → ∃ d, WholeMeter p i sd.cfgM[i] d ∧
      (b.data.drop (64 * i)).take 64 =
        wordsBytes (sd.cfgM[i].xid :: p.now :: MeterField.all.map d.get) ++ List.replicate 16 0

/-- One pass: all of its meters have answered and it writes whole records, or
it writes nothing. -/
theorem batch_whole {s : Logger} (h : Metered s.sd) (p : Pass) :
    ∃ s₁ b?, s.batch p = some (s₁, b?) ∧ s₁.flash = s.flash ∧
      (b? = none ↔ ¬ AllAnswer s.sd p) ∧ ∀ b, b? = some b → WholeBatch s.sd p b := by
  have hn := h.number.2
  obtain ⟨ok, md, hread, hans, hwhole⟩ := readMeters_whole h p
  rw [batch]
  simp only [h.type, hread, Option.bind_eq_bind, Option.bind_some]
  cases ok with
  | false =>
    refine ⟨_, none, rfl, rfl, iff_of_true rfl (fun hall => ?_), fun b hb => by cases hb⟩
    exact Bool.false_ne_true (hans.mpr hall)
  | true =>
    obtain ⟨c, hc, hold⟩ := fillMeters_holds hn s.sd.cfgM md s.wBuff
    have hlen := meterRecords_length hn s.sd.cfgM md
    have hget := get_of_holds hold (k := RECSIZE * s.sd.cfgG.numMeter.toNat) (by rw [hlen]; rfl)
    have hbatch : meterBatch { s with md } = some ({ s with md, wBuff := c.buf },
        ⟨.meter, s.sd.cfgG.numMeter.toNat,
          recordBytes (meterRecords s.sd.cfgG.numMeter.toNat s.sd.cfgM md),
          meterRecords s.sd.cfgG.numMeter.toNat s.sd.cfgM md⟩) := by
      simp only [meterBatch, hc, hget, Option.bind_eq_bind, Option.bind_some, Option.pure_def]
    simp only [if_true, hbatch, Option.bind_some, Option.pure_def]
    refine ⟨_, _, rfl, rfl, ?_, ?_⟩
    · exact iff_of_false (fun hb => by cases hb) (not_not_intro (hans.mp rfl))
    · rintro b hb
      cases hb
      refine ⟨by rw [recordBytes_length, hlen], fun i hi hin => ⟨md[i], hwhole rfl i hi hin, ?_⟩⟩
      rw [recordBytes_drop_take (by rw [hlen]; exact hin), meterRecords_get hn hin, Record.bytes,
        meterWords_eq, (hwhole rfl i hi hin).mdt]

/-- Two meters of the type `dts353`. -/
def twoDts353 : SDConfig :=
  { SDConfig.plain 1 2 3 with cfgM := .replicate _ ⟨1, 7, 1, 0, .replicate _ 0, .replicate _ 0⟩ }

end Logger

end EnresLogger
