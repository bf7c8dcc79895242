import EnresLogger.Whole

/-!
# What a good reading says

The code that `readMeterData` returns is the only thing `ReadMeterToFlash_Task`
looks at before the entry of `md` is put into a record.  A reading is fresh if
0 means that the call has assigned the whole entry, so that nothing of what was
there before is left, and if a failure leaves the time of the entry alone.

This holds for the seven types (`freshReading_iff`).  The switch has no default:
for any other type the call makes no transaction and returns the 0 it began with.
-/

namespace EnresLogger

open Lib

/-! ### Assignments -/

@[simp] theorem MeterData.set_mdt (d : MeterData) (x : UInt32) (f : MeterField) :
    (d.set x f).mdt = d.mdt := by
  cases f <;> rfl

theorem MeterData.eq_of_get {d e : MeterData} (hmdt : d.mdt = e.mdt)
    (hget : ∀ f, d.get f = e.get f) : d = e := by
  cases d
  cases e
  rw [MeterData.mk.injEq]
  exact ⟨hmdt, hget .watt, hget .wattHour, hget .pf, hget .varh, hget .i0, hget .i1, hget .i2,
    hget .v0, hget .v1, hget .v2⟩

theorem assign_mdt (value : Value → UInt32) (l : List (MeterField × Value)) (d : MeterData) :
    (l.foldl (fun d a => d.set (value a.2) a.1) d).mdt = d.mdt := by
  induction l generalizing d with
  | nil => rfl
  | cons a l ih => rw [List.foldl_cons, ih, MeterData.set_mdt]

/-- Two entries agree on a field behind the assignments if they did before, or if
one of the assignments is to it. -/
theorem assign_agree (value : Value → UInt32) (l : List (MeterField × Value)) {d e : MeterData}
    {f : MeterField} (h : d.get f = e.get f ∨ ∃ v, (f, v) ∈ l) :
    (l.foldl (fun d a => d.set (value a.2) a.1) d).get f =
      (l.foldl (fun d a => d.set (value a.2) a.1) e).get f := by
  induction l generalizing d e with
  | nil =>
    rcases h with h | ⟨v, hv⟩
    · exact h
    · cases hv
  | cons a l ih =>
    rw [List.foldl_cons, List.foldl_cons]
    refine ih ?_
    rw [MeterData.get_set, MeterData.get_set]
    by_cases ha : a.1 = f
    · exact Or.inl (by rw [if_pos ha, if_pos ha])
    · rw [if_neg ha, if_neg ha]
      rcases h with h | ⟨v, hv⟩
      · exact Or.inl h
      · rcases List.mem_cons.mp hv with rfl | hv
        · exact absurd rfl ha
        · exact Or.inr ⟨v, hv⟩

/-! ### Calls -/

section Call

variable {fpu : Fpu} {bus : Bus} {index slave : UInt8} {mdt : UInt32} {adj : Vector UInt32 10}

theorem runTransactions_cons (h : index.toNat < MAXMETER) {k : Nat} {t : Transaction}
    {ts : List Transaction} (hok : (t.answer bus slave k).1 = 0) (md : Meters) :
    runTransactions fpu bus index slave mdt adj k (t :: ts) md =
      runTransactions fpu bus index slave mdt adj (k + 1) ts (md.set index.toNat
        (t.assign.foldl (fun d a => d.set (a.2 fpu (t.answer bus slave k).2 adj) a.1)
          md[index.toNat])) := by
  rw [Transaction.answer] at hok
  rw [runTransactions]
  simp only [hok, ne_eq, not_true_eq_false, if_false, Vector.getElem?_eq_getElem h,
    Option.bind_eq_bind, Option.bind_some, putAt_some _ h]
  rfl

/-- **A call that fails leaves the time alone.** -/
theorem runTransactions_mdt (h : index.toNat < MAXMETER) {k : Nat} {ts : List Transaction}
    {md md' : Meters} {r : UInt8} (hr : r ≠ 0)
    (hrun : runTransactions fpu bus index slave mdt adj k ts md = some (r, md')) :
    md'[index.toNat].mdt = md[index.toNat].mdt := by
  induction ts generalizing k md with
  | nil =>
    rw [runTransactions, Vector.getElem?_eq_getElem h, Option.bind_eq_bind, Option.bind_some,
      putAt_some _ h] at hrun
    cases hrun
    exact absurd rfl hr
  | cons t ts ih =>
    by_cases hok : (t.answer bus slave k).1 = 0
    · rw [runTransactions_cons h hok] at hrun
      rw [ih hrun, Vector.getElem_set_self,
        assign_mdt (fun v => v fpu (t.answer bus slave k).2 adj)]
    · rw [Transaction.answer] at hok
      rw [runTransactions] at hrun
      simp only [ne_eq, hok, not_false_eq_true, if_true] at hrun
      cases hrun
      rfl

/-- **What is assigned does not depend on what was there**: two calls of the same
transactions leave the same in every field that one of these assigns. -/
theorem runTransactions_agree (h : index.toNat < MAXMETER) {k : Nat} {ts : List Transaction}
    {md md₂ md' md₂' : Meters} {f : MeterField}
    (hf : md[index.toNat].get f = md₂[index.toNat].get f ∨ ∃ t ∈ ts, ∃ v, (f, v) ∈ t.assign)
    (hrun : runTransactions fpu bus index slave mdt adj k ts md = some (0, md'))
    (hrun₂ : runTransactions fpu bus index slave mdt adj k ts md₂ = some (0, md₂')) :
    md'[index.toNat].get f = md₂'[index.toNat].get f := by
  induction ts generalizing k md md₂ with
  | nil =>
    rw [runTransactions, Vector.getElem?_eq_getElem h, Option.bind_eq_bind, Option.bind_some,
      putAt_some _ h] at hrun hrun₂
    cases hrun
    cases hrun₂
    rw [Vector.getElem_set_self, Vector.getElem_set_self]
    rcases hf with hf | ⟨t, ht, _⟩
    · cases f <;> exact hf
    · cases ht
  | cons t ts ih =>
    by_cases hok : (t.answer bus slave k).1 = 0
    · rw [runTransactions_cons h hok] at hrun hrun₂
      refine ih ?_ hrun hrun₂
      rw [Vector.getElem_set_self, Vector.getElem_set_self]
      have hagree := assign_agree (fun v => v fpu (t.answer bus slave k).2 adj) t.assign
        (d := md[index.toNat]) (e := md₂[index.toNat]) (f := f)
      rcases hf with hf | ⟨t', ht', v, hv⟩
      · exact Or.inl (hagree (Or.inl hf))
      · rcases List.mem_cons.mp ht' with rfl | ht'
        · exact Or.inl (hagree (Or.inr ⟨v, hv⟩))
        · exact Or.inr ⟨t', ht', v, hv⟩
    · rw [Transaction.answer] at hok
      rw [runTransactions] at hrun
      simp only [ne_eq, hok, not_false_eq_true, if_true] at hrun
      exact absurd (Prod.mk.inj (Option.some.inj hrun)).1 hok

end Call

/-! ### Readings -/

/-- The call for entry `i`, as the loop of `ReadMeterToFlash_Task` makes it. -/
def readMeter (p : Pass) (i : Fin MAXMETER) (m : ConfigMeter) (md : Meters) :
    Option (UInt8 × Meters) :=
  readMeterData p.fpu (p.bus i) md (UInt8.ofNat i) m.id m.index m.type p.now m.adjust m.table

/-- 0 says that the entry is of this call alone: its time is the call's, each
measurement is computed from a transaction of the call (or 0, for a phase the
type does not have), and the same comes out whatever the table held before.  A
transaction that fails makes the code another one, and leaves the time. -/
structure FreshReading (p : Pass) (i : Fin MAXMETER) (m : ConfigMeter) (md : Meters) : Prop where
  good : ∀ md', readMeter p i m md = some (0, md') → WholeMeter p i m md'[i] ∧
    ∀ md₂, ∃ md₂', readMeter p i m md₂ = some (0, md₂') ∧ md₂'[i] = md'[i]
  bad : ¬ MeterAnswers p i m →
    ∃ r md', readMeter p i m md = some (r, md') ∧ r ≠ 0 ∧ md'[i].mdt = md[i].mdt

theorem index_toNat (i : Fin MAXMETER) : (UInt8.ofNat i).toNat = i := by
  rw [UInt8.toNat_ofNat', Nat.mod_eq_of_lt (Nat.lt_trans i.isLt (by decide))]

theorem transactions_of_not_supported {type : UInt8} (h : ¬ Supported type) (slaveIndex : UInt8)
    (mt : Vector UInt16 11) : transactions slaveIndex type mt = [] := by
  unfold transactions
  split
  case h_8 => rfl
  all_goals exact absurd (by decide) h

theorem readMeter_eq {m : ConfigMeter} (hm : Supported m.type) (p : Pass) (i : Fin MAXMETER)
    (md : Meters) :
    readMeter p i m md = runTransactions p.fpu (p.bus i) (UInt8.ofNat i) m.id p.now m.adjust 0
      (transactions m.index m.type m.table) md := by
  obtain ⟨t, ht, _⟩ := transactions_assign hm m.index m.table .watt
  rw [readMeter, readMeterData]
  split
  · rename_i hnil
    rw [hnil] at ht
    cases ht
  · rename_i hcons
    rw [hcons]

/-- **A reading is fresh for the seven types, and for no other.** -/
theorem freshReading_iff (p : Pass) (i : Fin MAXMETER) (m : ConfigMeter) (md : Meters) :
    FreshReading p i m md ↔ Supported m.type := by
  constructor
  · intro h
    by_contra hm
    have hnone := transactions_of_not_supported hm m.index m.table
    have hread : readMeter p i m md = some (0, md) := by
      rw [readMeter, readMeterData, hnone]
    -- no transaction has computed a field
    obtain ⟨j, t, v, hj, _⟩ := (h.good md hread).1.field .watt (fun hph => absurd hph.2 (by decide))
    rw [hnone] at hj
    cases hj
  · intro hm
    have hspec := readMeterData_spec hm p i.isLt
    refine ⟨fun md' hread => ?_, fun hans => ?_⟩
    · obtain ⟨r, md'', hrun, _, hr, hwhole⟩ := hspec md
      obtain ⟨rfl, rfl⟩ := Prod.mk.inj (Option.some.inj (hread.symm.trans hrun))
      refine ⟨hwhole rfl, fun md₂ => ?_⟩
      obtain ⟨r₂, md₂', hrun₂, _, hr₂, hwhole₂⟩ := hspec md₂
      obtain rfl : r₂ = 0 := hr₂.mpr (hr.mp rfl)
      refine ⟨md₂', hrun₂, MeterData.eq_of_get ?_ (fun f => ?_)⟩
      · exact (hwhole₂ rfl).mdt.trans (hwhole rfl).mdt.symm
      · have hcall := readMeter_eq hm p i
        have hagree := runTransactions_agree (by rw [index_toNat]; exact i.isLt)
          (Or.inr (transactions_assign hm m.index m.table f)) ((hcall md₂).symm.trans hrun₂)
          ((hcall md).symm.trans hread)
        simp only [index_toNat] at hagree
        exact hagree
    · obtain ⟨r, md', hrun, _, hr, _⟩ := hspec md
      have hbad : r ≠ 0 := fun h0 => hans (hr.mp h0)
      have htime := runTransactions_mdt (by rw [index_toNat]; exact i.isLt) hbad
        ((readMeter_eq hm p i md).symm.trans hrun)
      simp only [index_toNat] at htime
      exact ⟨r, md', hrun, hbad, htime⟩

/-- A meter whose type is not given in the configuration. -/
def untyped : ConfigMeter := ⟨1, 7, 0, 0, .replicate _ 0, .replicate _ 0⟩

/-- At time 60 on a bus that answers. -/
def passAt60 : Pass := ⟨60, .null, fun _ => .zeros, .healthy⟩

def firstEntry : Fin MAXMETER := ⟨0, Nat.zero_lt_succ 20⟩

/-- Its reading is good, and the entry is what it was, the time 0 included. -/
theorem not_freshReading :
    readMeter passAt60 firstEntry untyped (.replicate _ {}) = some (0, .replicate _ {}) ∧
      ¬ FreshReading passAt60 firstEntry untyped (.replicate _ {}) := by
  have hread : readMeter passAt60 firstEntry untyped (.replicate _ {}) = some (0, .replicate _ {}) := rfl
  refine ⟨hread, fun h => ?_⟩
  have htime := (h.good _ hread).1.mdt
  rw [Fin.getElem_fin, Vector.getElem_replicate] at htime
  exact absurd htime (by decide)

end EnresLogger
