import Mathlib.Data.List.Range
import Mathlib.Tactic.Common

/-!
# Loops over a counter that wraps

`for (i = 0; i <= bound; i++)` with a counter that has `m` values.  `counts`
lists the values the body sees, for as many rounds as it is given, and says
whether the loop has come to its end by then.

Below `m - 1` such a loop is the loop over `0`, .., `bound` (`counts_range`).
From there on the test never fails, and the loop has no end: `ends_iff`.
-/

namespace EnresLogger.Lib

def counts (m bound : Nat) : Nat → Nat → List Nat × Bool
  | 0, _ => ([], false)
  | fuel + 1, i =>
      if i ≤ bound then
        let r := counts m bound fuel ((i + 1) % m)
        (i :: r.1, r.2)
      else ([], true)

variable {m bound : Nat}

theorem counts_succ {i : Nat} (fuel : Nat) (h : i ≤ bound) :
    counts m bound (fuel + 1) i =
      (i :: (counts m bound fuel ((i + 1) % m)).1, (counts m bound fuel ((i + 1) % m)).2) :=
  if_pos h

theorem counts_le (fuel : Nat) {i k : Nat} (hi : i < m) (hk : k ∈ (counts m bound fuel i).1) :
    k ≤ bound ∧ k < m := by
  induction fuel generalizing i with
  | zero => cases hk
  | succ fuel ih =>
    by_cases h : i ≤ bound
    · rw [counts_succ fuel h] at hk
      rcases List.mem_cons.mp hk with rfl | hk
      · exact ⟨h, hi⟩
      · exact ih (Nat.mod_lt _ (by omega)) hk
    · rw [counts, if_neg h] at hk
      cases hk

/-- The loop from `i` on, when `n` rounds are left and the counter can hold the
value that ends it. -/
theorem counts_range' (hm : bound + 1 < m) (n : Nat) {i : Nat} (hn : i + n = bound + 1) :
    counts m bound (n + 1) i = (List.range' i n, true) := by
  induction n generalizing i with
  | zero =>
    rw [counts, if_neg (by omega)]
    rfl
  | succ n ih =>
    rw [counts_succ (n + 1) (by omega), Nat.mod_eq_of_lt (by omega), ih (by omega)]
    rfl

theorem counts_range (hm : bound + 1 < m) :
    counts m bound (bound + 2) 0 = (List.range (bound + 1), true) := by
  rw [List.range_eq_range']
  exact counts_range' hm (bound + 1) (Nat.zero_add _)

theorem mem_counts {k : Nat} (hk : k ≤ bound) (hkm : k < m) :
    k ∈ (counts m bound (k + 1) 0).1 := by
  have hall : ∀ (d i : Nat), i + d = k → k ∈ (counts m bound (d + 1) i).1 := by
    intro d
    induction d with
    | zero =>
      intro i hi
      rw [counts_succ 0 (by omega), ← hi]
      exact List.mem_cons_self
    | succ d ih =>
      intro i hi
      rw [counts_succ (d + 1) (by omega), Nat.mod_eq_of_lt (by omega)]
      exact List.mem_cons_of_mem i (ih (i + 1) (by omega))
  exact hall k 0 (Nat.zero_add k)

/-- A test that no value of the counter fails. -/
theorem counts_forever (hm : m ≤ bound + 1) (fuel : Nat) {i : Nat} (hi : i < m) :
    (counts m bound fuel i).2 = false := by
  induction fuel generalizing i with
  | zero => rfl
  | succ fuel ih =>
    rw [counts_succ fuel (by omega)]
    exact ih (Nat.mod_lt _ (by omega))

/-- **The loop ends** if and only if the counter can hold the value behind the
bound. -/
theorem ends_iff (h0 : 0 < m) :
    (∃ fuel, (counts m bound fuel 0).2 = true) ↔ bound + 1 < m := by
  constructor
  · rintro ⟨fuel, hend⟩
    by_contra hm
    rw [counts_forever (by omega) fuel h0] at hend
    cases hend
  · intro hm
    exact ⟨bound + 2, by rw [counts_range hm]⟩

end EnresLogger.Lib
