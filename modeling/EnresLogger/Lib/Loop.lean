import Mathlib.Data.List.Basic
import Mathlib.Tactic.Common

/-!
# Checked loops and tables

`forLoop n f` runs `f 0`, .., `f (n - 1)` on a state and stops at the first
access that fails.  `forLoop_spec` is its invariant rule and `forLoop_none` the
rule for a loop that must fail.

A table is a `Vector`; reading is `t[i]?`, and `putAt` writes when there is such
an entry.
-/

namespace EnresLogger.Lib

variable {α σ : Type*} {n : Nat}

/-! ### Loops -/

def forLoop (n : Nat) (f : Nat → σ → Option σ) (s : σ) : Option σ :=
  (List.range n).foldlM (fun s i => f i s) s

@[simp] theorem forLoop_zero (f : Nat → σ → Option σ) (s : σ) : forLoop 0 f s = some s := rfl

theorem forLoop_succ (n : Nat) (f : Nat → σ → Option σ) (s : σ) :
    forLoop (n + 1) f s = (forLoop n f s).bind (f n) := by
  rw [forLoop, List.range_succ, List.foldlM_append, ← forLoop]
  cases forLoop n f s with
  | none => rfl
  | some s' => simp

/-- **The invariant rule**: a loop whose body keeps the invariant and never
fails ends with the invariant. -/
theorem forLoop_spec {f : Nat → σ → Option σ} {s : σ} (P : Nat → σ → Prop) (h0 : P 0 s)
    (hstep : ∀ i s, i < n → P i s → ∃ s', f i s = some s' ∧ P (i + 1) s') :
    ∃ s', forLoop n f s = some s' ∧ P n s' := by
  induction n with
  | zero => exact ⟨s, rfl, h0⟩
  | succ n ih =>
    obtain ⟨s1, h1, hP1⟩ := ih (fun i s hi => hstep i s (by omega))
    obtain ⟨s2, h2, hP2⟩ := hstep n s1 (by omega) hP1
    exact ⟨s2, by rw [forLoop_succ, h1, Option.bind_some, h2], hP2⟩

/-- The same rule for a loop over a list. -/
theorem foldlM_spec {α : Type*} {f : σ → α → Option σ} {P : σ → Prop} {l : List α}
    (hstep : ∀ a ∈ l, ∀ s, P s → ∃ s', f s a = some s' ∧ P s') {s : σ} (h : P s) :
    ∃ s', l.foldlM f s = some s' ∧ P s' := by
  induction l generalizing s with
  | nil => exact ⟨s, rfl, h⟩
  | cons a l ih =>
    obtain ⟨s1, h1, hP1⟩ := hstep a List.mem_cons_self s h
    obtain ⟨s2, h2, hP2⟩ := ih (fun b hb => hstep b (List.mem_cons_of_mem _ hb)) hP1
    exact ⟨s2, by rw [List.foldlM_cons, h1]; exact h2, hP2⟩

theorem forLoop_none {f : Nat → σ → Option σ} {s : σ} {k : Nat} (hk : k < n)
    (hf : ∀ s, f k s = none) : forLoop n f s = none := by
  induction n with
  | zero => omega
  | succ n ih =>
    rw [forLoop_succ]
    rcases Nat.lt_or_eq_of_le (Nat.le_of_lt_succ hk) with hlt | rfl
    · rw [ih hlt, Option.bind_none]
    · cases forLoop k f s with
      | none => rfl
      | some s' => exact hf s'

/-! ### Tables -/

def putAt (t : Vector α n) (i : Nat) (x : α) : Option (Vector α n) :=
  if h : i < n then some (t.set i x h) else none

theorem putAt_some {t : Vector α n} {i : Nat} (x : α) (h : i < n) :
    putAt t i x = some (t.set i x h) := dif_pos h

theorem putAt_none {t : Vector α n} {i : Nat} (x : α) (h : n ≤ i) : putAt t i x = none :=
  dif_neg (Nat.not_lt.mpr h)

theorem forLoop_putAt_isSome (t : Vector α n) (k : Nat) (f : Nat → α) :
    (forLoop k (fun i t => putAt t i (f i)) t).isSome = true ↔ k ≤ n := by
  constructor
  · intro h
    by_contra hk
    rw [forLoop_none (k := n) (by omega) (fun t => putAt_none _ (Nat.le_refl n))] at h
    cases h
  · intro hk
    obtain ⟨t', ht', _⟩ := forLoop_spec (n := k) (s := t) (fun _ _ => True) trivial
      (fun i t hi _ => ⟨_, putAt_some (f i) (Nat.lt_of_lt_of_le hi hk), trivial⟩)
    rw [ht']
    rfl

end EnresLogger.Lib
