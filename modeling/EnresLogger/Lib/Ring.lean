import Mathlib.Data.List.Basic
import Mathlib.Tactic.Common

/-!
# Logs on a ring

A log writes its `k`-th entry at location `k % N` of a ring of `N` cells, with
an index that runs on and never goes back.  Writing ahead destroys: a step that
writes at `next` may disturb every location of the window from `next` up to a
mark `hi`, as a device does that erases whole sectors before it programs one
entry.

`RingLog.Retains` is what such a log promises: an entry whose index is at most
`N` behind the furthest mark ever reached is still there.  `Retains.step` keeps
it over one step, whatever the step did inside its window.

The rest is arithmetic of sectors: `ceilTo S w` is the first multiple of `S`
from `w` on.
-/

namespace EnresLogger.Lib

/-! ### Locations -/

/-- Two indices less than a lap apart have different locations. -/
theorem ring_ne {N i j : Nat} (h1 : i < j) (h2 : j < i + N) : i % N ≠ j % N := by
  intro h
  have hd : (j - i) % N = 0 := Nat.sub_mod_eq_zero_of_mod_eq h.symm
  rw [Nat.mod_eq_of_lt (by omega)] at hd
  omega

theorem ring_add {N i k : Nat} (h : i % N + k < N) : (i + k) % N = i % N + k := by
  rw [← Nat.mod_add_mod, Nat.mod_eq_of_lt h]

theorem ring_add_wrap {N i k : Nat} (h1 : N ≤ i % N + k) (h2 : i % N + k < 2 * N) :
    (i + k) % N = i % N + k - N := by
  rw [← Nat.mod_add_mod, Nat.mod_eq_sub_mod h1, Nat.mod_eq_of_lt (by omega)]

/-! ### Sectors -/

/-- The first multiple of `S` from `w` on. -/
def ceilTo (S w : Nat) : Nat := (w + (S - 1)) / S * S

theorem le_ceilTo {S : Nat} (hS : 0 < S) (w : Nat) : w ≤ ceilTo S w := by
  have h := Nat.div_add_mod (w + (S - 1)) S
  have := Nat.mod_lt (w + (S - 1)) hS
  rw [ceilTo, Nat.mul_comm]
  omega

theorem ceilTo_lt {S : Nat} (hS : 0 < S) (w : Nat) : ceilTo S w < w + S := by
  have h := Nat.div_add_mod (w + (S - 1)) S
  rw [ceilTo, Nat.mul_comm]
  omega

theorem dvd_ceilTo (S w : Nat) : S ∣ ceilTo S w := ⟨_, Nat.mul_comm _ _⟩

theorem ceilTo_mono {S v w : Nat} (h : v ≤ w) : ceilTo S v ≤ ceilTo S w :=
  Nat.mul_le_mul_right S (Nat.div_le_div_right (by omega))

/-- A multiple of `S` from `w` on is not before `ceilTo S w`. -/
theorem ceilTo_le {S w x : Nat} (hS : 0 < S) (hx : S ∣ x) (h : w ≤ x) : ceilTo S w ≤ x := by
  obtain ⟨c, rfl⟩ := hx
  rw [ceilTo, Nat.mul_comm]
  refine Nat.mul_le_mul_left S ?_
  rw [← Nat.lt_succ_iff, Nat.div_lt_iff_lt_mul hS, Nat.succ_mul, Nat.mul_comm c S]
  omega

theorem ceilTo_of_dvd {S w : Nat} (hS : 0 < S) (h : S ∣ w) : ceilTo S w = w :=
  Nat.le_antisymm (ceilTo_le hS h (Nat.le_refl w)) (le_ceilTo hS w)

/-! ### Retention -/

/-- A log on a ring: the cells by location, the next index to write, the
furthest index any step has disturbed, and what was last entered under each
index. -/
structure RingLog (α : Type*) where
  cells : Nat → α
  next : Nat
  hi : Nat
  hist : Nat → Option α

namespace RingLog

variable {α : Type*} {N : Nat} {s s' : RingLog α}

/-- One step may disturb the window from `next` to the new `hi`, and enters
only what it leaves readable. -/
structure Step (N : Nat) (s s' : RingLog α) : Prop where
  next_le : s.next ≤ s'.next
  hi_le : s.hi ≤ s'.hi
  frame : ∀ p, (∀ j, s.next ≤ j → j < s'.hi → j % N ≠ p) → s'.cells p = s.cells p
  entered : ∀ k x, s'.hist k = some x →
    (k < s.next ∧ s.hist k = some x) ∨
      (s.next ≤ k ∧ k < s'.next ∧ s'.cells (k % N) = x)

/-- Every entry that no window has come round to is still in its cell. -/
def Retains (N : Nat) (s : RingLog α) : Prop :=
  ∀ k x, s.hist k = some x → k < s.next ∧ (s.hi ≤ k + N → s.cells (k % N) = x)

theorem retains_of_empty (h : ∀ k, s.hist k = none) : s.Retains N := by
  intro k x hk
  rw [h k] at hk
  cases hk

theorem Retains.step (h : s.Retains N) (hs : s.Step N s') : s'.Retains N := by
  intro k x hk
  rcases hs.entered k x hk with ⟨hlt, hold⟩ | ⟨_, hlt, hnew⟩
  · obtain ⟨_, hcell⟩ := h k x hold
    have hnext := hs.next_le
    refine ⟨by omega, fun hhi => ?_⟩
    have hle := hs.hi_le
    rw [hs.frame (k % N) (fun j h1 h2 => (ring_ne (by omega) (by omega)).symm)]
    exact hcell (by omega)
  · exact ⟨hlt, fun _ => hnew⟩

end RingLog

end EnresLogger.Lib
