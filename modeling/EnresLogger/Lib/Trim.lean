import Mathlib.Algebra.BigOperators.Group.List.Basic
import Mathlib.Algebra.Order.BigOperators.Group.List
import Mathlib.Algebra.Order.Ring.Nat
import Mathlib.Data.List.Sort
import Mathlib.Tactic.Common

/-!
# The first elements of a stream

`least r k l` are the first `k` elements of `l` in the order `r`.  A program that
sees the elements one after the other need not sort: it keeps `k` of them, and
puts each new one in its place among these (`keep`).  `foldl_keep` says that this
comes to the same, and `foldl_keep_replicate` that it may begin with `k` copies
of a bound of the elements, also when that bound is one of them.

`trim k l` is what is left of the sorted list without the first and the last `k`
elements.  `sum_trim` adds the three parts up again, and `trim_mean` bounds the
mean of what is left.
-/

namespace EnresLogger.Lib

open List

/-! ### Keeping the first elements -/

section Keep

variable {α : Type*} (r : α → α → Prop) [DecidableRel r] {k n : Nat} {l l' : List α}

/-- The first `k` elements in the order. -/
def least (k : Nat) (l : List α) : List α := (l.insertionSort r).take k

/-- One more element, where `k` are kept. -/
def keep (k : Nat) (t : List α) (x : α) : List α := (t.orderedInsert r x).take k

/-- What comes behind the first `k` does not matter to them. -/
theorem take_orderedInsert (k : Nat) (x : α) (l : List α) :
    (l.orderedInsert r x).take k = keep r k (l.take k) x := by
  rw [keep]
  induction l generalizing k with
  | nil => rw [take_nil]
  | cons b l ih =>
    cases k with
    | zero => rfl
    | succ k =>
      rw [take_succ_cons, orderedInsert_cons, orderedInsert_cons]
      by_cases h : r x b
      · rw [if_pos h, if_pos h, take_succ_cons, take_succ_cons]
        cases k with
        | zero => rfl
        | succ k => rw [take_succ_cons, take_succ_cons, take_take, Nat.min_eq_left (by omega)]
      · rw [if_neg h, if_neg h, take_succ_cons, take_succ_cons, ih]

theorem least_cons (k : Nat) (x : α) (l : List α) :
    least r k (x :: l) = keep r k (least r k l) x := by
  rw [least, insertionSort_cons, take_orderedInsert, least]

variable [Std.Total r] [IsTrans α r]

theorem keep_pairwise {t : List α} (h : t.Pairwise r) (k : Nat) (x : α) :
    (keep r k t x).Pairwise r :=
  (h.orderedInsert x t).sublist (take_sublist k _)

variable [Std.Antisymm r]

theorem keep_three {a b c : α} (hab : r a b) (hbc : r b c) (x : α) :
    keep r 3 [a, b, c] x =
      if r c x then [a, b, c]
      else if r b x then [a, b, x]
      else if r a x then [a, x, b]
      else [x, a, b] := by
  have htotal : ∀ u v, r u v ∨ r v u := total_of r
  have htrans : ∀ u v w, r u v → r v w → r u w := fun _ _ _ => trans_of r
  have hanti : ∀ u v, r u v → r v u → u = v := fun _ _ => antisymm_of r
  rw [keep, orderedInsert_cons, orderedInsert_cons, orderedInsert_cons, orderedInsert_nil]
  by_cases hax : r a x
  · by_cases hbx : r b x
    · grind
    · grind
  · grind

theorem insertionSort_of_perm (h : l ~ l') : l.insertionSort r = l'.insertionSort r :=
  Perm.eq_of_pairwise' (pairwise_insertionSort r l) (pairwise_insertionSort r l')
    (((perm_insertionSort r l).trans h).trans (perm_insertionSort r l').symm)

/-- **Keeping comes to the same as sorting.** -/
theorem foldl_keep (l t : List α) : l.foldl (keep r k) (least r k t) = least r k (l ++ t) := by
  induction l generalizing t with
  | nil => rfl
  | cons x l ih =>
    rw [foldl_cons, ← least_cons, ih, least, least, insertionSort_of_perm r perm_middle,
      cons_append]

theorem least_append_replicate {top : α} (htop : ∀ x ∈ l, r x top) (hk : k ≤ l.length) :
    least r k (l ++ replicate n top) = least r k l := by
  have hrefl : r top top := (total_of r top top).elim id id
  have hsort : (l ++ replicate n top).insertionSort r =
      l.insertionSort r ++ replicate n top := by
    refine Perm.eq_of_pairwise' (pairwise_insertionSort r _) ?_
      ((perm_insertionSort r _).trans ((perm_insertionSort r l).symm.append_right _))
    rw [pairwise_append]
    refine ⟨pairwise_insertionSort r l, pairwise_replicate.mpr (Or.inr hrefl), fun a ha b hb => ?_⟩
    rw [eq_of_mem_replicate hb]
    exact htop a ((mem_insertionSort r).mp ha)
  rw [least, hsort, take_append_of_le_length (by rw [length_insertionSort]; exact hk), least]

/-- **A bound will do to begin with.** -/
theorem foldl_keep_replicate {top : α} (htop : ∀ x ∈ l, r x top) (hk : k ≤ l.length) :
    l.foldl (keep r k) (replicate k top) = least r k l := by
  have hrefl : r top top := (total_of r top top).elim id id
  have hstart : least r k (replicate k top) = replicate k top := by
    rw [least, (pairwise_replicate.mpr (Or.inr hrefl)).insertionSort_eq, take_replicate,
      Nat.min_self]
  rw [← least_append_replicate r (n := k) htop hk, ← foldl_keep, hstart]

end Keep

/-! ### What is left between them -/

section Trim

variable {α : Type*} [LinearOrder α] {k : Nat} {l : List α}

/-- The sorted list without its first and its last `k` elements. -/
def trim (k : Nat) (l : List α) : List α :=
  ((l.insertionSort (· ≤ ·)).drop k).take (l.length - 2 * k)

theorem trim_length (h : 2 * k ≤ l.length) : (trim k l).length = l.length - 2 * k := by
  rw [trim, length_take, length_drop, length_insertionSort]
  omega

theorem insertionSort_ge (l : List α) :
    l.insertionSort (· ≥ ·) = (l.insertionSort (· ≤ ·)).reverse := by
  refine Perm.eq_of_pairwise' (r := (· ≥ ·)) (pairwise_insertionSort _ l) ?_
    ((perm_insertionSort _ l).trans
      ((reverse_perm _).trans (perm_insertionSort _ l)).symm)
  exact pairwise_reverse.mpr (pairwise_insertionSort (· ≤ ·) l)

/-- **The three parts of a list.** -/
theorem sum_trim {M : Type*} [LinearOrder M] [AddCommMonoid M] {l : List M}
    (h : 2 * k ≤ l.length) :
    (least (· ≤ ·) k l).sum + ((trim k l).sum + (least (· ≥ ·) k l).sum) = l.sum := by
  have hlen := length_insertionSort (· ≤ ·) l
  have hlast : (least (· ≥ ·) k l).sum =
      (((l.insertionSort (· ≤ ·)).drop k).drop (l.length - 2 * k)).sum := by
    rw [least, insertionSort_ge, take_reverse, sum_reverse, drop_drop, hlen]
    congr 2
    omega
  rw [hlast, trim, sum_take_add_sum_drop, least, sum_take_add_sum_drop]
  exact (perm_insertionSort _ l).sum_eq

theorem le_of_sorted {s : List α} (hs : s.Pairwise (· ≤ ·)) {i j : Nat} (hij : i ≤ j) {a b : α}
    (ha : s[i]? = some a) (hb : s[j]? = some b) : a ≤ b := by
  obtain ⟨hi, rfl⟩ := List.getElem?_eq_some_iff.mp ha
  obtain ⟨hj, rfl⟩ := List.getElem?_eq_some_iff.mp hb
  rcases Nat.lt_or_eq_of_le hij with hlt | rfl
  · exact pairwise_iff_getElem.mp hs i j hi hj hlt
  · exact le_refl _

/-- What is left lies between the elements that come next on both sides. -/
theorem mem_trim {x a b : α} (hx : x ∈ trim k l) (ha : (l.insertionSort (· ≤ ·))[k]? = some a)
    (hb : (l.insertionSort (· ≤ ·))[l.length - k - 1]? = some b) : a ≤ x ∧ x ≤ b := by
  have hsort := pairwise_insertionSort (· ≤ ·) l
  obtain ⟨i, hi⟩ := getElem?_of_mem hx
  rw [trim, getElem?_take] at hi
  split at hi
  · rw [getElem?_drop] at hi
    exact ⟨le_of_sorted hsort (by omega) ha hi, le_of_sorted hsort (by omega) hi hb⟩
  · cases hi

end Trim

/-! ### Means -/

section Mean

variable {l : List Nat} {a b : Nat}

theorem le_mean (h : l ≠ []) (ha : ∀ x ∈ l, a ≤ x) : a ≤ l.sum / l.length := by
  rw [Nat.le_div_iff_mul_le (length_pos_iff.mpr h), Nat.mul_comm]
  exact card_nsmul_le_sum l a ha

theorem mean_le (hb : ∀ x ∈ l, x ≤ b) : l.sum / l.length ≤ b := by
  refine Nat.div_le_of_le_mul ?_
  exact sum_le_card_nsmul l b hb

/-- **The trimmed mean** lies between the elements next to those left out. -/
theorem trim_mean {k : Nat} (h : 2 * k < l.length) :
    ∃ a b, (l.insertionSort (· ≤ ·))[k]? = some a ∧
      (l.insertionSort (· ≤ ·))[l.length - k - 1]? = some b ∧ b ∈ l ∧
      a ≤ (trim k l).sum / (l.length - 2 * k) ∧ (trim k l).sum / (l.length - 2 * k) ≤ b := by
  have hsorted := length_insertionSort (· ≤ ·) l
  have htrim := trim_length (k := k) (l := l) (by omega)
  obtain ⟨a, ha⟩ : ∃ a, (l.insertionSort (· ≤ ·))[k]? = some a :=
    ⟨_, getElem?_eq_getElem (by omega)⟩
  obtain ⟨b, hb⟩ : ∃ b, (l.insertionSort (· ≤ ·))[l.length - k - 1]? = some b :=
    ⟨_, getElem?_eq_getElem (by omega)⟩
  have hlow := le_mean (l := trim k l) (ne_nil_of_length_pos (by omega))
    (fun x hx => (mem_trim hx ha hb).1)
  have hhigh := mean_le (l := trim k l) (fun x hx => (mem_trim hx ha hb).2)
  rw [htrim] at hlow hhigh
  exact ⟨a, b, ha, hb, (mem_insertionSort _).mp (mem_of_getElem? hb), hlow, hhigh⟩

end Mean

end EnresLogger.Lib
