import Mathlib.Data.List.Basic
import Mathlib.Tactic.Common

/-!
# Reflected checksums

A cyclic redundancy check that shifts to the right: a register of `w` bits, a
polynomial `p` that is added whenever a 1 falls out, eight steps for a byte.

Two facts carry everything.  `steps_xor`: the steps are linear.
`steps_injective`: no information is lost, if the top bit of `p` is set, since
this bit then tells whether `p` was added.

`checksum_two_injective` puts them together: the register behind two bytes
determines both, since they enter as one word of 16 bits.  So two messages that
differ, but only in two adjacent bytes, leave different registers, however many
bytes follow: `checksum_burst`.
-/

namespace EnresLogger.Lib

namespace Crc

variable {w : Nat} (p : BitVec w)

def step (c : BitVec w) : BitVec w := if c.getLsbD 0 then (c >>> 1) ^^^ p else c >>> 1

def steps : Nat → BitVec w → BitVec w
  | 0, c => c
  | k + 1, c => steps k (step p c)

/-- A byte enters at the low end. -/
def update (c : BitVec w) (b : UInt8) : BitVec w := steps p 8 (c ^^^ b.toBitVec.setWidth w)

def checksum (c : BitVec w) (bs : List UInt8) : BitVec w := bs.foldl (update p) c

@[simp] theorem steps_zero (c : BitVec w) : steps p 0 c = c := rfl

theorem steps_succ (k : Nat) (c : BitVec w) : steps p (k + 1) c = steps p k (step p c) := rfl

theorem steps_add (j k : Nat) (c : BitVec w) : steps p (j + k) c = steps p k (steps p j c) := by
  induction j generalizing c with
  | zero => rw [Nat.zero_add, steps_zero]
  | succ j ih => rw [Nat.succ_add, steps_succ, steps_succ, ih]

theorem checksum_cons (c : BitVec w) (b : UInt8) (bs : List UInt8) :
    checksum p c (b :: bs) = checksum p (update p c b) bs := rfl

theorem checksum_append (c : BitVec w) (bs cs : List UInt8) :
    checksum p c (bs ++ cs) = checksum p (checksum p c bs) cs := List.foldl_append

/-! ### Linear -/

theorem step_xor (c d : BitVec w) : step p (c ^^^ d) = step p c ^^^ step p d := by
  simp only [step, BitVec.getLsbD_xor, BitVec.ushiftRight_xor_distrib]
  cases c.getLsbD 0 <;> cases d.getLsbD 0
  · rfl
  · exact BitVec.xor_assoc _ _ _
  · show c >>> 1 ^^^ d >>> 1 ^^^ p = c >>> 1 ^^^ p ^^^ d >>> 1
    rw [BitVec.xor_assoc, BitVec.xor_comm (d >>> 1), ← BitVec.xor_assoc]
  · -- `p` is added twice
    show c >>> 1 ^^^ d >>> 1 = c >>> 1 ^^^ p ^^^ (d >>> 1 ^^^ p)
    rw [BitVec.xor_comm (d >>> 1) p, BitVec.xor_assoc, ← BitVec.xor_assoc p, BitVec.xor_self,
      BitVec.zero_xor]

theorem steps_xor (k : Nat) (c d : BitVec w) :
    steps p k (c ^^^ d) = steps p k c ^^^ steps p k d := by
  induction k generalizing c d with
  | zero => rfl
  | succ k ih => rw [steps_succ, step_xor, ih, ← steps_succ, ← steps_succ]

/-- Zeros that fall out add nothing. -/
theorem steps_of_low (k : Nat) {c : BitVec w} (h : ∀ i < k, c.getLsbD i = false) :
    steps p k c = c >>> k := by
  induction k generalizing c with
  | zero => rw [steps_zero, BitVec.ushiftRight_zero]
  | succ k ih =>
    have hstep : step p c = c >>> 1 := by
      rw [step, h 0 (Nat.succ_pos k), if_neg Bool.false_ne_true]
    rw [steps_succ, hstep, ih, ← BitVec.shiftRight_add, Nat.add_comm]
    intro i hi
    rw [BitVec.getLsbD_ushiftRight]
    exact h (1 + i) (by omega)

@[simp] theorem steps_of_zero (k : Nat) : steps p k 0#w = 0#w := by
  rw [steps_of_low p k (fun _ _ => BitVec.getLsbD_zero), BitVec.zero_ushiftRight]

/-! ### Nothing is lost -/

theorem step_injective (hp : p.msb = true) {c d : BitVec w} (h : step p c = step p d) :
    c = d := by
  have hmsb : ∀ c : BitVec w, (step p c).msb = c.getLsbD 0 := by
    intro c
    have hshift : (c >>> 1).msb = false := by simp [BitVec.msb_ushiftRight]
    rw [step]
    split
    · rename_i hbit
      rw [BitVec.msb_xor, hshift, hp, hbit]
      rfl
    · rename_i hbit
      rw [hshift, Bool.eq_false_iff.mpr hbit]
  have hbit : c.getLsbD 0 = d.getLsbD 0 := by rw [← hmsb, ← hmsb, h]
  have hshift : c >>> 1 = d >>> 1 := by
    rw [step, step, hbit] at h
    split at h
    · exact (BitVec.xor_left_inj p).mp h
    · exact h
  apply BitVec.eq_of_getLsbD_eq
  intro i _
  cases i with
  | zero => exact hbit
  | succ i =>
    have hi := congrArg (fun e => e.getLsbD i) hshift
    simp only [BitVec.getLsbD_ushiftRight] at hi
    rw [Nat.add_comm] at hi
    exact hi

theorem steps_injective (hp : p.msb = true) {k : Nat} {c d : BitVec w}
    (h : steps p k c = steps p k d) : c = d := by
  induction k generalizing c d with
  | zero => exact h
  | succ k ih => exact step_injective p hp (ih h)

theorem checksum_injective (hp : p.msb = true) {bs : List UInt8} {c d : BitVec w}
    (h : checksum p c bs = checksum p d bs) : c = d := by
  induction bs generalizing c d with
  | nil => exact h
  | cons b bs ih =>
    rw [checksum_cons, checksum_cons] at h
    exact (BitVec.xor_left_inj _).mp (steps_injective p hp (ih h))

/-! ### Two bytes -/

/-- Two bytes, the first one low. -/
def pair (w : Nat) (a b : UInt8) : BitVec w :=
  a.toBitVec.setWidth w ^^^ b.toBitVec.setWidth w <<< 8

theorem pair_getLsbD (hw : 16 ≤ w) (a b : UInt8) {i : Nat} (hi : i < 8) :
    (pair w a b).getLsbD i = a.toBitVec.getLsbD i ∧
      (pair w a b).getLsbD (i + 8) = b.toBitVec.getLsbD i := by
  rw [pair, BitVec.getLsbD_xor, BitVec.getLsbD_xor, BitVec.getLsbD_shiftLeft,
    BitVec.getLsbD_shiftLeft, BitVec.getLsbD_setWidth, BitVec.getLsbD_setWidth,
    BitVec.getLsbD_setWidth, BitVec.getLsbD_of_ge a.toBitVec (i + 8) (by omega)]
  have hiw : i < w := by omega
  have hi8 : i + 8 < w := by omega
  simp [hi, hiw, hi8]

theorem pair_injective (hw : 16 ≤ w) {a b a' b' : UInt8} (h : pair w a b = pair w a' b') :
    a = a' ∧ b = b' := by
  constructor
  · apply UInt8.toBitVec_inj.mp
    apply BitVec.eq_of_getLsbD_eq
    intro i hi
    rw [← (pair_getLsbD hw a b hi).1, h, (pair_getLsbD hw a' b' hi).1]
  · apply UInt8.toBitVec_inj.mp
    apply BitVec.eq_of_getLsbD_eq
    intro i hi
    rw [← (pair_getLsbD hw a b hi).2, h, (pair_getLsbD hw a' b' hi).2]

/-- A byte that has been waiting eight steps above enters. -/
theorem steps_shiftLeft (hw : 16 ≤ w) (b : UInt8) :
    steps p 8 (b.toBitVec.setWidth w <<< 8) = b.toBitVec.setWidth w := by
  rw [steps_of_low]
  · apply BitVec.eq_of_getLsbD_eq
    intro i hi
    rw [BitVec.getLsbD_ushiftRight, BitVec.getLsbD_shiftLeft, Nat.add_sub_cancel_left]
    by_cases h8 : i < 8
    · simp [show 8 + i < w by omega]
    · rw [BitVec.getLsbD_setWidth, BitVec.getLsbD_of_ge b.toBitVec i (by omega)]
      simp
  · intro i hi
    rw [BitVec.getLsbD_shiftLeft, decide_eq_true hi]
    simp

/-- **Two bytes enter as one word.** -/
theorem checksum_two (hw : 16 ≤ w) (c : BitVec w) (a b : UInt8) :
    checksum p c [a, b] = steps p 16 (c ^^^ pair w a b) := by
  show steps p 8 (steps p 8 (c ^^^ a.toBitVec.setWidth w) ^^^ b.toBitVec.setWidth w) = _
  rw [show 16 = 8 + 8 from rfl, steps_add]
  congr 1
  rw [pair, ← BitVec.xor_assoc, steps_xor p 8 _ (b.toBitVec.setWidth w <<< 8),
    steps_shiftLeft p hw b]

theorem checksum_two_injective (hw : 16 ≤ w) (hp : p.msb = true) {c : BitVec w}
    {a b a' b' : UInt8} (h : checksum p c [a, b] = checksum p c [a', b']) : a = a' ∧ b = b' := by
  rw [checksum_two p hw, checksum_two p hw] at h
  exact pair_injective hw ((BitVec.xor_right_inj c).mp (steps_injective p hp h))

/-- **A burst in two adjacent bytes is seen**, whatever comes before and behind. -/
theorem checksum_burst (hw : 16 ≤ w) (hp : p.msb = true) {c : BitVec w} {bs cs : List UInt8}
    {a b a' b' : UInt8}
    (h : checksum p c (bs ++ a :: b :: cs) = checksum p c (bs ++ a' :: b' :: cs)) :
    a = a' ∧ b = b' := by
  have hsplit : ∀ a b : UInt8, checksum p c (bs ++ a :: b :: cs) =
      checksum p (checksum p (checksum p c bs) [a, b]) cs := by
    intro a b
    rw [← checksum_append, ← checksum_append]
    rfl
  rw [hsplit, hsplit] at h
  exact checksum_two_injective p hw hp (checksum_injective p hp h)

end Crc

end EnresLogger.Lib
