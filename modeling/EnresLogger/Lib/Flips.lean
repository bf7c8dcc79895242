import EnresLogger.Lib.Crc

/-!
# Checksums bit by bit

A checksum takes the bits of its bytes one after the other, in each byte the lowest first
(`checksum_bits`).  It is linear, so the registers behind two messages differ by what the
flipped bits alone would leave in it (`run_xor`).

Two facts about these.  If the polynomial has an odd number of bits, the parity of the
register is that of the bits so far, and so an odd number of flips is seen (`parity_run`).
Two flips are seen if the register, running by itself, does not come back to where it began
in as many steps as they are apart (`run_two`).  `checksum_flips` puts them together.
-/

namespace EnresLogger.Lib

namespace Crc

variable {w : Nat} (p : BitVec w)

/-- A bit at the low end. -/
def bit (w : Nat) (b : Bool) : BitVec w := if b then 1#w else 0#w

def feed (c : BitVec w) (b : Bool) : BitVec w := step p (c ^^^ bit w b)

def run (c : BitVec w) (bs : List Bool) : BitVec w := bs.foldl (feed p) c

def byteBits (b : UInt8) : List Bool := (List.range 8).map b.toBitVec.getLsbD

def bits (bs : List UInt8) : List Bool := bs.flatMap byteBits

/-- How many bits have been flipped. -/
def flips (as bs : List UInt8) : Nat := (List.zipWith xor (bits as) (bits bs)).count true

theorem run_cons (c : BitVec w) (b : Bool) (bs : List Bool) :
    run p c (b :: bs) = run p (feed p c b) bs := rfl

theorem run_append (c : BitVec w) (as bs : List Bool) :
    run p c (as ++ bs) = run p (run p c as) bs := List.foldl_append

@[simp] theorem byteBits_length (b : UInt8) : (byteBits b).length = 8 := rfl

theorem bits_cons (b : UInt8) (bs : List UInt8) : bits (b :: bs) = byteBits b ++ bits bs :=
  List.flatMap_cons

theorem bits_length (bs : List UInt8) : (bits bs).length = 8 * bs.length := by
  induction bs with
  | nil => rfl
  | cons b bs ih =>
    rw [bits_cons, List.length_append, byteBits_length, ih, List.length_cons]
    omega

theorem bits_append (as bs : List UInt8) : bits (as ++ bs) = bits as ++ bits bs :=
  List.flatMap_append

theorem flips_append {as as' : List UInt8} (h : as.length = as'.length) (bs bs' : List UInt8) :
    flips (as ++ bs) (as' ++ bs') = flips as as' + flips bs bs' := by
  have hlen : (bits as).length = (bits as').length := by rw [bits_length, bits_length, h]
  rw [flips, bits_append, bits_append, List.zipWith_append hlen, List.count_append]
  rfl

@[simp] theorem flips_self (as : List UInt8) : flips as as = 0 := by
  have hself : ∀ bs : List Bool, (List.zipWith xor bs bs).count true = 0 := by
    intro bs
    induction bs with
    | nil => rfl
    | cons b bs ih =>
      rw [List.zipWith_cons_cons, Bool.xor_self, List.count_cons_of_ne (by decide), ih]
  exact hself (bits as)

theorem flips_byte (a b : UInt8) : flips [a] [a ^^^ b] = (byteBits b).count true := by
  have hbits : List.zipWith xor (byteBits a) (byteBits (a ^^^ b)) = byteBits b := by
    rw [byteBits, byteBits, List.zipWith_map, List.zipWith_self]
    apply List.map_congr_left
    intro i _
    rw [UInt8.toBitVec_xor, BitVec.getLsbD_xor, ← Bool.xor_assoc, Bool.xor_self, Bool.false_xor]
  rw [flips, bits_cons, bits_cons, bits, List.flatMap_nil, List.append_nil, List.append_nil, hbits]

theorem bit_getLsbD_zero (hw : 0 < w) (b : Bool) : (bit w b).getLsbD 0 = b := by
  cases b with
  | false => exact BitVec.getLsbD_zero
  | true => simp [bit, hw]

theorem bit_ushiftRight (b : Bool) : bit w b >>> 1 = 0#w := by
  cases b with
  | false => exact BitVec.zero_ushiftRight
  | true =>
    apply BitVec.eq_of_getLsbD_eq
    intro i _
    rw [BitVec.getLsbD_ushiftRight]
    simp [bit]

theorem bit_xor (a b : Bool) : bit w (a ^^ b) = bit w a ^^^ bit w b := by
  cases a <;> cases b <;> simp [bit]

/-! ### Bytes -/

/-- What is behind the lowest bit waits one step. -/
theorem step_split (hw : 0 < w) (c x : BitVec w) :
    step p (c ^^^ x) = feed p c (x.getLsbD 0) ^^^ x >>> 1 := by
  have hrest : step p (x ^^^ bit w (x.getLsbD 0)) = x >>> 1 := by
    rw [step, if_neg, BitVec.ushiftRight_xor_distrib, bit_ushiftRight, BitVec.xor_zero]
    rw [BitVec.getLsbD_xor, bit_getLsbD_zero hw, Bool.xor_self]
    exact Bool.false_ne_true
  rw [feed, ← hrest, ← step_xor]
  congr 1
  rw [BitVec.xor_comm x, ← BitVec.xor_assoc, BitVec.xor_assoc c, BitVec.xor_self, BitVec.xor_zero]

theorem run_range (hw : 0 < w) {k : Nat} (c : BitVec w) {x : BitVec w} (hx : x >>> k = 0#w) :
    run p c ((List.range k).map x.getLsbD) = steps p k (c ^^^ x) := by
  induction k generalizing c x with
  | zero =>
    rw [BitVec.ushiftRight_zero] at hx
    rw [hx, BitVec.xor_zero]
    rfl
  | succ k ih =>
    have hnext : (x >>> 1) >>> k = 0#w := by
      rw [← BitVec.shiftRight_add, Nat.add_comm]
      exact hx
    have hbits : (List.range k).map (x.getLsbD ∘ Nat.succ) =
        (List.range k).map (x >>> 1).getLsbD := by
      apply List.map_congr_left
      intro i _
      rw [BitVec.getLsbD_ushiftRight, Nat.add_comm]
      rfl
    rw [List.range_succ_eq_map, List.map_cons, List.map_map, hbits, run_cons, ih _ hnext,
      steps_succ, step_split p hw]

theorem update_bits (hw : 8 ≤ w) (c : BitVec w) (b : UInt8) :
    update p c b = run p c (byteBits b) := by
  have hlow : (b.toBitVec.setWidth w) >>> 8 = 0#w := by
    apply BitVec.eq_of_getLsbD_eq
    intro i _
    rw [BitVec.getLsbD_ushiftRight, BitVec.getLsbD_setWidth,
      BitVec.getLsbD_of_ge b.toBitVec (8 + i) (by omega)]
    simp
  have hbits : byteBits b = (List.range 8).map (b.toBitVec.setWidth w).getLsbD := by
    apply List.map_congr_left
    intro i hi
    have hi : i < 8 := List.mem_range.mp hi
    rw [BitVec.getLsbD_setWidth, decide_eq_true (show i < w by omega), Bool.true_and]
  rw [hbits, run_range p (by omega) c hlow]
  rfl

/-- **A checksum is taken bit by bit.** -/
theorem checksum_bits (hw : 8 ≤ w) (c : BitVec w) (bs : List UInt8) :
    checksum p c bs = run p c (bits bs) := by
  induction bs generalizing c with
  | nil => rfl
  | cons b bs ih => rw [checksum_cons, ih, update_bits p hw, bits_cons, run_append]

/-- **Linear**, in the register and in the bits. -/
theorem run_xor (c d : BitVec w) {as bs : List Bool} (h : as.length = bs.length) :
    run p (c ^^^ d) (List.zipWith xor as bs) = run p c as ^^^ run p d bs := by
  induction as generalizing c d bs with
  | nil =>
    cases bs with
    | nil => rfl
    | cons b bs => cases h
  | cons a as ih =>
    cases bs with
    | nil => cases h
    | cons b bs =>
      have hfeed : feed p (c ^^^ d) (a ^^ b) = feed p c a ^^^ feed p d b := by
        rw [feed, feed, feed, ← step_xor, bit_xor]
        congr 1
        ac_rfl
      rw [List.zipWith_cons_cons, run_cons, hfeed, ih _ _ (Nat.succ.inj h)]
      rfl

theorem checksum_xor (hw : 8 ≤ w) (c : BitVec w) {as bs : List UInt8}
    (h : as.length = bs.length) : checksum p c as ^^^ checksum p c bs =
      run p 0#w (List.zipWith xor (bits as) (bits bs)) := by
  rw [checksum_bits p hw, checksum_bits p hw, ← run_xor, BitVec.xor_self]
  rw [bits_length, bits_length, h]

/-! ### Parity -/

def parityTo : Nat → BitVec w → Bool
  | 0, _ => false
  | k + 1, c => c.getLsbD k ^^ parityTo k c

/-- Whether an odd number of bits is set. -/
def parity (c : BitVec w) : Bool := parityTo w c

theorem parityTo_xor (k : Nat) (c d : BitVec w) :
    parityTo k (c ^^^ d) = (parityTo k c ^^ parityTo k d) := by
  induction k with
  | zero => rfl
  | succ k ih =>
    rw [parityTo, parityTo, parityTo, ih, BitVec.getLsbD_xor]
    simp only [Bool.xor_assoc, Bool.xor_left_comm]

theorem parityTo_zero (k : Nat) : parityTo k 0#w = false := by
  induction k with
  | zero => rfl
  | succ k ih => rw [parityTo, ih, BitVec.getLsbD_zero, Bool.xor_false]

theorem parityTo_ushiftRight (k : Nat) (c : BitVec w) :
    (parityTo k (c >>> 1) ^^ c.getLsbD 0) = parityTo (k + 1) c := by
  induction k with
  | zero => rw [parityTo, parityTo, parityTo, Bool.false_xor, Bool.xor_false]
  | succ k ih =>
    rw [parityTo, Bool.xor_assoc, ih, BitVec.getLsbD_ushiftRight, Nat.add_comm 1 k]
    rfl

theorem parity_ushiftRight (c : BitVec w) :
    parity (c >>> 1) = (parity c ^^ c.getLsbD 0) := by
  have h := parityTo_ushiftRight w c
  rw [parityTo, BitVec.getLsbD_of_ge c w (Nat.le_refl w), Bool.false_xor] at h
  rw [parity, parity, ← h, Bool.xor_assoc, Bool.xor_self, Bool.xor_false]

/-- The bit that falls out is paid for by the polynomial. -/
theorem parity_step (hp : parity p = true) (c : BitVec w) : parity (step p c) = parity c := by
  rw [step]
  cases hc : c.getLsbD 0 with
  | true =>
    rw [if_pos rfl, parity, parityTo_xor]
    show (parity (c >>> 1) ^^ parity p) = _
    rw [parity_ushiftRight, hc, hp, Bool.xor_assoc, Bool.xor_self, Bool.xor_false]
  | false => rw [if_neg Bool.false_ne_true, parity_ushiftRight, hc, Bool.xor_false]

theorem parity_bit (hw : 0 < w) (b : Bool) : parity (bit w b) = b := by
  have h := parity_ushiftRight (bit w b)
  rw [bit_ushiftRight, bit_getLsbD_zero hw, parity, parityTo_zero] at h
  generalize parity (bit w b) = c at h ⊢
  revert b c
  decide

/-- **The parity of the register** is that of the bits. -/
theorem parity_run (hw : 0 < w) (hp : parity p = true) (c : BitVec w) (bs : List Bool) :
    parity (run p c bs) = (parity c ^^ decide (bs.count true % 2 = 1)) := by
  induction bs generalizing c with
  | nil => exact (Bool.xor_false _).symm
  | cons b bs ih =>
    have hfeed : parity (feed p c b) = (parity c ^^ b) := by
      rw [feed, parity_step p hp, parity, parityTo_xor]
      exact congrArg (parity c ^^ ·) (parity_bit hw b)
    rw [run_cons, ih, hfeed]
    cases b with
    | false => rw [Bool.xor_false, List.count_cons_of_ne (by decide)]
    | true =>
      rw [List.count_cons_self, Bool.xor_assoc]
      congr 1
      rcases Nat.mod_two_eq_zero_or_one (bs.count true) with h | h
      · simp [h, show (bs.count true + 1) % 2 = 1 by omega]
      · simp [h, show (bs.count true + 1) % 2 = 0 by omega]

/-! ### Two flips -/

/-- The register runs from `c` and does not meet `d` in `n` steps. -/
def away (d : BitVec w) : Nat → BitVec w → Bool
  | 0, _ => true
  | n + 1, c => step p c != d && away d n (step p c)

theorem steps_ne_of_away {d c : BitVec w} {n : Nat} (h : away p d n c = true) {k : Nat}
    (hk : k < n) : steps p (k + 1) c ≠ d := by
  induction n generalizing c k with
  | zero => omega
  | succ n ih =>
    obtain ⟨hne, haway⟩ := Bool.and_eq_true_iff.mp h
    cases k with
    | zero => exact bne_iff_ne.mp hne
    | succ k => exact ih haway (Nat.lt_of_succ_lt_succ hk)

theorem run_replicate (c : BitVec w) (k : Nat) :
    run p c (List.replicate k false) = steps p k c := by
  induction k generalizing c with
  | zero => rfl
  | succ k ih =>
    rw [List.replicate_succ, run_cons, ih, steps_succ, feed]
    congr 2
    exact BitVec.xor_zero

theorem exists_first {n : Nat} {bs : List Bool} (h : bs.count true = n + 1) :
    ∃ k bs', bs = List.replicate k false ++ true :: bs' ∧ bs'.count true = n := by
  induction bs with
  | nil => cases h
  | cons b bs ih =>
    cases b with
    | true => exact ⟨0, bs, rfl, Nat.succ.inj (List.count_cons_self.symm.trans h)⟩
    | false =>
      rw [List.count_cons_of_ne (by decide)] at h
      obtain ⟨k, bs', rfl, hbs'⟩ := ih h
      exact ⟨k + 1, bs', rfl, hbs'⟩

theorem eq_replicate_of_count {bs : List Bool} (h : bs.count true = 0) :
    bs = List.replicate bs.length false := by
  rw [List.eq_replicate_iff]
  refine ⟨rfl, fun b hb => ?_⟩
  cases b with
  | false => rfl
  | true => exact absurd hb (List.count_eq_zero.mp h)

/-- **Two flips** do not cancel. -/
theorem run_two (hp : p.msb = true) {n : Nat} (haway : away p 1#w n 1#w = true)
    {bs : List Bool} (hlen : bs.length ≤ n) (h : bs.count true = 2) : run p 0#w bs ≠ 0#w := by
  obtain ⟨i, bs₁, rfl, h₁⟩ := exists_first h
  obtain ⟨j, bs₂, rfl, h₂⟩ := exists_first h₁
  rw [eq_replicate_of_count h₂]
  have hone : feed p 0#w true = step p 1#w := by rw [feed, BitVec.zero_xor]; rfl
  rw [run_append, run_replicate, steps_of_zero, run_cons, hone, run_append, run_replicate,
    ← steps_succ, run_cons, run_replicate, feed, ← steps_succ]
  intro hzero
  have hback : steps p (j + 1) 1#w ^^^ 1#w = 0#w := by
    refine steps_injective p hp (hzero.trans ?_)
    rw [steps_of_zero]
  refine steps_ne_of_away p haway (k := j) ?_ (BitVec.xor_eq_zero_iff.mp hback)
  simp only [List.length_append, List.length_cons, List.length_replicate] at hlen
  omega

/-- **An odd number of flips, or two, are seen**, wherever they are. -/
theorem checksum_flips (hw : 8 ≤ w) (hp : p.msb = true) (hodd : parity p = true) {n : Nat}
    (haway : away p 1#w n 1#w = true) {c : BitVec w} {as bs : List UInt8}
    (hlen : as.length = bs.length) (hn : 8 * as.length ≤ n)
    (h : flips as bs % 2 = 1 ∨ flips as bs = 2) : checksum p c as ≠ checksum p c bs := by
  intro heq
  have hzero := checksum_xor p hw c hlen
  rw [heq, BitVec.xor_self] at hzero
  rcases h with h | h
  · have hparity := parity_run p (by omega) hodd 0#w (List.zipWith xor (bits as) (bits bs))
    rw [← hzero, ← flips, decide_eq_true h, parity, parityTo_zero] at hparity
    cases hparity
  · refine run_two p hp haway ?_ h hzero.symm
    rw [List.length_zipWith, bits_length]
    exact Nat.le_trans (Nat.min_le_left _ _) hn

end Crc

end EnresLogger.Lib
