import EnresLogger.Lib.Crc
import EnresLogger.Refresh

/-!
# Bursts

`crc16` is the reflected checksum with the polynomial 0xA001, so `checksum_burst`
holds of it.  A frame that ends with its checksum leaves the register at 0
(`crc16_withCrc`), and so does whatever `masterTransaction` accepts; a frame with
a burst in two adjacent bytes does not.  It makes no difference whether the burst
lies in the data, in the checksum, or in both.
-/

namespace EnresLogger

open Lib

/-! ### The checksum of the source -/

def polynomial : BitVec 16 := 0xA001

theorem bit_zero (c : UInt16) : c &&& 1 ≠ 0 ↔ c.toBitVec.getLsbD 0 = true := by
  rw [Ne, ← UInt16.toBitVec_inj, UInt16.toBitVec_and]
  show ¬ c.toBitVec &&& 1#16 = 0#16 ↔ _
  rw [BitVec.and_one_eq_setWidth_ofBool_getLsbD]
  cases c.toBitVec.getLsbD 0 <;> decide

theorem crc16_step (c : UInt16) :
    (if c &&& 1 ≠ 0 then (c >>> 1) ^^^ 0xA001 else c >>> 1 : UInt16).toBitVec =
      Crc.step polynomial c.toBitVec := by
  rw [Crc.step]
  by_cases h : c &&& 1 ≠ 0
  · rw [if_pos h, if_pos ((bit_zero c).mp h)]
    rfl
  · rw [if_neg h, if_neg (fun hbit => h ((bit_zero c).mpr hbit))]
    rfl

theorem crc16_update_eq (c : UInt16) (b : UInt8) :
    (crc16_update c b).toBitVec = Crc.update polynomial c.toBitVec b := by
  have hsteps : ∀ (ks : List Nat) (c : UInt16), (ks.foldl (fun (c : UInt16) _ =>
      if c &&& 1 ≠ 0 then (c >>> 1) ^^^ 0xA001 else c >>> 1) c).toBitVec =
      Crc.steps polynomial ks.length c.toBitVec := by
    intro ks
    induction ks with
    | nil => exact fun _ => rfl
    | cons k ks ih =>
      intro c
      rw [List.foldl_cons, ih, crc16_step]
      rfl
  exact hsteps (List.range 8) (c ^^^ b.toUInt16)

theorem crc16_eq (bs : List UInt8) :
    (crc16 bs).toBitVec = Crc.checksum polynomial 0xFFFF bs := by
  have hfold : ∀ (bs : List UInt8) (c : UInt16),
      (bs.foldl crc16_update c).toBitVec = Crc.checksum polynomial c.toBitVec bs := by
    intro bs
    induction bs with
    | nil => exact fun _ => rfl
    | cons b bs ih =>
      intro c
      rw [List.foldl_cons, ih, crc16_update_eq]
      rfl
  exact hfold bs 0xFFFF

/-- The bytes of a register, entered, are the register. -/
theorem pair_bytes (w : UInt16) : Crc.pair 16 (lowByte w) (highByte w) = w.toBitVec := by
  apply BitVec.eq_of_getLsbD_eq
  intro i hi
  by_cases h8 : i < 8
  · rw [(Crc.pair_getLsbD (Nat.le_refl 16) _ _ h8).1]
    show (w.toNat % 256 % 2 ^ 8).testBit i = w.toNat.testBit i
    rw [show 256 = 2 ^ 8 from rfl, Nat.mod_mod, Nat.testBit_mod_two_pow, decide_eq_true h8,
      Bool.true_and]
  · obtain ⟨k, rfl⟩ : ∃ k, i = k + 8 := ⟨i - 8, by omega⟩
    rw [(Crc.pair_getLsbD (Nat.le_refl 16) _ _ (show k < 8 by omega)).2]
    show (w.toNat / 256 % 2 ^ 8).testBit k = w.toNat.testBit (k + 8)
    rw [Nat.testBit_mod_two_pow, decide_eq_true (show k < 8 by omega), Bool.true_and,
      show 256 = 2 ^ 8 from rfl, Nat.testBit_div_two_pow]

/-- **A frame with its checksum leaves 0.** -/
theorem crc16_withCrc (bs : List UInt8) : crc16 (withCrc bs) = 0 := by
  apply UInt16.toBitVec_inj.mp
  rw [crc16_eq, withCrc, Crc.checksum_append, ← crc16_eq, Crc.checksum_two _ (Nat.le_refl 16),
    pair_bytes, BitVec.xor_self]
  exact Crc.steps_of_zero _ 16

/-! ### Corrupted frames -/

/-- What may happen to a frame: something is changed, but only the bytes `j` and
`j + 1`. -/
structure Burst (frame frame' : List UInt8) (j : Nat) : Prop where
  length : frame'.length = frame.length
  same : ∀ i, i ≠ j → i ≠ j + 1 → frame'[i]? = frame[i]?
  changed : frame' ≠ frame

theorem Burst.split {frame frame' : List UInt8} {j : Nat} (h : Burst frame frame' j)
    (hj : j + 1 < frame.length) :
    ∃ bs cs a b a' b', frame = bs ++ a :: b :: cs ∧ frame' = bs ++ a' :: b' :: cs ∧
      ¬ (a = a' ∧ b = b') := by
  have hj' : j + 1 < frame'.length := by rw [h.length]; exact hj
  have hsplit : ∀ bs : List UInt8, (hbs : j + 1 < bs.length) →
      bs = bs.take j ++ bs[j] :: bs[j + 1] :: bs.drop (j + 2) := by
    intro bs hbs
    rw [← List.drop_eq_getElem_cons, ← List.drop_eq_getElem_cons, List.take_append_drop]
  have hbefore : frame'.take j = frame.take j := by
    apply List.ext_getElem?
    intro i
    rw [List.getElem?_take, List.getElem?_take]
    split
    · exact h.same i (by omega) (by omega)
    · rfl
  have hbehind : frame'.drop (j + 2) = frame.drop (j + 2) := by
    apply List.ext_getElem?
    intro i
    rw [List.getElem?_drop, List.getElem?_drop]
    exact h.same _ (by omega) (by omega)
  refine ⟨frame.take j, frame.drop (j + 2), frame[j], frame[j + 1], frame'[j], frame'[j + 1],
    hsplit frame hj, ?_, ?_⟩
  · rw [← hbefore, ← hbehind]
    exact hsplit frame' hj'
  · rintro ⟨h₁, h₂⟩
    refine h.changed ?_
    rw [hsplit frame' hj', hbefore, hbehind, ← h₁, ← h₂]
    exact (hsplit frame hj).symm

theorem Burst.crc16_ne {frame frame' : List UInt8} {j : Nat} (h : Burst frame frame' j)
    (hj : j + 1 < frame.length) : crc16 frame' ≠ crc16 frame := by
  obtain ⟨bs, cs, a, b, a', b', rfl, rfl, hne⟩ := h.split hj
  intro hcrc
  have hcrc := congrArg UInt16.toBitVec hcrc
  rw [crc16_eq, crc16_eq] at hcrc
  exact hne (Crc.checksum_burst polynomial (Nat.le_refl 16) (by decide) hcrc.symm)

theorem Burst.header {q : Request} {ws : List UInt16} {frame' : List UInt8} {j : Nat}
    (h : Burst (registerFrame q ws) frame' j) (hj : 3 ≤ j) :
    ∃ tail, frame' = q.slave :: q.fnRead :: UInt8.ofNat (2 * ws.length) :: tail ∧
      tail.length = 2 * ws.length + 2 := by
  have hlen := h.length
  rw [registerFrame_length] at hlen
  have h₀ : frame'[0]? = some q.slave := h.same 0 (by omega) (by omega)
  have h₁ : frame'[1]? = some q.fnRead := h.same 1 (by omega) (by omega)
  have h₂ : frame'[2]? = some (UInt8.ofNat (2 * ws.length)) := h.same 2 (by omega) (by omega)
  match frame', h₀, h₁, h₂, hlen with
  | b₀ :: b₁ :: b₂ :: tail, h₀, h₁, h₂, hlen =>
    obtain rfl : b₀ = q.slave := Option.some.inj h₀
    obtain rfl : b₁ = q.fnRead := Option.some.inj h₁
    obtain rfl : b₂ = _ := Option.some.inj h₂
    exact ⟨tail, rfl, by simp only [List.length_cons] at hlen; omega⟩

/-- **A burst in a register reply is always detected**: whether it is in the
data, in the checksum or in both, the call reports it and the response buffer
stays. -/
theorem burst_detected (q : Request) (ws : List UInt16) (hfn : ReadsRegisters q.fnRead)
    (h1 : 1 ≤ ws.length) (h125 : ws.length ≤ 125) (frame' : List UInt8) (j : Nat) (hj : 3 ≤ j)
    (hj' : j + 1 ≤ 2 * ws.length + 4) (hburst : Burst (registerFrame q ws) frame' j)
    (rest : List UInt8) (x : Exchange) (m : Master) (hrx : m.rx = [])
    (harrive : x.arrive = frame' ++ rest) (hlate : x.late = Adu.never) :
    (masterTransaction q x m).1 = ku8MBInvalidCRC ∧ (masterTransaction q x m).2.buf = m.buf := by
  have hcrc : crc16 frame' ≠ 0 := by
    rw [← crc16_withCrc (q.slave :: q.fnRead :: UInt8.ofNat (2 * ws.length) :: registerBytes ws)]
    exact hburst.crc16_ne (by rw [registerFrame_length]; omega)
  obtain ⟨tail, rfl, htail⟩ := hburst.header hj
  have hdata : Adu.dataLength q.fnRead (UInt8.ofNat (2 * ws.length)) = 2 * ws.length := by
    rw [Adu.dataLength_registers hfn, UInt8.toNat_ofNat']
    omega
  obtain ⟨a, hr, hreads⟩ := @Adu.receive_tail q x.stack (UInt8.ofNat (2 * ws.length)) tail
    (readsRegisters_normal hfn) (by rw [hdata, htail]) (by omega) rest
  have hcall : Adu.receive q x.late 0 (m.rx ++ x.arrive) (.start q x.stack) = (a, rest) := by
    rw [hrx, harrive, hlate]
    exact hr
  -- the last two bytes are not the checksum of those before
  obtain ⟨cs, l, h, rfl, _⟩ := exists_last_two (show 2 ≤ tail.length by omega)
  replace hreads : a.Reads ((q.slave :: q.fnRead :: UInt8.ofNat (2 * ws.length) :: cs) ++
    [l, h]) := hreads
  have hverify : a.verify = ku8MBInvalidCRC := by
    rw [hreads.verify_eq (by simp), if_pos]
    by_contra heq
    rw [not_or, not_not, not_not] at heq
    refine hcrc ?_
    rw [← crc16_withCrc (q.slave :: q.fnRead :: UInt8.ofNat (2 * ws.length) :: cs), withCrc,
      heq.1, heq.2]
    rfl
  have hne : ku8MBInvalidCRC ≠ ku8MBSuccess := by decide
  rw [masterTransaction]
  simp only [hcall, hverify, if_neg hne, and_self]

theorem registerFrame_zero :
    registerFrame ⟨1, 0, 1, 3⟩ [0] = [1, 3, 2, 0, 0, 0xB8, 0x44] := by decide +kernel

/-- One bit of the only register is turned over. -/
theorem burst_detected_one :
    (masterTransaction ⟨1, 0, 1, 3⟩ (delivers [1, 3, 2, 0, 1, 0xB8, 0x44]) .idle).1 =
      ku8MBInvalidCRC := by
  have hburst : Burst (registerFrame ⟨1, 0, 1, 3⟩ [0]) [1, 3, 2, 0, 1, 0xB8, 0x44] 3 := by
    rw [registerFrame_zero]
    refine ⟨rfl, fun i h₁ h₂ => ?_, by decide⟩
    match i, h₁, h₂ with
    | 0, _, _ | 1, _, _ | 2, _, _ | 5, _, _ | 6, _, _ => rfl
    | _ + 7, _, _ => rfl
  exact (burst_detected ⟨1, 0, 1, 3⟩ [0] (Or.inl rfl) (by decide) (by decide)
    [1, 3, 2, 0, 1, 0xB8, 0x44] 3 (by decide) (by decide) hburst [] (delivers _) .idle rfl rfl
    rfl).1

end EnresLogger
