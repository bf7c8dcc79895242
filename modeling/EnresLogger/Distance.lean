import EnresLogger.Lib.Flips
import EnresLogger.Burst

/-!
# Flipped bits

A register reply has at most 255 bytes, 2040 bits.  The polynomial of `crc16` has three bits
below its top one, and its register does not come back to 1 in as many steps, so
`checksum_flips` holds of all replies.  `distance_four` says how good the check is: behind the
count, one, two or three flipped bits anywhere, or any odd number of them, are always
reported, and for every reply there are four that are not.
-/

namespace EnresLogger

open Lib

variable {q : Request} {x : Exchange} {m : Master} {ws : List UInt16}

theorem polynomial_away : Crc.away polynomial 1 2040 1 = true := by decide +kernel

/-- The bytes of the reply may change, but for the header. -/
structure Flipped (frame frame' : List UInt8) : Prop where
  length : frame'.length = frame.length
  header : frame'.take 3 = frame.take 3

theorem crc16_flips {frame frame' : List UInt8} (hlen : frame'.length = frame.length)
    (h255 : frame.length ≤ 255)
    (h : Crc.flips frame frame' % 2 = 1 ∨ Crc.flips frame frame' = 2) :
    crc16 frame' ≠ crc16 frame := by
  intro heq
  have heq := congrArg UInt16.toBitVec heq
  rw [crc16_eq, crc16_eq] at heq
  exact Crc.checksum_flips polynomial (by decide) (by decide) (by decide) polynomial_away
    hlen.symm (by omega) h heq.symm

/-- **A frame that does not leave 0** is refused, and taken from the stream. -/
theorem masterTransaction_invalid {c : UInt8} {tail rest : List UInt8}
    (hfn : q.fnRead &&& 0x80 = 0) (hlen : tail.length = Adu.dataLength q.fnRead c + 2)
    (h250 : Adu.dataLength q.fnRead c ≤ 250)
    (hstream : m.rx ++ x.arrive = q.slave :: q.fnRead :: c :: tail ++ rest)
    (hlate : x.late = Adu.never) (hcrc : crc16 (q.slave :: q.fnRead :: c :: tail) ≠ 0) :
    masterTransaction q x m = (ku8MBInvalidCRC, ⟨rest, m.buf⟩) := by
  obtain ⟨a, hr, hreads⟩ := @Adu.receive_tail q x.stack c tail hfn hlen h250 rest
  have hcall : Adu.receive q x.late 0 (m.rx ++ x.arrive) (.start q x.stack) = (a, rest) := by
    rw [hstream, hlate]
    exact hr
  obtain ⟨cs, l, h, rfl, _⟩ := exists_last_two (show 2 ≤ tail.length by omega)
  replace hreads : a.Reads ((q.slave :: q.fnRead :: c :: cs) ++ [l, h]) := hreads
  have hverify : a.verify = ku8MBInvalidCRC := by
    rw [hreads.verify_eq (by simp), if_pos]
    by_contra heq
    rw [not_or, not_not, not_not] at heq
    -- then the frame ends with its checksum
    refine hcrc ?_
    rw [← crc16_withCrc (q.slave :: q.fnRead :: c :: cs), withCrc, heq.1, heq.2]
    rfl
  have hne : ku8MBInvalidCRC ≠ ku8MBSuccess := by decide
  rw [masterTransaction]
  simp only [hcall, hverify, if_neg hne]

/-- A reply with its header, and something of its length behind it. -/
theorem Flipped.split {frame' : List UInt8} (h : Flipped (registerFrame q ws) frame') :
    ∃ tail, frame' = q.slave :: q.fnRead :: UInt8.ofNat (2 * ws.length) :: tail ∧
      tail.length = 2 * ws.length + 2 := by
  refine ⟨frame'.drop 3, ?_, ?_⟩
  · have hheader : frame'.take 3 = [q.slave, q.fnRead, UInt8.ofNat (2 * ws.length)] := h.header
    calc frame' = frame'.take 3 ++ frame'.drop 3 := (List.take_append_drop 3 frame').symm
      _ = _ := by rw [hheader]; rfl
  · rw [List.length_drop, h.length, registerFrame_length]
    omega

/-- **An odd number of flips, or two, are reported.** -/
theorem Flipped.reported {frame' rest : List UInt8} (h : Flipped (registerFrame q ws) frame')
    (hfn : ReadsRegisters q.fnRead) (h125 : ws.length ≤ 125)
    (hflips : Crc.flips (registerFrame q ws) frame' % 2 = 1 ∨
      Crc.flips (registerFrame q ws) frame' = 2)
    (hstream : m.rx ++ x.arrive = frame' ++ rest) (hlate : x.late = Adu.never) :
    masterTransaction q x m = (ku8MBInvalidCRC, ⟨rest, m.buf⟩) := by
  have hframe := registerFrame_length q ws
  have hcrc : crc16 frame' ≠ crc16 (registerFrame q ws) :=
    crc16_flips h.length (by omega) hflips
  rw [registerFrame, crc16_withCrc] at hcrc
  obtain ⟨tail, rfl, htail⟩ := h.split
  have hdata : Adu.dataLength q.fnRead (UInt8.ofNat (2 * ws.length)) = 2 * ws.length := by
    rw [Adu.dataLength_registers hfn, UInt8.toNat_ofNat']
    omega
  exact masterTransaction_invalid (readsRegisters_normal hfn) (by rw [hdata, htail]) (by omega)
    hstream hlate hcrc

/-! ### Four flips -/

theorem lowByte_xor (v w : UInt16) : lowByte (v ^^^ w) = lowByte v ^^^ lowByte w := by
  apply UInt8.toNat_inj.mp
  rw [UInt8.toNat_xor, lowByte, lowByte, lowByte, UInt8.toNat_ofNat', UInt8.toNat_ofNat',
    UInt8.toNat_ofNat', UInt16.toNat_xor, Nat.mod_mod, Nat.mod_mod, Nat.mod_mod]
  exact Nat.xor_mod_two_pow (n := 8)

theorem highByte_xor (v w : UInt16) : highByte (v ^^^ w) = highByte v ^^^ highByte w := by
  apply UInt8.toNat_inj.mp
  rw [UInt8.toNat_xor, highByte, highByte, highByte, UInt8.toNat_ofNat', UInt8.toNat_ofNat',
    UInt8.toNat_ofNat', UInt16.toNat_xor, ← Nat.xor_mod_two_pow]
  exact congrArg (· % 2 ^ 8) (Nat.xor_div_two_pow (n := 8))

theorem crc16_top (bs : List UInt8) (b : UInt8) :
    crc16 (bs ++ [b ^^^ 0x80]) = crc16 (bs ++ [b]) ^^^ 0xA001 := by
  have htop : Crc.steps polynomial 8 ((0x80 : UInt8).toBitVec.setWidth 16) = 0xA001#16 := by
    decide
  apply UInt16.toBitVec_inj.mp
  rw [crc16_eq, UInt16.toBitVec_xor, crc16_eq, Crc.checksum_append, Crc.checksum_append]
  show Crc.steps polynomial 8 _ = Crc.steps polynomial 8 _ ^^^ _
  rw [UInt8.toBitVec_xor, BitVec.setWidth_xor, ← BitVec.xor_assoc, Crc.steps_xor, htop]
  rfl

/-- With the top bit of its low byte, a register takes four bits with it. -/
theorem flips_register (q : Request) (ws : List UInt16) (w : UInt16) :
    Crc.flips (registerFrame q (ws ++ [w])) (registerFrame q (ws ++ [w ^^^ 0x80])) = 4 := by
  have hbody : ∀ v : UInt16, registerFrame q (ws ++ [v]) =
      withCrc ((q.slave :: q.fnRead :: UInt8.ofNat (2 * (ws.length + 1)) :: registerBytes ws ++
        [highByte v]) ++ [lowByte v]) := by
    intro v
    rw [registerFrame, registerBytes, List.flatMap_append, ← registerBytes, List.length_append]
    simp
  have hlow : lowByte (w ^^^ 0x80) = lowByte w ^^^ 0x80 := lowByte_xor w 0x80
  have hhigh : highByte (w ^^^ 0x80) = highByte w := (highByte_xor w 0x80).trans UInt8.xor_zero
  rw [hbody, hbody, hlow, hhigh, withCrc, withCrc, crc16_top, lowByte_xor, highByte_xor]
  generalize q.slave :: q.fnRead :: UInt8.ofNat (2 * (ws.length + 1)) :: registerBytes ws ++
    [highByte w] = bs
  generalize crc16 (bs ++ [lowByte w]) = crc
  -- the low byte of the register, and both bytes of the checksum
  have hcrc : Crc.flips [lowByte crc, highByte crc]
      [lowByte crc ^^^ lowByte 0xA001, highByte crc ^^^ highByte 0xA001] = 3 := by
    have := @Crc.flips_append [lowByte crc] [lowByte crc ^^^ lowByte 0xA001] rfl [highByte crc]
      [highByte crc ^^^ highByte 0xA001]
    rw [Crc.flips_byte, Crc.flips_byte] at this
    exact this.trans (by decide)
  rw [Crc.flips_append (by rw [List.length_append, List.length_append]; rfl),
    Crc.flips_append rfl, Crc.flips_self, Crc.flips_byte, hcrc]
  decide

/-- **The distance of the replies is four**: behind the count an odd number of flipped bits,
or two, are always reported, and four need not be. -/
theorem distance_four (q : Request) (ws : List UInt16) (hfn : ReadsRegisters q.fnRead)
    (h1 : 1 ≤ ws.length) (h125 : ws.length ≤ 125) :
    (∀ frame', Flipped (registerFrame q ws) frame' →
      (Crc.flips (registerFrame q ws) frame' % 2 = 1 ∨
        Crc.flips (registerFrame q ws) frame' = 2) →
      ∀ (x : Exchange) (m : Master) rest, m.rx ++ x.arrive = frame' ++ rest →
        x.late = Adu.never → masterTransaction q x m = (ku8MBInvalidCRC, ⟨rest, m.buf⟩)) ∧
    ∃ ws', ws' ≠ ws ∧ Flipped (registerFrame q ws) (registerFrame q ws') ∧
      Crc.flips (registerFrame q ws) (registerFrame q ws') = 4 ∧
      ∀ (x : Exchange) (m : Master) rest, m.rx ++ x.arrive = registerFrame q ws' ++ rest →
        x.late = Adu.never → (masterTransaction q x m).1 = ku8MBSuccess ∧
          ∀ i < ws.length, (masterTransaction q x m).2.buf[i]? = ws'[i]? := by
  refine ⟨fun frame' h hflips x m rest hstream hlate => h.reported hfn h125 hflips hstream hlate,
    ?_⟩
  obtain ⟨init, w, rfl⟩ : ∃ init w, ws = init ++ [w] := by
    have hne : ws ≠ [] := List.ne_nil_of_length_pos h1
    exact ⟨_, _, (List.dropLast_append_getLast hne).symm⟩
  have hlen : (init ++ [w ^^^ 0x80]).length = (init ++ [w]).length := by
    rw [List.length_append, List.length_append]
    rfl
  refine ⟨init ++ [w ^^^ 0x80], ?_, ⟨?_, ?_⟩, flips_register q init w, ?_⟩
  · intro heq
    have hw : w ^^^ 0x80 = w := by
      have := List.append_cancel_left heq
      exact List.head_eq_of_cons_eq this
    have hzero : (0x80 : UInt16) = 0 :=
      (UInt16.xor_right_inj w).mp (hw.trans UInt16.xor_zero.symm)
    exact absurd hzero (by decide)
  · rw [registerFrame_length, registerFrame_length, hlen]
  · show [q.slave, q.fnRead, UInt8.ofNat (2 * (init ++ [w ^^^ 0x80]).length)] = _
    rw [hlen]
    rfl
  · intro x m rest hstream hlate
    obtain ⟨hok, _, hbuf⟩ := masterTransaction_registers hfn (by omega) (by omega) hstream hlate
    refine ⟨hok, fun i hi => ?_⟩
    rw [Vector.getElem?_eq_getElem (by omega), hbuf i (by omega), dif_pos (by omega),
      List.getElem?_eq_getElem]

/-- A register that is 0: three flips are reported, and there are four that are not. -/
theorem distance_four_one :
    masterTransaction ⟨1, 0, 1, 3⟩ (delivers [1, 3, 2, 0, 7, 0xB8, 0x44]) .idle =
        (ku8MBInvalidCRC, .idle) ∧
      ∃ ws, ws ≠ [0] ∧
        Crc.flips (registerFrame ⟨1, 0, 1, 3⟩ [0]) (registerFrame ⟨1, 0, 1, 3⟩ ws) = 4 ∧
        (masterTransaction ⟨1, 0, 1, 3⟩ (delivers (registerFrame ⟨1, 0, 1, 3⟩ ws)) .idle).1 =
          ku8MBSuccess := by
  obtain ⟨hreported, ws, hne, _, hfour, hok⟩ :=
    distance_four ⟨1, 0, 1, 3⟩ [0] (Or.inl rfl) (by decide) (by decide)
  refine ⟨hreported [1, 3, 2, 0, 7, 0xB8, 0x44] ⟨?_, ?_⟩ (Or.inl ?_) _ _ [] ?_ rfl, ws, hne, hfour,
    ?_⟩
  · rw [registerFrame_zero]
    rfl
  · rw [registerFrame_zero]
    rfl
  · rw [registerFrame_zero]
    decide
  · exact (List.append_nil _).symm
  · exact (hok (delivers _) .idle [] (List.append_nil _).symm rfl).1

end EnresLogger
