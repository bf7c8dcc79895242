import EnresLogger.Modbus

/-!
# Replies

The frames a slave answers with: its registers, or an exception.

`masterTransaction_registers` is the round trip: a call that finds a register
frame at the head of its stream, in time, succeeds, takes exactly this frame and
leaves its registers in the response buffer.  `masterTransaction_part` is the
other direction: a call to which no more than the beginning of a register frame
arrives succeeds only if that is all of it.
-/

namespace EnresLogger

open Lib

/-! ### Frames -/

/-- The functions whose reply is a count and registers. -/
def ReadsRegisters (fn : UInt8) : Prop := fn = 0x03 ∨ fn = 0x04 ∨ fn = 0x17

def registerBytes (ws : List UInt16) : List UInt8 := ws.flatMap fun w => [highByte w, lowByte w]

def registerFrame (q : Request) (ws : List UInt16) : List UInt8 :=
  withCrc (q.slave :: q.fnRead :: UInt8.ofNat (2 * ws.length) :: registerBytes ws)

def exceptionFrame (q : Request) (code : UInt8) : List UInt8 :=
  withCrc [q.slave, q.fnRead ||| 0x80, code]

@[simp] theorem registerBytes_length (ws : List UInt16) :
    (registerBytes ws).length = 2 * ws.length := by
  induction ws with
  | nil => rfl
  | cons w ws ih =>
    rw [registerBytes, List.flatMap_cons, List.length_append, ← registerBytes, ih]
    simp only [List.length_cons, List.length_nil]
    omega

@[simp] theorem withCrc_length (bs : List UInt8) : (withCrc bs).length = bs.length + 2 := by
  simp [withCrc]

theorem registerFrame_length (q : Request) (ws : List UInt16) :
    (registerFrame q ws).length = 2 * ws.length + 5 := by
  simp [registerFrame]

theorem registerBytes_get {ws : List UInt16} {i : Nat} (hi : i < ws.length) :
    (registerBytes ws)[2 * i]? = some (highByte ws[i]) ∧
      (registerBytes ws)[2 * i + 1]? = some (lowByte ws[i]) := by
  induction ws generalizing i with
  | nil => exact absurd hi (Nat.not_lt_zero i)
  | cons w ws ih =>
    rw [registerBytes, List.flatMap_cons, ← registerBytes]
    cases i with
    | zero => exact ⟨rfl, rfl⟩
    | succ i =>
      simp only [List.length_cons, Nat.add_lt_add_iff_right] at hi
      exact ih hi

theorem registerFrame_get {q : Request} {ws : List UInt16} {i : Nat} (hi : i < ws.length) :
    (registerFrame q ws)[2 * i + 3]? = some (highByte ws[i]) ∧
      (registerFrame q ws)[2 * i + 4]? = some (lowByte ws[i]) := by
  obtain ⟨hhigh, hlow⟩ := registerBytes_get hi
  have hframe : ∀ k < 2 * ws.length, (registerFrame q ws)[k + 3]? = (registerBytes ws)[k]? := by
    intro k hk
    exact List.getElem?_append_left (by
      simp only [List.length_cons, registerBytes_length]
      omega)
  rw [hframe _ (by omega), show 2 * i + 4 = 2 * i + 1 + 3 by omega, hframe _ (by omega)]
  exact ⟨hhigh, hlow⟩

namespace Adu

variable {q : Request} {late : Nat → Bool} {stack : Nat → UInt8} {ws : List UInt16}

/-! ### Receiving a frame -/

theorem reads_start (q : Request) (stack : Nat → UInt8) : (start q stack).Reads [] :=
  ⟨rfl, rfl, fun _ h => absurd h (Nat.not_lt_zero _)⟩

theorem Reads.puts {a : Adu} {frame bs : List UInt8} (h : a.Reads frame)
    (hroom : frame.length + bs.length ≤ 255) : (a.puts bs).Reads (frame ++ bs) := by
  have hsize : a.size + bs.length ≤ 255 := by rw [h.size]; exact hroom
  refine ⟨by rw [puts_size hsize, h.size, List.length_append], by rw [puts_status, h.status],
    fun i hi => ?_⟩
  rw [List.getElem_append]
  split
  · rename_i hlt
    rw [puts_bytes_lt hsize (by rw [h.size]; exact hlt), h.bytes i hlt]
  · rename_i hge
    rw [List.length_append] at hi
    have hput := puts_bytes hsize (show i - frame.length < bs.length by omega)
    rw [h.size, Nat.add_sub_cancel' (Nat.not_lt.mp hge)] at hput
    exact hput

theorem evaluate_registers {a : Adu} (hfn : ReadsRegisters q.fnRead) (hsize : a.size = 5)
    (h₀ : a.bytes 0 = q.slave) (h₁ : a.bytes 1 = q.fnRead) :
    a.evaluate q = (false, { a with left := (a.bytes 2).toNat }) := by
  rw [evaluate, if_neg (not_not_intro hsize), if_neg (not_not_intro h₀), h₁]
  rcases hfn with hfn | hfn | hfn <;>
  · rw [hfn]
    rfl

theorem receive_registers (hfn : ReadsRegisters q.fnRead) (h1 : 1 ≤ ws.length)
    (h2 : ws.length ≤ 125) {r : List UInt8}
    (hfine : late = never ∧ 2 * ws.length ≤ r.length ∨
      (receive q late 0 ((registerFrame q ws).take 5 ++ r) (start q stack)).1.status =
        ku8MBSuccess) :
    2 * ws.length ≤ r.length ∧ ∃ a,
      receive q late 0 ((registerFrame q ws).take 5 ++ r) (start q stack) =
        (a, r.drop (2 * ws.length)) ∧
      a.Reads ((registerFrame q ws).take 5 ++ r.take (2 * ws.length)) := by
  obtain ⟨w, ws', rfl⟩ : ∃ w ws', ws = w :: ws' := List.exists_cons_of_length_pos h1
  have hfive : (registerFrame q (w :: ws')).take 5 = [q.slave, q.fnRead,
      UInt8.ofNat (2 * (w :: ws').length), highByte w, lowByte w] := rfl
  generalize (w :: ws').length = n at *
  rw [hfive] at hfine ⊢
  have hreads : ((start q stack).puts [q.slave, q.fnRead, UInt8.ofNat (2 * n), highByte w,
      lowByte w]).Reads [q.slave, q.fnRead, UInt8.ofNat (2 * n), highByte w, lowByte w] :=
    (reads_start q stack).puts (by simp)
  have heval := evaluate_registers hfn hreads.size (hreads.bytes 0 (by simp))
    (hreads.bytes 1 (by simp))
  have hcount : (((start q stack).puts [q.slave, q.fnRead, UInt8.ofNat (2 * n), highByte w,
      lowByte w]).bytes 2).toNat = 2 * n := by
    rw [hreads.bytes 2 (by simp)]
    show (UInt8.ofNat (2 * n)).toNat = 2 * n
    rw [UInt8.toNat_ofNat']
    omega
  rw [hcount] at heval
  simp only [List.cons_append, List.nil_append] at hfine ⊢
  have hhead := receive_header (hfine.imp_left And.left)
  rw [heval] at hhead
  simp only [Bool.false_eq_true, if_false] at hhead
  rw [hhead] at hfine ⊢
  -- what is left is the body
  generalize (start q stack).puts _ = a at hreads hfine ⊢
  have hreads' : ({ a with left := 2 * n } : Adu).Reads _ :=
    ⟨hreads.size, hreads.status, hreads.bytes⟩
  obtain ⟨hlen, heq⟩ := receive_body (Nat.le_of_eq hreads'.size.symm)
    (by rw [hreads'.size]; show 5 + 2 * n ≤ 255; omega) hreads'.status hfine
  refine ⟨hlen, _, heq, hreads'.puts ?_⟩
  simp only [List.length_cons, List.length_nil, List.length_take]
  omega

theorem receive_registerFrame (hfn : ReadsRegisters q.fnRead) (h1 : 1 ≤ ws.length)
    (h2 : ws.length ≤ 125) (rest : List UInt8) :
    ∃ a, receive q never 0 (registerFrame q ws ++ rest) (start q stack) = (a, rest) ∧
      a.Reads (registerFrame q ws) := by
  have hlen := registerFrame_length q ws
  have hdrop : ((registerFrame q ws).drop 5).length = 2 * ws.length := by
    rw [List.length_drop, hlen]
    omega
  have hsplit : registerFrame q ws ++ rest =
      (registerFrame q ws).take 5 ++ ((registerFrame q ws).drop 5 ++ rest) := by
    rw [← List.append_assoc, List.take_append_drop]
  obtain ⟨_, a, heq, hreads⟩ := @receive_registers q never stack ws hfn h1 h2
    ((registerFrame q ws).drop 5 ++ rest) (Or.inl ⟨rfl, by rw [List.length_append]; omega⟩)
  rw [← hdrop, List.drop_left] at heq
  rw [← hdrop, List.take_left, List.take_append_drop] at hreads
  exact ⟨a, by rw [hsplit]; exact heq, hreads⟩

/-- Fewer than five bytes of a frame whose third byte is not 0 are not enough. -/
theorem receive_part_short {frame p : List UInt8} (hp : p <+: frame) (hshort : p.length < 5)
    (hcode : frame[2]? ≠ some 0) :
    (receive q late 0 p (start q stack)).1.status ≠ ku8MBSuccess := by
  refine receive_short (show 0 + p.length < 5 by omega) (show p.length < 8 by omega)
    (fun h4 h0 => hcode ?_)
  have h4 : p.length = 4 := by
    change 0 + p.length = 4 at h4
    omega
  have hreads := (reads_start q stack).puts (show [].length + p.length ≤ 255 by simp; omega)
  obtain ⟨t, rfl⟩ := hp
  rw [List.getElem?_append_left (by omega), List.getElem?_eq_getElem (by omega), ← h0]
  exact congrArg some (hreads.bytes 2 (by simp; omega)).symm

theorem receive_registerFrame_part (hfn : ReadsRegisters q.fnRead) (h1 : 1 ≤ ws.length)
    (h2 : ws.length ≤ 125) {p : List UInt8} (hp : p <+: registerFrame q ws)
    (hok : (receive q late 0 p (start q stack)).1.status = ku8MBSuccess) :
    p = registerFrame q ws ∧ ∃ a, receive q late 0 p (start q stack) = (a, []) ∧
      a.Reads (registerFrame q ws) := by
  have hlen := registerFrame_length q ws
  have hple := hp.length_le
  have hfive : 5 ≤ p.length := by
    by_contra hshort
    refine receive_part_short hp (by omega) ?_ hok
    show some (UInt8.ofNat (2 * ws.length)) ≠ some 0
    intro h0
    have := congrArg UInt8.toNat (Option.some.inj h0)
    rw [UInt8.toNat_ofNat', UInt8.toNat_zero] at this
    omega
  have hsplit : p = (registerFrame q ws).take 5 ++ p.drop 5 := by
    obtain ⟨t, ht⟩ := hp
    rw [← ht, List.take_append_of_le_length hfive, List.take_append_drop]
  rw [hsplit] at hok
  obtain ⟨hbody, a, heq, hreads⟩ := receive_registers hfn h1 h2 (Or.inr hok)
  rw [List.length_drop] at hbody
  have hall : p = registerFrame q ws := hp.eq_of_length_le (by omega)
  have hrest : (p.drop 5).length ≤ 2 * ws.length := by
    rw [List.length_drop]
    omega
  rw [← hsplit, List.drop_of_length_le hrest] at heq
  rw [List.take_of_length_le hrest, ← hsplit, hall] at hreads
  exact ⟨hall, a, heq, hreads⟩

theorem or_and_self (b c : UInt8) : (b ||| c) &&& c = c := by
  apply UInt8.toBitVec_inj.mp
  simp only [UInt8.toBitVec_and, UInt8.toBitVec_or]
  ext i hi
  simp only [BitVec.getElem_and, BitVec.getElem_or]
  cases b.toBitVec[i] <;> simp

theorem evaluate_exception {a : Adu} (hsize : a.size = 5) (h₁ : a.bytes 1 &&& 0x80 ≠ 0) :
    (a.evaluate q).1 = true := by
  rw [evaluate, if_neg (not_not_intro hsize)]
  split
  · rfl
  · split <;> rfl

theorem receive_exceptionFrame {code : UInt8} (hcode : code ≠ 0) {p : List UInt8}
    (hp : p <+: exceptionFrame q code) :
    (receive q late 0 p (start q stack)).1.status ≠ ku8MBSuccess := by
  intro hok
  by_cases hshort : p.length < 5
  · refine receive_part_short hp hshort ?_ hok
    intro h0
    exact hcode (Option.some.inj h0)
  · have hall : p = exceptionFrame q code := hp.eq_of_length_le (by simp [exceptionFrame]; omega)
    subst hall
    have hreads : ((start q stack).puts (exceptionFrame q code)).Reads (exceptionFrame q code) :=
      (reads_start q stack).puts (by simp [exceptionFrame])
    have hbreak : (((start q stack).puts (exceptionFrame q code)).evaluate q).1 = true := by
      refine evaluate_exception hreads.size ?_
      rw [hreads.bytes 1 (by simp [exceptionFrame])]
      show (q.fnRead ||| 0x80) &&& 0x80 ≠ 0
      rw [or_and_self]
      decide
    have hhead := receive_header (Or.inr hok)
    change receive q late 0 (exceptionFrame q code) _ =
      if (evaluate q (puts _ (exceptionFrame q code))).1 then
        ((evaluate q (puts _ (exceptionFrame q code))).2, []) else _ at hhead
    rw [hhead, if_pos hbreak] at hok
    have h₂ := evaluate_break hbreak hok
    rw [hreads.bytes 2 (by simp [exceptionFrame])] at h₂
    exact hcode h₂

/-! ### What is made of it -/

theorem Reads.verify_eq {a : Adu} {bs : List UInt8} {l h : UInt8} (hr : a.Reads (bs ++ [l, h]))
    (hlen : 3 ≤ bs.length) :
    a.verify = if lowByte (crc16 bs) ≠ l ∨ highByte (crc16 bs) ≠ h then ku8MBInvalidCRC
      else ku8MBSuccess := by
  have hframe : (bs ++ [l, h]).length = bs.length + 2 := by simp
  have hsize : a.size = bs.length + 2 := by rw [hr.size, hframe]
  have hbytes : (List.range (a.size - 2)).map a.bytes = bs := by
    refine List.ext_getElem (by simp [hsize]) (fun i h1 h2 => ?_)
    rw [List.getElem_map, List.getElem_range, hr.bytes i (by rw [hframe]; omega)]
    exact List.getElem_append_left h2
  have hlow : a.bytes (a.size - 2) = l := by
    rw [hsize, Nat.add_sub_cancel, hr.bytes _ (by rw [hframe]; omega)]
    simp
  have hhigh : a.bytes (a.size - 1) = h := by
    rw [hsize, show bs.length + 2 - 1 = bs.length + 1 by omega,
      hr.bytes _ (by rw [hframe]; omega)]
    simp
  rw [Adu.verify, if_pos ⟨hr.status, by omega⟩]
  simp only [hbytes, hlow, hhigh, hr.status]

theorem Reads.verify {a : Adu} {bs : List UInt8} (h : a.Reads (withCrc bs)) (hlen : 3 ≤ bs.length) :
    a.verify = ku8MBSuccess := by
  rw [Reads.verify_eq h hlen, if_neg (by simp)]

/-- **What is accepted ends with its checksum.** -/
theorem Reads.eq_withCrc {a : Adu} {bs : List UInt8} {l h : UInt8} (hr : a.Reads (bs ++ [l, h]))
    (hlen : 3 ≤ bs.length) (hok : a.verify = ku8MBSuccess) : bs ++ [l, h] = withCrc bs := by
  rw [hr.verify_eq hlen] at hok
  split at hok
  · exact absurd hok (show ku8MBInvalidCRC ≠ ku8MBSuccess by decide)
  · rename_i hcrc
    rw [not_or, not_not, not_not] at hcrc
    rw [withCrc, hcrc.1, hcrc.2]

theorem fill_get (buf : ResponseBuffer) (n : Nat) (w : Nat → UInt16) {i : Nat} (hi : i < 128) :
    (fill buf n w)[i] = if i < n then w i else buf[i] := by
  induction n with
  | zero => rfl
  | succ n ih =>
    rw [fill, List.range_succ, List.foldl_append, List.foldl_cons, List.foldl_nil, ← fill,
      Vector.getElem_setIfInBounds hi, ih]
    by_cases h : n = i
    · rw [if_pos h, if_pos (by omega), h]
    · rw [if_neg h]
      by_cases h' : i < n
      · rw [if_pos h', if_pos (by omega)]
      · rw [if_neg h', if_neg (by omega)]

theorem disassemble_registers {a : Adu} (hfn : ReadsRegisters (a.bytes 1)) (buf : ResponseBuffer) :
    a.disassemble buf = fill buf ((a.bytes 2).toNat / 2) fun i =>
      word (a.bytes (2 * i + 3)) (a.bytes (2 * i + 4)) := by
  rw [Adu.disassemble]
  rcases hfn with hfn | hfn | hfn <;>
  · rw [hfn]
    rfl

/-- **A register frame becomes its registers**, and the other words stay. -/
theorem Reads.disassemble {a : Adu} (hfn : ReadsRegisters q.fnRead) (h2 : ws.length ≤ 125)
    (h : a.Reads (registerFrame q ws)) (buf : ResponseBuffer) {i : Nat} (hi : i < 128) :
    (a.disassemble buf)[i] = if hw : i < ws.length then ws[i] else buf[i] := by
  have hlen := registerFrame_length q ws
  have h₁ : a.bytes 1 = q.fnRead := h.bytes 1 (by omega)
  have hcount : (a.bytes 2).toNat = 2 * ws.length := by
    rw [h.bytes 2 (by omega)]
    show (UInt8.ofNat (2 * ws.length)).toNat = 2 * ws.length
    rw [UInt8.toNat_ofNat']
    omega
  rw [disassemble_registers (by rw [h₁]; exact hfn), hcount, Nat.mul_div_cancel_left _ (by omega),
    fill_get _ _ _ hi]
  by_cases hw : i < ws.length
  · obtain ⟨hhigh, hlow⟩ := registerFrame_get (q := q) hw
    rw [List.getElem?_eq_getElem (by omega)] at hhigh hlow
    rw [if_pos hw, dif_pos hw, h.bytes _ (by omega), h.bytes _ (by omega), Option.some.inj hhigh,
      Option.some.inj hlow, word_bytes]
  · rw [if_neg hw, dif_neg hw]

end Adu

/-! ### Calls -/

theorem exists_four {l : List UInt8} (h : 4 ≤ l.length) :
    ∃ b₁ b₂ b₃ b₄ rest, l = b₁ :: b₂ :: b₃ :: b₄ :: rest := by
  rcases l with _ | ⟨b₁, _ | ⟨b₂, _ | ⟨b₃, _ | ⟨b₄, rest⟩⟩⟩⟩
  · exact absurd h (by decide)
  · exact absurd h (show ¬ 4 ≤ 1 by decide)
  · exact absurd h (show ¬ 4 ≤ 2 by decide)
  · exact absurd h (show ¬ 4 ≤ 3 by decide)
  · exact ⟨b₁, b₂, b₃, b₄, rest, rfl⟩

/-- The first words of the response buffer are these registers. -/
def Shows (buf : ResponseBuffer) (ws : List UInt16) : Prop :=
  ∀ i (h : i < ws.length), buf[i]? = some ws[i]

section Call

variable {q : Request} {x : Exchange} {m : Master} {ws : List UInt16}

theorem masterTransaction_reads {a : Adu} {rest : List UInt8}
    (hr : Adu.receive q x.late 0 (m.rx ++ x.arrive) (.start q x.stack) = (a, rest))
    (hreads : a.Reads (registerFrame q ws)) :
    masterTransaction q x m = (ku8MBSuccess, ⟨rest, a.disassemble m.buf⟩) := by
  rw [masterTransaction]
  simp only [hr, Adu.Reads.verify hreads (by simp), if_true]

/-- **A register frame at the head of the stream, in time, is accepted**: it is
taken from the stream, its registers come first in the response buffer, and the
other words stay. -/
theorem masterTransaction_registers (hfn : ReadsRegisters q.fnRead) (h1 : 1 ≤ ws.length)
    (h2 : ws.length ≤ 125) {rest : List UInt8}
    (hstream : m.rx ++ x.arrive = registerFrame q ws ++ rest) (hlate : x.late = Adu.never) :
    (masterTransaction q x m).1 = ku8MBSuccess ∧ (masterTransaction q x m).2.rx = rest ∧
      ∀ i (hi : i < 128), (masterTransaction q x m).2.buf[i] =
        if hw : i < ws.length then ws[i] else m.buf[i] := by
  obtain ⟨a, hr, hreads⟩ := @Adu.receive_registerFrame q x.stack ws hfn h1 h2 rest
  rw [← hstream, ← hlate] at hr
  rw [masterTransaction_reads hr hreads]
  exact ⟨rfl, rfl, fun i hi => hreads.disassemble hfn h2 m.buf hi⟩

/-- **No more than the beginning of a register frame**: success means that it
was all of it. -/
theorem masterTransaction_part (hfn : ReadsRegisters q.fnRead) (h1 : 1 ≤ ws.length)
    (h2 : ws.length ≤ 125) (hp : m.rx ++ x.arrive <+: registerFrame q ws)
    (hok : (masterTransaction q x m).1 = ku8MBSuccess) :
    (masterTransaction q x m).2.rx = [] ∧ Shows (masterTransaction q x m).2.buf ws := by
  obtain ⟨_, a, hr, hreads⟩ :=
    Adu.receive_registerFrame_part hfn h1 h2 hp (Adu.verify_success hok)
  rw [masterTransaction_reads hr hreads]
  refine ⟨rfl, fun i hi => ?_⟩
  have hi' : i < 128 := by omega
  rw [Vector.getElem?_eq_getElem hi', hreads.disassemble hfn h2 m.buf hi', dif_pos hi]

theorem masterTransaction_exception {code : UInt8} (hcode : code ≠ 0)
    (hp : m.rx ++ x.arrive <+: exceptionFrame q code) :
    (masterTransaction q x m).1 ≠ ku8MBSuccess := fun hok =>
  Adu.receive_exceptionFrame hcode hp (Adu.verify_success hok)

theorem masterTransaction_slave {b₀ b₁ b₂ b₃ b₄ : UInt8} {rest : List UInt8}
    (hstream : m.rx ++ x.arrive = b₀ :: b₁ :: b₂ :: b₃ :: b₄ :: rest) (hslave : b₀ ≠ q.slave)
    (hlate : x.late = Adu.never) :
    masterTransaction q x m = (ku8MBInvalidSlaveID, ⟨rest, m.buf⟩) := by
  have heval : ((Adu.start q x.stack).puts [b₀, b₁, b₂, b₃, b₄]).evaluate q =
      (true, { (Adu.start q x.stack).puts [b₀, b₁, b₂, b₃, b₄] with
        status := ku8MBInvalidSlaveID }) := if_pos hslave
  have hr : Adu.receive q x.late 0 (m.rx ++ x.arrive) (.start q x.stack) =
      ({ (Adu.start q x.stack).puts [b₀, b₁, b₂, b₃, b₄] with status := ku8MBInvalidSlaveID },
        rest) := by
    rw [hstream, Adu.receive_header (Or.inl hlate), heval, if_pos rfl]
  rw [masterTransaction]
  simp only [hr]
  rfl

end Call

end EnresLogger
