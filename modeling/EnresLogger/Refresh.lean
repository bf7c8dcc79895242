import EnresLogger.Accept

/-!
# What a success refreshes

A reply is a frame with its checksum, alone on the line.  `refreshed_iff` says
which replies can be trusted: whether the call succeeds does not depend on
`readQty`, so a reply with fewer registers is accepted, and an exception with
code 0 too, and the words of an earlier call stay behind.

`reply_decoded` is the other direction, the reply with the registers asked for.
-/

namespace EnresLogger

open Lib

/-- A frame as it is sent: as many data as the count says, or an exception. -/
structure ReplyFrame where
  slave : UInt8
  fn : UInt8
  count : UInt8
  data : List UInt8
  complete : data.length = count.toNat ∨ fn &&& 0x80 ≠ 0 ∧ data = []

def ReplyFrame.frame (r : ReplyFrame) : List UInt8 := withCrc (r.slave :: r.fn :: r.count :: r.data)

/-- Success says that the reply is that of the request, and that the registers
asked for are those of the reply. -/
def Refreshed (q : Request) (r : ReplyFrame) (x : Exchange) (m : Master) : Prop :=
  (masterTransaction q x m).1 = ku8MBSuccess →
    (r.slave = q.slave ∧ r.fn = q.fnRead ∧ r.count.toNat = 2 * q.readQty.toNat) ∧
    ∀ i < q.readQty.toNat, ∃ h l, r.data[2 * i]? = some h ∧ r.data[2 * i + 1]? = some l ∧
      (masterTransaction q x m).2.buf[i]? = some (word h l)

/-- What is accepted without being the reply to the request. -/
def Stale (q : Request) (r : ReplyFrame) : Prop :=
  r.slave = q.slave ∧ (r.fn = q.fnRead ∧ r.count.toNat ≠ 2 * q.readQty.toNat ∨
    r.fn = q.fnRead ||| 0x80 ∧ r.count = 0)

instance (q : Request) (r : ReplyFrame) : Decidable (Stale q r) :=
  inferInstanceAs (Decidable (_ ∧ (_ ∨ _)))

namespace ReplyFrame

theorem frame_eq (r : ReplyFrame) : r.frame = r.slave :: r.fn :: r.count :: (r.data ++
    [lowByte (crc16 (r.slave :: r.fn :: r.count :: r.data)),
      highByte (crc16 (r.slave :: r.fn :: r.count :: r.data))]) := rfl

theorem frame_length (r : ReplyFrame) : r.frame.length = r.data.length + 5 := by
  simp only [frame, withCrc_length, List.length_cons]

theorem length_of_normal {r : ReplyFrame} (h : r.fn &&& 0x80 = 0) : r.data.length = r.count.toNat :=
  r.complete.resolve_right fun hexc => hexc.1 h

theorem data_of_count {r : ReplyFrame} (h : r.count = 0) : r.data = [] := by
  rcases r.complete with hlen | ⟨_, hdata⟩
  · rw [h] at hlen
    exact List.eq_nil_of_length_eq_zero hlen
  · exact hdata

end ReplyFrame

section ReplyFrame

variable {q : Request} {r : ReplyFrame} {x : Exchange} {m : Master}

theorem readsRegisters_normal {fn : UInt8} (h : ReadsRegisters fn) : fn &&& 0x80 = 0 := by
  rcases h with rfl | rfl | rfl <;> decide

theorem Adu.dataLength_registers {fn : UInt8} (h : ReadsRegisters fn) (c : UInt8) :
    Adu.dataLength fn c = c.toNat := by
  rcases h with rfl | rfl | rfl <;> rfl

theorem Adu.receive_noCode {stack : Nat → UInt8} {fn b₃ b₄ : UInt8} (h : Adu.NoCode q fn)
    (rest : List UInt8) :
    ∃ a, Adu.receive q Adu.never 0 (q.slave :: fn :: 0 :: b₃ :: b₄ :: rest) (.start q stack) =
        (a, rest) ∧ a.Reads [q.slave, fn, 0, b₃, b₄] := by
  have hreads : ((Adu.start q stack).puts [q.slave, fn, 0, b₃, b₄]).Reads
      [q.slave, fn, 0, b₃, b₄] := (Adu.reads_start q stack).puts (by simp)
  have heval := Adu.evaluate_noCode h hreads.size (hreads.bytes 0 (by simp))
    (hreads.bytes 1 (by simp)) (hreads.bytes 2 (by simp)) hreads.status
  refine ⟨_, ?_, hreads⟩
  rw [Adu.receive_header (Or.inl rfl), heval, if_pos rfl]

/-- A reply that ends in success is normal, or an exception with code 0. -/
theorem ReplyFrame.of_success (hstream : m.rx ++ x.arrive = r.frame)
    (hok : (masterTransaction q x m).1 = ku8MBSuccess) :
    r.slave = q.slave ∧ (r.fn = q.fnRead ∨ r.fn = q.fnRead ||| 0x80 ∧ r.count = 0) := by
  have hlen := r.frame_length
  rw [← hstream] at hlen
  rw [r.frame_eq] at hstream
  rcases Adu.receive_success (Adu.verify_success hok) with
    ⟨c, b₃, b₄, rest, hs, _⟩ | ⟨fn, b₃, b₄, rest, hs, hno, _⟩ | ⟨fn, b₃, hs, _⟩
  · rw [hs] at hstream
    simp only [List.cons.injEq] at hstream
    exact ⟨hstream.1.symm, Or.inl hstream.2.1.symm⟩
  · rw [hs] at hstream
    simp only [List.cons.injEq] at hstream
    exact ⟨hstream.1.symm, Or.inr ⟨hstream.2.1.symm.trans hno.fn_eq, hstream.2.2.1.symm⟩⟩
  · rw [hs] at hlen
    simp only [List.length_cons, List.length_nil] at hlen
    omega

theorem Adu.Reads.disassemble_reply {a : Adu} (hfn : ReadsRegisters q.fnRead)
    (hr : r.fn = q.fnRead) (h : a.Reads r.frame) (buf : ResponseBuffer) {i : Nat} (hi : i < 128) :
    (i < r.count.toNat / 2 → ∃ hb lb, r.data[2 * i]? = some hb ∧ r.data[2 * i + 1]? = some lb ∧
      (a.disassemble buf)[i] = word hb lb) ∧
    (r.count.toNat / 2 ≤ i → (a.disassemble buf)[i] = buf[i]) := by
  have hlen := r.frame_length
  have hdata : r.data.length = r.count.toNat :=
    ReplyFrame.length_of_normal (by rw [hr]; exact readsRegisters_normal hfn)
  have h₁ : a.bytes 1 = q.fnRead := (h.bytes 1 (by omega)).trans hr
  have h₂ : a.bytes 2 = r.count := h.bytes 2 (by omega)
  have hget : ∀ k (hk : k < r.data.length), a.bytes (k + 3) = r.data[k] := by
    intro k hk
    rw [h.bytes (k + 3) (by omega)]
    exact List.getElem_append_left hk
  rw [Adu.disassemble_registers (by rw [h₁]; exact hfn), h₂, Adu.fill_get _ _ _ hi]
  constructor
  · intro hlt
    refine ⟨r.data[2 * i], r.data[2 * i + 1], List.getElem?_eq_getElem _,
      List.getElem?_eq_getElem _, ?_⟩
    rw [if_pos hlt, hget (2 * i) (by omega), ← hget (2 * i + 1) (by omega)]
  · intro hge
    exact if_neg (by omega)

/-- What is accepted is a reply to the request unless it is stale. -/
theorem Refreshed.of_not_stale (hfn : ReadsRegisters q.fnRead) (h125 : q.readQty.toNat ≤ 125)
    (hstream : m.rx ++ x.arrive = r.frame) (hlate : x.late = Adu.never) (hstale : ¬ Stale q r) :
    Refreshed q r x m := by
  intro hok
  obtain ⟨hslave, hcase⟩ := ReplyFrame.of_success hstream hok
  have hr : r.fn = q.fnRead := by
    rcases hcase with hr | hexc
    · exact hr
    · exact absurd ⟨hslave, Or.inr hexc⟩ hstale
  have hcount : r.count.toNat = 2 * q.readQty.toNat := by
    by_contra hne
    exact hstale ⟨hslave, Or.inl ⟨hr, hne⟩⟩
  have hbit := readsRegisters_normal hfn
  have hdata : r.data.length = r.count.toNat := ReplyFrame.length_of_normal (by rw [hr]; exact hbit)
  have hframe : r.frame = withCrc (q.slave :: q.fnRead :: r.count :: r.data) := by
    rw [← hslave, ← hr]
    rfl
  obtain ⟨a, hcall, hreads⟩ := @masterTransaction_frame q x m r.count r.data [] hbit
    (by rw [hdata, Adu.dataLength_registers hfn]) (by omega)
    (by rw [hstream, hframe, List.append_nil]) hlate
  rw [← hframe] at hreads
  refine ⟨⟨hslave, hr, hcount⟩, fun i hi => ?_⟩
  have hi' : i < 128 := by omega
  obtain ⟨h, l, hh, hl, hword⟩ := (hreads.disassemble_reply hfn hr m.buf hi').1 (by omega)
  refine ⟨h, l, hh, hl, ?_⟩
  rw [hcall, Vector.getElem?_eq_getElem hi', hword]

theorem Stale.accepted (hfn : ReadsRegisters q.fnRead) (h250 : r.count.toNat ≤ 250)
    (hstream : m.rx ++ x.arrive = r.frame) (hlate : x.late = Adu.never) (hstale : Stale q r) :
    (masterTransaction q x m).1 = ku8MBSuccess := by
  obtain ⟨hslave, ⟨hr, _⟩ | ⟨hr, hcount⟩⟩ := hstale
  · -- a normal reply
    have hbit := readsRegisters_normal hfn
    have hdata := ReplyFrame.length_of_normal (r := r) (by rw [hr]; exact hbit)
    have hframe : r.frame = withCrc (q.slave :: q.fnRead :: r.count :: r.data) := by
      rw [← hslave, ← hr]
      rfl
    obtain ⟨a, hcall, _⟩ := @masterTransaction_frame q x m r.count r.data [] hbit
      (by rw [hdata, Adu.dataLength_registers hfn]) (by omega)
      (by rw [hstream, hframe, List.append_nil]) hlate
    rw [hcall]
  · -- an exception
    have hno : Adu.NoCode q r.fn := by
      refine ⟨?_, ?_⟩
      · rw [hr, or_bit_and, and_low (readsRegisters_normal hfn)]
      · rw [hr, Adu.or_and_self]
        decide
    have hframe : r.frame = withCrc [q.slave, r.fn, 0] := by
      rw [ReplyFrame.frame, ReplyFrame.data_of_count hcount, hslave, hcount]
    obtain ⟨a, hcall, hreads⟩ := @Adu.receive_noCode q x.stack r.fn _ _ hno []
    have hr : Adu.receive q x.late 0 (m.rx ++ x.arrive) (.start q x.stack) = (a, []) := by
      rw [hstream, hframe, hlate]
      exact hcall
    replace hreads : a.Reads (withCrc [q.slave, r.fn, 0]) := hreads
    rw [(masterTransaction_rx hr).1, hreads.verify (by simp)]

end ReplyFrame

/-- **Success says that the registers asked for are there unless the reply is
stale**: it has another number of registers, or is an exception with code 0. -/
theorem refreshed_iff (q : Request) (hfn : q.fnRead = 3 ∨ q.fnRead = 4)
    (hqty : 1 ≤ q.readQty.toNat ∧ q.readQty.toNat ≤ 125) (r : ReplyFrame)
    (h250 : r.count.toNat ≤ 250) (x : Exchange) (m : Master) (hrx : m.rx = [])
    (harrive : x.arrive = r.frame) (hlate : x.late = Adu.never) :
    Refreshed q r x m ↔ ¬ Stale q r := by
  have hreads : ReadsRegisters q.fnRead := hfn.imp_right Or.inl
  have hstream : m.rx ++ x.arrive = r.frame := by rw [hrx, harrive, List.nil_append]
  constructor
  · rintro h hstale
    obtain ⟨⟨hslave, hr, hcount⟩, _⟩ := h (hstale.accepted hreads h250 hstream hlate)
    obtain ⟨_, ⟨_, hne⟩ | ⟨hexc, _⟩⟩ := hstale
    · exact hne hcount
    · -- bit 7 is not in the function of the request
      have hbit := readsRegisters_normal hreads
      rw [← hr, hexc, Adu.or_and_self] at hbit
      exact absurd hbit (by decide)
  · exact Refreshed.of_not_stale hreads hqty.2 hstream hlate

/-- A reply with no register, to a call for one. -/
def noRegister : ReplyFrame := ⟨1, 3, 0, [], Or.inl rfl⟩

theorem not_refreshed :
    ¬ Refreshed ⟨1, 0, 1, 3⟩ noRegister (delivers noRegister.frame) .idle := by
  intro h
  have hstale : Stale ⟨1, 0, 1, 3⟩ noRegister := by decide
  obtain ⟨⟨_, _, hcount⟩, _⟩ := h (hstale.accepted (Or.inl rfl) (by decide) rfl rfl)
  exact absurd hcount (by decide)

/-- One register, asked for and sent. -/
theorem refreshed_one : Refreshed ⟨1, 0, 1, 3⟩ ⟨1, 3, 2, [0x12, 0x34], Or.inl rfl⟩
    (delivers (withCrc [1, 3, 2, 0x12, 0x34])) .idle :=
  (refreshed_iff ⟨1, 0, 1, 3⟩ (Or.inl rfl) (by decide) ⟨1, 3, 2, [0x12, 0x34], Or.inl rfl⟩
    (by decide) (delivers (withCrc [1, 3, 2, 0x12, 0x34])) .idle rfl rfl rfl).mpr (by decide)

/-- **Every register reply is accepted and decoded**: the call takes its
`2 * n + 5` bytes, and of the response buffer the first `n` words are the
registers and the others stay. -/
theorem reply_decoded (q : Request) (ws : List UInt16) (hfn : ReadsRegisters q.fnRead)
    (h1 : 1 ≤ ws.length) (h125 : ws.length ≤ 125) (rest : List UInt8) (x : Exchange) (m : Master)
    (hrx : m.rx = []) (harrive : x.arrive = registerFrame q ws ++ rest)
    (hlate : x.late = Adu.never) :
    (masterTransaction q x m).1 = ku8MBSuccess ∧
      (∃ taken, taken.length = 2 * ws.length + 5 ∧
        x.arrive = taken ++ (masterTransaction q x m).2.rx) ∧
      ∀ i (hi : i < 128), (masterTransaction q x m).2.buf[i] =
        if hw : i < ws.length then ws[i] else m.buf[i] := by
  obtain ⟨hok, hrest, hbuf⟩ := masterTransaction_registers hfn h1 h125
    (show m.rx ++ x.arrive = registerFrame q ws ++ rest by rw [hrx, harrive, List.nil_append])
    hlate
  refine ⟨hok, ⟨registerFrame q ws, registerFrame_length q ws, ?_⟩, hbuf⟩
  rw [hrest, harrive]

theorem reply_decoded_two :
    (masterTransaction ⟨1, 0, 2, 3⟩ (delivers (registerFrame ⟨1, 0, 2, 3⟩ [0x1234, 0x5678]))
      .idle).1 = ku8MBSuccess :=
  (reply_decoded ⟨1, 0, 2, 3⟩ [0x1234, 0x5678] (Or.inl rfl) (by decide) (by decide) []
    (delivers (registerFrame ⟨1, 0, 2, 3⟩ [0x1234, 0x5678])) .idle rfl (List.append_nil _).symm
    rfl).1

end EnresLogger
