import EnresLogger.Frame
import Mathlib.Data.Nat.Bitwise

/-!
# What success says

`receive_success` lists the streams a call can end in success on, whatever the
bytes are: a normal reply, an exception with code 0, and four bytes of one.  In
the last case the read for the fifth byte is in vain, but the counter goes on, so
the loop sees the header with a byte of the request in the fifth place.

The counter of the loop has 8 bits.  With a count byte of 251 or more it comes
back to 0, and the checksum, which is only looked at when there are five bytes,
is not looked at: `receive_normal`, `verified_iff`.
-/

namespace EnresLogger

open Lib

/-! ### Bit 7 -/

theorem and_split (b : UInt8) : (b &&& 0x7F) ||| (b &&& 0x80) = b := by
  apply UInt8.toBitVec_inj.mp
  simp only [UInt8.toBitVec_or, UInt8.toBitVec_and]
  rw [← BitVec.and_or_distrib_left]
  exact BitVec.and_allOnes

theorem and_low {b : UInt8} (h : b &&& 0x80 = 0) : b &&& 0x7F = b := by
  have hsplit := and_split b
  rw [h, UInt8.or_zero] at hsplit
  exact hsplit

theorem and_bit (b : UInt8) : b &&& 0x80 = 0 ∨ b &&& 0x80 = 0x80 := by
  have hbit : (b &&& 0x80).toNat = 2 ^ 7 * (b.toNat.testBit 7).toNat := by
    rw [UInt8.toNat_and, Nat.and_comm]
    exact Nat.two_pow_and b.toNat 7
  cases hb : b.toNat.testBit 7 with
  | false =>
    refine Or.inl (UInt8.toNat_inj.mp ?_)
    rw [hbit, hb]
    rfl
  | true =>
    refine Or.inr (UInt8.toNat_inj.mp ?_)
    rw [hbit, hb]
    rfl

namespace Adu

variable {q : Request} {late : Nat → Bool} {stack : Nat → UInt8}

/-! ### The header -/

/-- `u8BytesLeft` behind a normal header: five of the eight bytes are there. -/
def dataLength (fn count : UInt8) : Nat :=
  match fn with
  | 0x01 | 0x02 | 0x04 | 0x03 | 0x17 => count.toNat
  | 0x05 | 0x0F | 0x06 | 0x10 => 3
  | 0x16 => 5
  | _ => 3

theorem dataLength_le (fn count : UInt8) : dataLength fn count ≤ 255 := by
  have hcount : count.toNat < 256 := count.toNat_lt
  unfold dataLength
  split <;> omega

theorem dataLength_of_ne {fn count : UInt8} (h : dataLength fn count ≠ count.toNat) :
    dataLength fn count ≤ 5 := by
  unfold dataLength at h ⊢
  split at h <;> omega

theorem evaluate_normal {a : Adu} (hsize : a.size = 5) (hleft : a.left = 3)
    (h₀ : a.bytes 0 = q.slave) (h₁ : a.bytes 1 = q.fnRead) (hfn : q.fnRead &&& 0x80 = 0) :
    a.evaluate q = (false, { a with left := dataLength q.fnRead (a.bytes 2) }) := by
  rw [evaluate, if_neg (not_not_intro hsize), if_neg (not_not_intro h₀), h₁,
    if_neg (not_not_intro (and_low hfn)), if_neg (not_not_intro hfn)]
  obtain ⟨bytes, size, left, status⟩ := a
  subst hsize hleft
  generalize q.fnRead = fn
  unfold dataLength
  split <;> simp_all

theorem evaluate_code {a : Adu} (hsize : a.size = 5) (h₀ : a.bytes 0 = q.slave)
    (h₁ : a.bytes 1 &&& 0x7F = q.fnRead) (hexc : a.bytes 1 &&& 0x80 ≠ 0) :
    a.evaluate q = (true, { a with status := a.bytes 2 }) := by
  rw [evaluate, if_neg (not_not_intro hsize), if_neg (not_not_intro h₀),
    if_neg (not_not_intro h₁), if_pos hexc]

/-- Who goes on behind the fifth byte has found the header of a normal reply. -/
theorem evaluate_go {a : Adu} (hsize : a.size = 5) (h : (a.evaluate q).1 = false) :
    a.bytes 0 = q.slave ∧ a.bytes 1 = q.fnRead ∧ q.fnRead &&& 0x80 = 0 := by
  rw [evaluate, if_neg (not_not_intro hsize)] at h
  split at h
  · cases h
  · rename_i hslave
    split at h
    · cases h
    · rename_i hfn
      split at h
      · cases h
      · rename_i hexc
        have hfn := of_not_not hfn
        have hexc := of_not_not hexc
        rw [and_low hexc] at hfn
        exact ⟨of_not_not hslave, hfn, by rw [← hfn]; exact hexc⟩

/-- A `break` that is no error has found an exception with code 0. -/
theorem evaluate_stop {a : Adu} (h : (a.evaluate q).1 = true)
    (hok : (a.evaluate q).2.status = ku8MBSuccess) :
    a.size = 5 ∧ a.bytes 0 = q.slave ∧ a.bytes 1 &&& 0x7F = q.fnRead ∧
      a.bytes 1 &&& 0x80 ≠ 0 ∧ a.bytes 2 = 0 := by
  have hcode := evaluate_break h hok
  rw [evaluate] at h hok
  split at h
  · cases h
  · rename_i hsize
    rw [if_neg hsize] at hok
    split at h
    · rename_i hslave
      rw [if_pos hslave] at hok
      exact absurd hok (show ku8MBInvalidSlaveID ≠ ku8MBSuccess by decide)
    · rename_i hslave
      rw [if_neg hslave] at hok
      split at h
      · rename_i hfn
        rw [if_pos hfn] at hok
        exact absurd hok (show ku8MBInvalidFunction ≠ ku8MBSuccess by decide)
      · rename_i hfn
        split at h
        · rename_i hexc
          exact ⟨of_not_not hsize, of_not_not hslave, of_not_not hfn, hexc, hcode⟩
        · split at h <;> cases h

/-! ### Streams that end in success -/

theorem puts_size_mod {a : Adu} (h : a.size < 256) (bs : List UInt8) :
    (a.puts bs).size = (a.size + bs.length) % 256 := by
  induction bs generalizing a with
  | nil => exact (Nat.mod_eq_of_lt h).symm
  | cons b bs ih =>
    have hput : (a.put b).size = (a.size + 1) % 256 := rfl
    rw [puts_cons, ih (by rw [hput]; omega), hput, List.length_cons]
    omega

theorem receive_few {k : Nat} {a : Adu} {stream : List UInt8} (hlen : a.size + stream.length < 5)
    (hleft : stream.length < a.left) (hok : a.status = ku8MBSuccess)
    (hfine : late = never ∨ (receive q late k stream a).1.status = ku8MBSuccess) :
    receive q late k stream a = receive q late (k + stream.length) [] (a.puts stream) := by
  induction stream generalizing k a with
  | nil => rfl
  | cons b bs ih =>
    simp only [List.length_cons] at hlen hleft
    have hput : (a.put b).size = a.size + 1 := Nat.mod_eq_of_lt (by omega)
    have hputleft : (a.put b).left = a.left - 1 := rfl
    have hstep := receive_cons_ne (by omega) hok (by rw [hput]; omega) hfine
    rw [hstep] at hfine ⊢
    rw [ih (a := a.put b) (by omega) (by omega) hok hfine, puts_cons, List.length_cons]
    congr 1
    omega

/-- The header of an exception with code 0. -/
structure NoCode (q : Request) (fn : UInt8) : Prop where
  function : fn &&& 0x7F = q.fnRead
  bit : fn &&& 0x80 ≠ 0

theorem NoCode.fn_eq {fn : UInt8} (h : NoCode q fn) : fn = q.fnRead ||| 0x80 := by
  rw [← and_split fn, h.function]
  rcases and_bit fn with h0 | h1
  · exact absurd h0 h.bit
  · rw [h1]

/-- What the stack array shows in place of a fifth byte. -/
theorem start_four (q : Request) (stack : Nat → UInt8) :
    (start q stack).bytes 4 = highByte q.readQty := rfl

theorem evaluate_noCode {a : Adu} {fn : UInt8} (h : NoCode q fn) (hsize : a.size = 5)
    (h₀ : a.bytes 0 = q.slave) (h₁ : a.bytes 1 = fn) (h₂ : a.bytes 2 = 0)
    (hok : a.status = ku8MBSuccess) : a.evaluate q = (true, a) := by
  rw [evaluate_code hsize h₀ (by rw [h₁]; exact h.function) (by rw [h₁]; exact h.bit), h₂]
  obtain ⟨bytes, size, left, status⟩ := a
  subst hok
  rfl

/-- **A read in vain counts as the fifth byte**: an exception with code 0 ends
the call behind four. -/
theorem receive_four {fn b : UInt8} (h : NoCode q fn)
    (hfine : late = never ∨
      (receive q late 0 [q.slave, fn, 0, b] (start q stack)).1.status = ku8MBSuccess) :
    ∃ a, receive q late 0 [q.slave, fn, 0, b] (start q stack) = (a, []) ∧
      a.Reads [q.slave, fn, 0, b, highByte q.readQty] := by
  have hfew : receive q late 0 [q.slave, fn, 0, b] (start q stack) =
      receive q late 4 [] ((start q stack).puts [q.slave, fn, 0, b]) :=
    receive_few (show 0 + 4 < 5 by decide) (show 4 < 8 by decide) rfl hfine
  have hreads : Reads { (start q stack).puts [q.slave, fn, 0, b] with size := 5 }
      [q.slave, fn, 0, b, highByte q.readQty] := by
    have hput := (reads_start q stack).puts
      (show [].length + [q.slave, fn, 0, b].length ≤ 255 from by simp)
    refine ⟨rfl, rfl, fun i hi => ?_⟩
    match i, hi with
    | 0, _ => exact hput.bytes 0 (by simp)
    | 1, _ => exact hput.bytes 1 (by simp)
    | 2, _ => exact hput.bytes 2 (by simp)
    | 3, _ => exact hput.bytes 3 (by simp)
    | 4, _ => exact start_four q stack
  have heval := evaluate_noCode h hreads.size (hreads.bytes 0 (by simp)) (hreads.bytes 1 (by simp))
    (hreads.bytes 2 (by simp)) hreads.status
  have hgo : ¬ (((start q stack).puts [q.slave, fn, 0, b]).left = 0 ∨
      ((start q stack).puts [q.slave, fn, 0, b]).status ≠ ku8MBSuccess) := by
    rw [puts_left, puts_status]
    exact fun hstop => hstop.elim (show ¬ 8 - 4 = 0 by decide) (fun hne => hne rfl)
  refine ⟨{ (start q stack).puts [q.slave, fn, 0, b] with size := 5 }, ?_, hreads⟩
  rw [hfew, receive, if_neg hgo]
  change (if (evaluate q { (start q stack).puts [q.slave, fn, 0, b] with size := 5 }).1 then _
    else _) = _
  rw [heval, if_pos rfl]
  exact congrArg (fun r => (r.2, [])) heval

theorem receive_normal {c b₃ b₄ : UInt8} {rest : List UInt8} (hfn : q.fnRead &&& 0x80 = 0)
    (hfine : late = never ∧ dataLength q.fnRead c ≤ rest.length ∨
      (receive q late 0 (q.slave :: q.fnRead :: c :: b₃ :: b₄ :: rest)
        (start q stack)).1.status = ku8MBSuccess) :
    dataLength q.fnRead c ≤ rest.length ∧ ∃ a,
      receive q late 0 (q.slave :: q.fnRead :: c :: b₃ :: b₄ :: rest) (start q stack) =
        (a, rest.drop (dataLength q.fnRead c)) ∧
      a.size = (5 + dataLength q.fnRead c) % 256 ∧ a.status = ku8MBSuccess ∧
      (dataLength q.fnRead c ≤ 250 →
        a.Reads (q.slave :: q.fnRead :: c :: b₃ :: b₄ :: rest.take (dataLength q.fnRead c))) := by
  have hreads : ((start q stack).puts [q.slave, q.fnRead, c, b₃, b₄]).Reads
      [q.slave, q.fnRead, c, b₃, b₄] := (reads_start q stack).puts (by simp)
  have hleft : ((start q stack).puts [q.slave, q.fnRead, c, b₃, b₄]).left = 3 := rfl
  have heval := evaluate_normal hreads.size hleft (hreads.bytes 0 (by simp))
    (hreads.bytes 1 (by simp)) hfn
  rw [hreads.bytes 2 (by simp)] at heval
  have hhead := receive_header (hfine.imp_left And.left)
  rw [heval, if_neg Bool.false_ne_true] at hhead
  rw [hhead] at hfine ⊢
  -- what is left is the body
  generalize (start q stack).puts _ = a at hreads hfine ⊢
  have hle := dataLength_le q.fnRead c
  have hstart : ({ a with left := dataLength q.fnRead c } : Adu).Reads
      [q.slave, q.fnRead, c, b₃, b₄] := ⟨hreads.size, hreads.status, hreads.bytes⟩
  obtain ⟨hlen, heq⟩ := receive_rest (n := 5) hstart.size (Nat.le_refl 5)
    (show 5 + dataLength q.fnRead c ≤ 260 by omega) hstart.status hfine
  change dataLength q.fnRead c ≤ rest.length at hlen
  have htake : (rest.take (dataLength q.fnRead c)).length = dataLength q.fnRead c := by
    rw [List.length_take, Nat.min_eq_left hlen]
  refine ⟨hlen, _, heq, ?_, by rw [puts_status, hstart.status], fun hroom => ?_⟩
  · rw [puts_size_mod (by rw [hstart.size]; exact show 5 < 256 by decide), hstart.size]
    show (5 + (rest.take (dataLength q.fnRead c)).length) % 256 = _
    rw [htake]
  · exact hstart.puts (by
      show 5 + (rest.take (dataLength q.fnRead c)).length ≤ 255
      omega)

theorem receive_success_short {stream : List UInt8} (hshort : stream.length < 5)
    (hok : (receive q late 0 stream (start q stack)).1.status = ku8MBSuccess) :
    ∃ fn b₃, stream = [q.slave, fn, 0, b₃] ∧ NoCode q fn := by
  have hfew := receive_few (a := start q stack) (show 0 + stream.length < 5 by omega)
    (show stream.length < 8 by omega) rfl (Or.inr hok)
  have hgo : ¬ (((start q stack).puts stream).left = 0 ∨
      ((start q stack).puts stream).status ≠ ku8MBSuccess) := by
    rw [puts_left, puts_status]
    have hleft : (start q stack).left = 8 := rfl
    rintro (h0 | hne)
    · omega
    · exact hne rfl
  have hreads := (reads_start q stack).puts (show [].length + stream.length ≤ 255 by simp; omega)
  rw [hfew, receive, if_neg hgo] at hok
  dsimp only at hok
  split at hok
  · rename_i hstop
    obtain ⟨hsize, h₀, h₁, hexc, h₂⟩ := evaluate_stop hstop hok
    change (((start q stack).puts stream).size + 1) % 256 = 5 at hsize
    rw [hreads.size] at hsize
    change (stream.length + 1) % 256 = 5 at hsize
    obtain ⟨b₀, b₁, b₂, b₃, rest, rfl⟩ := exists_four (show 4 ≤ stream.length by omega)
    obtain rfl : rest = [] := by
      refine List.eq_nil_of_length_eq_zero ?_
      simp only [List.length_cons] at hshort
      omega
    obtain rfl : b₀ = q.slave := (hreads.bytes 0 (by simp)).symm.trans h₀
    obtain rfl : b₂ = 0 := (hreads.bytes 2 (by simp)).symm.trans h₂
    have hfn : ((start q stack).puts [q.slave, b₁, 0, b₃]).bytes 1 = b₁ :=
      hreads.bytes 1 (by simp)
    exact ⟨b₁, b₃, rfl, hfn ▸ h₁, hfn ▸ hexc⟩
  · exact absurd hok (show ku8MBResponseTimedOut ≠ ku8MBSuccess by decide)

/-- **The streams a call can end in success on.** -/
theorem receive_success {stream : List UInt8}
    (hok : (receive q late 0 stream (start q stack)).1.status = ku8MBSuccess) :
    (∃ c b₃ b₄ rest, stream = q.slave :: q.fnRead :: c :: b₃ :: b₄ :: rest ∧
      q.fnRead &&& 0x80 = 0) ∨
    (∃ fn b₃ b₄ rest, stream = q.slave :: fn :: 0 :: b₃ :: b₄ :: rest ∧ NoCode q fn ∧
      ∃ a, receive q late 0 stream (start q stack) = (a, rest) ∧
        a.Reads [q.slave, fn, 0, b₃, b₄]) ∨
    ∃ fn b₃, stream = [q.slave, fn, 0, b₃] ∧ NoCode q fn := by
  match stream, hok with
  | b₀ :: b₁ :: b₂ :: b₃ :: b₄ :: rest, hok =>
    have hreads : ((start q stack).puts [b₀, b₁, b₂, b₃, b₄]).Reads [b₀, b₁, b₂, b₃, b₄] :=
      (reads_start q stack).puts (by simp)
    have hhead := receive_header (Or.inr hok)
    cases hstop : (((start q stack).puts [b₀, b₁, b₂, b₃, b₄]).evaluate q).1 with
    | false =>
      obtain ⟨h₀, h₁, hfn⟩ := evaluate_go hreads.size hstop
      rw [hreads.bytes 0 (by simp)] at h₀
      rw [hreads.bytes 1 (by simp)] at h₁
      exact Or.inl ⟨b₂, b₃, b₄, rest, by rw [← h₀, ← h₁]; rfl, hfn⟩
    | true =>
      rw [hhead, if_pos hstop] at hok
      obtain ⟨hsize, h₀, h₁, hexc, h₂⟩ := evaluate_stop hstop hok
      have heval := evaluate_noCode ⟨h₁, hexc⟩ hsize h₀ rfl h₂ hreads.status
      rw [if_pos hstop, heval] at hhead
      rw [hreads.bytes 0 (by simp)] at h₀
      rw [hreads.bytes 1 (by simp)] at h₁ hexc
      rw [hreads.bytes 2 (by simp)] at h₂
      change b₀ = q.slave at h₀
      change b₂ = 0 at h₂
      subst h₀ h₂
      exact Or.inr (Or.inl ⟨b₁, b₃, b₄, rest, rfl, ⟨h₁, hexc⟩, _, hhead, hreads⟩)
  | [b₀, b₁, b₂, b₃], hok => exact Or.inr (Or.inr (receive_success_short (by simp) hok))
  | [b₀, b₁, b₂], hok => exact Or.inr (Or.inr (receive_success_short (by simp) hok))
  | [b₀, b₁], hok => exact Or.inr (Or.inr (receive_success_short (by simp) hok))
  | [b₀], hok => exact Or.inr (Or.inr (receive_success_short (by simp) hok))
  | [], hok => exact Or.inr (Or.inr (receive_success_short (by simp) hok))

end Adu

/-! ### The checksum -/

/-- One frame: slave, function, count, as many data as it says, and the checksum
of all that, or an exception. -/
def Framed (frame : List UInt8) : Prop :=
  ∃ slave fn count data, frame = withCrc (slave :: fn :: count :: data) ∧
    (data.length = count.toNat ∨ fn &&& 0x80 ≠ 0 ∧ data = [])

/-- The bytes a call has taken from the line are one frame if it succeeds. -/
def Verified (q : Request) (x : Exchange) (m : Master) : Prop :=
  (masterTransaction q x m).1 = ku8MBSuccess →
    ∃ frame, m.rx ++ x.arrive = frame ++ (masterTransaction q x m).2.rx ∧ Framed frame

/-- The request has, in the place of a fifth byte, what ends the exception with
code 0. -/
def Echoes (q : Request) : Prop :=
  highByte (crc16 [q.slave, q.fnRead ||| 0x80, 0]) = highByte q.readQty

section Verified

variable {q : Request} {x : Exchange} {m : Master}

theorem exists_last_two {bs : List UInt8} (h : 2 ≤ bs.length) :
    ∃ cs l h, bs = cs ++ [l, h] ∧ cs.length + 2 = bs.length := by
  have hdrop : (bs.drop (bs.length - 2)).length = 2 := by
    rw [List.length_drop]
    omega
  match hlast : bs.drop (bs.length - 2), hdrop with
  | [l, h], _ =>
    refine ⟨bs.take (bs.length - 2), l, h, ?_, ?_⟩
    · rw [← hlast, List.take_append_drop]
    · rw [List.length_take]
      omega

theorem masterTransaction_rx {a : Adu} {rest : List UInt8}
    (hr : Adu.receive q x.late 0 (m.rx ++ x.arrive) (.start q x.stack) = (a, rest)) :
    (masterTransaction q x m).1 = a.verify ∧ (masterTransaction q x m).2.rx = rest := by
  simp only [masterTransaction, hr, and_self]

theorem verified_of_count {c : UInt8} (hc : (m.rx ++ x.arrive)[2]? = some c)
    (hdata : Adu.dataLength q.fnRead c = c.toNat) (h250 : c.toNat ≤ 250)
    (hecho : c = 0 → ¬ Echoes q) : Verified q x m := by
  intro hok
  rcases Adu.receive_success (Adu.verify_success hok) with
    ⟨c', b₃, b₄, rest, hstream, hfn⟩ | ⟨fn, b₃, b₄, rest, hstream, hno, a, hr, hreads⟩ |
    ⟨fn, b₃, hstream, hno⟩
  · -- a normal reply
    obtain rfl : c' = c := by
      rw [hstream] at hc
      exact Option.some.inj hc
    have hstatus := Adu.verify_success hok
    rw [hstream] at hstatus
    obtain ⟨hlen, a, hr, _, _, hreads⟩ := Adu.receive_normal hfn (Or.inr hstatus)
    rw [hdata] at hlen hr hreads
    have hreads := hreads h250
    obtain ⟨cs, l, h, hcs, hcslen⟩ := @exists_last_two (b₃ :: b₄ :: rest.take c'.toNat)
      (by simp)
    have hcslen : cs.length = c'.toNat := by
      simp only [List.length_cons, List.length_take] at hcslen
      omega
    rw [hcs, show q.slave :: q.fnRead :: c' :: (cs ++ [l, h]) =
      (q.slave :: q.fnRead :: c' :: cs) ++ [l, h] from rfl] at hreads
    rw [← hstream] at hr
    obtain ⟨hverify, hrx⟩ := masterTransaction_rx hr
    rw [hverify] at hok
    have hcrc := hreads.eq_withCrc (by simp) hok
    refine ⟨_, ?_, q.slave, q.fnRead, c', cs, hcrc, Or.inl hcslen⟩
    rw [hrx, hstream]
    show _ = q.slave :: q.fnRead :: c' :: ((cs ++ [l, h]) ++ rest.drop c'.toNat)
    rw [← hcs, List.cons_append, List.cons_append, List.take_append_drop]
  · -- an exception
    obtain ⟨hverify, hrx⟩ := masterTransaction_rx hr
    rw [hverify] at hok
    replace hreads : a.Reads ([q.slave, fn, 0] ++ [b₃, b₄]) := hreads
    have hcrc := hreads.eq_withCrc (by simp) hok
    exact ⟨_, by rw [hrx, hstream]; rfl, q.slave, fn, 0, [], hcrc, Or.inr ⟨hno.bit, rfl⟩⟩
  · -- four bytes of one: the fifth is of the request
    obtain rfl : 0 = c := by
      rw [hstream] at hc
      exact Option.some.inj hc
    have hstatus := Adu.verify_success hok
    rw [hstream] at hstatus
    obtain ⟨a, hr, hreads⟩ := Adu.receive_four hno (Or.inr hstatus)
    rw [← hstream] at hr
    rw [(masterTransaction_rx hr).1] at hok
    replace hreads : a.Reads ([q.slave, fn, 0] ++ [b₃, highByte q.readQty]) := hreads
    have hcrc := hreads.eq_withCrc (by simp) hok
    refine absurd ?_ (hecho rfl)
    rw [withCrc, hno.fn_eq] at hcrc
    simp only [List.cons_append, List.nil_append, List.cons.injEq, and_true, true_and] at hcrc
    exact hcrc.2.symm

/-- No reply has a function above 0x7F. -/
theorem verified_of_bit (hfn : q.fnRead &&& 0x80 ≠ 0) : Verified q x m := by
  intro hok
  have hno : ∀ fn, ¬ Adu.NoCode q fn := by
    intro fn hno
    refine hfn ?_
    rw [← hno.function, UInt8.and_assoc, show (0x7F : UInt8) &&& 0x80 = 0 by decide,
      UInt8.and_zero]
  rcases Adu.receive_success (Adu.verify_success hok) with
    ⟨_, _, _, _, _, h0⟩ | ⟨fn, _, _, _, _, h, _⟩ | ⟨fn, _, _, h⟩
  · exact absurd h0 hfn
  · exact absurd h (hno fn)
  · exact absurd h (hno fn)

theorem verified_of_short (hlen : (m.rx ++ x.arrive).length < 3) : Verified q x m := by
  intro hok
  rcases Adu.receive_success (Adu.verify_success hok) with
    ⟨_, _, _, _, hs, _⟩ | ⟨_, _, _, _, hs, _⟩ | ⟨_, _, hs, _⟩ <;>
  · rw [hs] at hlen
    simp only [List.length_cons] at hlen
    omega

/-! ### Where it is not checked -/

theorem or_bit_and (b : UInt8) : (b ||| 0x80) &&& 0x7F = b &&& 0x7F := by
  apply UInt8.toBitVec_inj.mp
  simp only [UInt8.toBitVec_or, UInt8.toBitVec_and]
  rw [BitVec.and_or_distrib_right]
  exact BitVec.or_zero

/-- What the line does when it delivers these bytes in time. -/
def delivers (bs : List UInt8) : Exchange := ⟨fun _ => 0, bs, Adu.never⟩

theorem masterTransaction_normal {c : UInt8} {tail : List UInt8} (hfn : q.fnRead &&& 0x80 = 0)
    (hlen : tail.length = Adu.dataLength q.fnRead c + 2) :
    ∃ a : Adu,
      (masterTransaction q (delivers (q.slave :: q.fnRead :: c :: tail)) .idle).1 = a.verify ∧
      (masterTransaction q (delivers (q.slave :: q.fnRead :: c :: tail)) .idle).2.rx = [] ∧
      a.size = (5 + Adu.dataLength q.fnRead c) % 256 ∧ a.status = ku8MBSuccess := by
  match tail, hlen with
  | b₃ :: b₄ :: rest, hlen =>
    have hlen : rest.length = Adu.dataLength q.fnRead c := Nat.succ.inj (Nat.succ.inj hlen)
    obtain ⟨_, a, hr, hsize, hok, _⟩ := @Adu.receive_normal q Adu.never (fun _ => 0) c b₃ b₄
      rest hfn (Or.inl ⟨rfl, Nat.le_of_eq hlen.symm⟩)
    rw [← hlen, List.drop_length] at hr
    obtain ⟨hverify, hrx⟩ := masterTransaction_rx (m := .idle)
      (x := delivers (q.slave :: q.fnRead :: c :: b₃ :: b₄ :: rest)) hr
    exact ⟨a, hverify, hrx, hlen ▸ hsize, hok⟩

/-- **Behind 251 data the counter is back at 0**, and any checksum will do. -/
theorem masterTransaction_unchecked {c : UInt8} {tail : List UInt8} (hfn : q.fnRead &&& 0x80 = 0)
    (hlen : tail.length = Adu.dataLength q.fnRead c + 2)
    (h251 : 251 ≤ Adu.dataLength q.fnRead c) :
    (masterTransaction q (delivers (q.slave :: q.fnRead :: c :: tail)) .idle).1 =
      ku8MBSuccess := by
  obtain ⟨a, hverify, _, hsize, hok⟩ := masterTransaction_normal hfn hlen
  have hle := Adu.dataLength_le q.fnRead c
  rw [hverify, Adu.verify, if_neg (fun h => by omega), hok]

/-- As many bytes as the function has, and two: all are read. -/
theorem Adu.receive_tail {stack : Nat → UInt8} {c : UInt8} {tail : List UInt8}
    (hfn : q.fnRead &&& 0x80 = 0) (hlen : tail.length = Adu.dataLength q.fnRead c + 2)
    (h250 : Adu.dataLength q.fnRead c ≤ 250) (rest : List UInt8) :
    ∃ a, Adu.receive q Adu.never 0 (q.slave :: q.fnRead :: c :: tail ++ rest) (.start q stack) =
        (a, rest) ∧ a.Reads (q.slave :: q.fnRead :: c :: tail) := by
  match tail, hlen with
  | b₃ :: b₄ :: body, hlen =>
    have hlen : body.length = Adu.dataLength q.fnRead c := Nat.succ.inj (Nat.succ.inj hlen)
    obtain ⟨_, a, hr, _, _, hreads⟩ := @Adu.receive_normal q Adu.never stack c b₃ b₄
      (body ++ rest) hfn (Or.inl ⟨rfl, by rw [List.length_append]; omega⟩)
    have hreads := hreads h250
    rw [← hlen, List.drop_left] at hr
    rw [← hlen, List.take_left] at hreads
    exact ⟨a, hr, hreads⟩

/-- **A frame with its checksum is accepted**, however many data the function has. -/
theorem masterTransaction_frame {c : UInt8} {data rest : List UInt8} (hfn : q.fnRead &&& 0x80 = 0)
    (hlen : data.length = Adu.dataLength q.fnRead c) (h250 : data.length ≤ 250)
    (hstream : m.rx ++ x.arrive = withCrc (q.slave :: q.fnRead :: c :: data) ++ rest)
    (hlate : x.late = Adu.never) :
    ∃ a : Adu, masterTransaction q x m = (ku8MBSuccess, ⟨rest, a.disassemble m.buf⟩) ∧
      a.Reads (withCrc (q.slave :: q.fnRead :: c :: data)) := by
  obtain ⟨a, hr, hreads⟩ := @Adu.receive_tail q x.stack c (data ++
    [lowByte (crc16 (q.slave :: q.fnRead :: c :: data)),
      highByte (crc16 (q.slave :: q.fnRead :: c :: data))]) hfn
    (by rw [List.length_append, hlen]; rfl) (by omega) rest
  replace hreads : a.Reads (withCrc (q.slave :: q.fnRead :: c :: data)) := hreads
  refine ⟨a, ?_, hreads⟩
  have hr : Adu.receive q x.late 0 (m.rx ++ x.arrive) (.start q x.stack) = (a, rest) := by
    rw [hstream, hlate]
    exact hr
  rw [masterTransaction]
  simp only [hr, hreads.verify (by simp), if_true]

theorem Verified.framed {bs : List UInt8} (h : Verified q (delivers bs) .idle)
    (hok : (masterTransaction q (delivers bs) .idle).1 = ku8MBSuccess)
    (hrx : (masterTransaction q (delivers bs) .idle).2.rx = []) : Framed bs := by
  obtain ⟨frame, hstream, hframed⟩ := h hok
  rw [hrx, List.append_nil] at hstream
  obtain rfl : bs = frame := hstream
  exact hframed

theorem succ_ne_self (b : UInt8) : b + 1 ≠ b := by
  intro h
  have := congrArg UInt8.toNat h
  rw [UInt8.toNat_add, UInt8.toNat_one] at this
  omega

theorem not_verified_of_checksum {c l h : UInt8} {data : List UInt8} (hfn : q.fnRead &&& 0x80 = 0)
    (hdata : data.length = Adu.dataLength q.fnRead c) (h251 : 251 ≤ data.length)
    (hne : highByte (crc16 (q.slave :: q.fnRead :: c :: data)) ≠ h) :
    ¬ Verified q (delivers (q.slave :: q.fnRead :: c :: (data ++ [l, h]))) .idle := by
  intro hv
  have htail : (data ++ [l, h]).length = Adu.dataLength q.fnRead c + 2 := by
    rw [List.length_append, hdata]
    rfl
  have hok := masterTransaction_unchecked hfn htail (by omega)
  obtain ⟨_, _, hrx, _⟩ := masterTransaction_normal hfn htail
  obtain ⟨slave, fn, count, data', hframe, _⟩ := hv.framed hok hrx
  change (q.slave :: q.fnRead :: c :: data) ++ [l, h] = _ at hframe
  obtain ⟨hbody, hlast⟩ := List.append_inj' hframe rfl
  rw [← hbody] at hlast
  simp only [List.cons.injEq, and_true] at hlast
  exact hne hlast.2.symm

/-- 251 data, and a checksum whose last byte is off by one. -/
theorem not_verified : ¬ Verified ⟨1, 0, 1, 3⟩ (delivers (1 :: 3 :: 251 ::
    (List.replicate 251 0 ++ [lowByte (crc16 (1 :: 3 :: 251 :: List.replicate 251 0)),
      highByte (crc16 (1 :: 3 :: 251 :: List.replicate 251 0)) + 1]))) .idle := by
  have hlen : (List.replicate 251 (0 : UInt8)).length = 251 := List.length_replicate
  exact not_verified_of_checksum rfl hlen (Nat.le_of_eq hlen.symm)
    (succ_ne_self _).symm

/-- A count that is not the number of data, or of 251 and more, can be that of a
stream which is accepted and is no frame. -/
theorem not_verified_of_count {c : UInt8} (hfn : q.fnRead &&& 0x80 = 0)
    (h : Adu.dataLength q.fnRead c ≠ c.toNat ∨ 250 < c.toNat) :
    ∃ bs, bs[2]? = some c ∧ ¬ Verified q (delivers bs) .idle := by
  have hdata : (List.replicate (Adu.dataLength q.fnRead c) (0 : UInt8)).length =
      Adu.dataLength q.fnRead c := List.length_replicate
  generalize List.replicate (Adu.dataLength q.fnRead c) (0 : UInt8) = data at hdata
  by_cases hne : Adu.dataLength q.fnRead c = c.toNat
  · -- the last byte is not that of the checksum
    have h250 := h.resolve_left (not_not_intro hne)
    exact ⟨q.slave :: q.fnRead :: c :: (data ++ [0, highByte (crc16 (q.slave :: q.fnRead :: c ::
      data)) + 1]), rfl, not_verified_of_checksum hfn hdata (by omega) (succ_ne_self _).symm⟩
  · -- a frame of a function without a count
    have h5 := Adu.dataLength_of_ne hne
    obtain ⟨a, hcall, _⟩ := @masterTransaction_frame q
      (delivers (withCrc (q.slave :: q.fnRead :: c :: data))) .idle c data [] hfn hdata (by omega)
      (List.append_nil _).symm rfl
    refine ⟨withCrc (q.slave :: q.fnRead :: c :: data), rfl, fun hv => ?_⟩
    obtain ⟨slave, fn, count, data', hframe, hcase⟩ :=
      hv.framed (by rw [hcall]) (by rw [hcall])
    obtain ⟨hbody, _⟩ := List.append_inj' hframe rfl
    simp only [List.cons.injEq] at hbody
    obtain ⟨rfl, rfl, rfl, rfl⟩ := hbody
    rcases hcase with hcount | ⟨hbit, _⟩
    · exact hne (hdata.symm.trans hcount)
    · exact hbit hfn

/-- Four bytes of an exception with code 0, and the fifth of the request. -/
theorem not_verified_of_echo (hfn : q.fnRead &&& 0x80 = 0) (hecho : Echoes q) :
    ∃ bs, bs[2]? = some 0 ∧ ¬ Verified q (delivers bs) .idle := by
  have hno : Adu.NoCode q (q.fnRead ||| 0x80) := by
    refine ⟨?_, ?_⟩
    · rw [or_bit_and, and_low hfn]
    · rw [Adu.or_and_self]
      decide
  rw [Echoes] at hecho
  generalize hcrc : crc16 [q.slave, q.fnRead ||| 0x80, 0] = crc at hecho
  obtain ⟨a, hr, hreads⟩ := @Adu.receive_four q Adu.never (fun _ => 0) _ (lowByte crc) hno
    (Or.inl rfl)
  obtain ⟨hverify, hrx⟩ := masterTransaction_rx (m := .idle)
    (x := delivers [q.slave, q.fnRead ||| 0x80, 0, lowByte crc]) hr
  replace hreads : a.Reads ([q.slave, q.fnRead ||| 0x80, 0] ++
    [lowByte crc, highByte q.readQty]) := hreads
  have hok := hreads.verify_eq (by simp)
  rw [hcrc, hecho, if_neg (by simp)] at hok
  refine ⟨[q.slave, q.fnRead ||| 0x80, 0, lowByte crc], rfl, fun hv => ?_⟩
  obtain ⟨slave, fn, count, data, hframe, _⟩ := hv.framed (hverify.trans hok) hrx
  have hlen := congrArg List.length hframe
  simp only [withCrc_length, List.length_cons, List.length_nil] at hlen
  omega

/-- **The checksum is verified for the counts up to 250**, and for no other: for
a count byte, every stream that has it is accepted only as a frame if and only if
it is the number of data that follow, not above 250, and not the 0 of an
exception that the request itself completes. -/
theorem verified_iff (q : Request) :
    (∀ x m, m.rx = [] → x.late = Adu.never → x.arrive.length < 3 → Verified q x m) ∧
    ∀ c, (∀ x m, m.rx = [] → x.late = Adu.never → x.arrive[2]? = some c → Verified q x m) ↔
      q.fnRead &&& 0x80 ≠ 0 ∨ Adu.dataLength q.fnRead c = c.toNat ∧ c.toNat ≤ 250 ∧
        (c = 0 → ¬ Echoes q) := by
  refine ⟨fun x m hm _ hlen => verified_of_short (by rw [hm]; exact hlen), fun c => ?_⟩
  constructor
  · intro h
    by_cases hfn : q.fnRead &&& 0x80 = 0
    · have hall : ∀ bs : List UInt8, bs[2]? = some c → Verified q (delivers bs) .idle :=
        fun bs hbs => h (delivers bs) .idle rfl rfl hbs
      refine Or.inr ⟨?_, ?_, ?_⟩
      · by_contra hne
        obtain ⟨bs, hbs, hbad⟩ := not_verified_of_count hfn (Or.inl hne)
        exact hbad (hall bs hbs)
      · by_contra h250
        obtain ⟨bs, hbs, hbad⟩ := not_verified_of_count hfn (Or.inr (Nat.lt_of_not_le h250))
        exact hbad (hall bs hbs)
      · rintro rfl hecho
        obtain ⟨bs, hbs, hbad⟩ := not_verified_of_echo hfn hecho
        exact hbad (hall bs hbs)
    · exact Or.inl hfn
  · rintro (hfn | ⟨hdata, h250, hecho⟩) x m hm _ hc
    · exact verified_of_bit hfn
    · exact verified_of_count (by rw [hm]; exact hc) hdata h250 hecho

end Verified

end EnresLogger
