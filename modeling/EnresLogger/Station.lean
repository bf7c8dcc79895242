import EnresLogger.Accept
import EnresLogger.Resync

/-!
# The stations on the line

The other side of `masterTransaction`: a slave has its registers, takes the frame of
a request apart and answers it, and a line has some slaves on it.  A slave accepts the
frames of the master and no others (`parse_iff`).

Between a slave and the master bytes may be lost: only the first `cut` bytes of a
reply come.  `masterTransaction_call` says what a call comes to for every line and
every `cut`, if the receive queue is empty: it is the reading of the registers, the
code of an exception, or a timeout, and the queue is empty again.  So there is no
place for the reply of another call, whoever makes it: `served` is about the two
objects, `meter` and `flow`, which share the queue.
-/

namespace EnresLogger

open Lib

/-! ### Slaves -/

/-- The frame of a request, taken apart. -/
def Request.parse : List UInt8 → Option Request
  | [slave, fn, ah, al, qh, ql, l, h] =>
      if crc16 [slave, fn, ah, al, qh, ql] = word h l then
        some ⟨slave, word ah al, word qh ql, fn⟩
      else none
  | _ => none

/-- A slave: its holding registers and its input registers, by their addresses. -/
structure Station where
  holding : UInt16 → Option UInt16
  input : UInt16 → Option UInt16

/-- The slaves on a line, by their numbers. -/
abbrev Line := UInt8 → Option Station

namespace Station

/-- The registers a function reads. -/
def registers (s : Station) (fn : UInt8) : Option (UInt16 → Option UInt16) :=
  if fn = 0x03 then some s.holding else if fn = 0x04 then some s.input else none

/-- The words from an address on, if all of them exist. -/
def words (regs : UInt16 → Option UInt16) : Nat → Nat → Option (List UInt16)
  | _, 0 => some []
  | start, n + 1 =>
      if start < 65536 then do
        let w ← regs (UInt16.ofNat start)
        let ws ← words regs (start + 1) n
        return w :: ws
      else none

/-- The answer of a function that reads: a quantity out of bounds and an address that
does not exist are exceptions. -/
def read (regs : UInt16 → Option UInt16) (q : Request) : Reply :=
  if q.readQty = 0 ∨ 125 < q.readQty.toNat then .exception 0x03
  else match words regs q.startAddress.toNat q.readQty.toNat with
    | some ws => .registers ws
    | none => .exception 0x02

/-- What the protocol has a slave answer: any other function is an exception. -/
def answer (s : Station) (q : Request) : Reply :=
  match s.registers q.fnRead with
  | none => .exception 0x01
  | some regs => read regs q

end Station

namespace Line

/-- What comes back for the bytes of a frame; nobody answers for a slave that is not
there, or to what is not a frame. -/
def reply (l : Line) (bs : List UInt8) : List UInt8 :=
  match Request.parse bs with
  | none => []
  | some q =>
      match l q.slave with
      | none => []
      | some s => (s.answer q).frame q

/-- A call to the line of which `cut` bytes arrive. -/
def exchange (l : Line) (q : Request) (stack : Nat → UInt8) (cut : Nat) : Exchange :=
  ⟨stack, (l.reply q.frame).take cut, Adu.never⟩

/-- What a call is for: the registers, or a reason why not. -/
def call (l : Line) (q : Request) (cut : Nat) : Except UInt8 (List UInt16) :=
  match l q.slave with
  | none => .error ku8MBResponseTimedOut
  | some s =>
      match s.answer q with
      | .registers ws => if 2 * ws.length + 5 ≤ cut then .ok ws else .error ku8MBResponseTimedOut
      -- the checksum of an exception is not waited for
      | .exception code => if 4 ≤ cut then .error code else .error ku8MBResponseTimedOut

end Line

/-- Every number is a slave, and every register holds 7. -/
def Line.sevens : Line := fun _ => some ⟨fun _ => some 7, fun _ => some 7⟩

/-! ### Requests -/

theorem highByte_word (h l : UInt8) : highByte (word h l) = h := by
  have hh := h.toNat_lt
  have hl := l.toNat_lt
  apply UInt8.toNat_inj.mp
  simp only [highByte, word, UInt8.toNat_ofNat', UInt16.toNat_ofNat']
  omega

theorem lowByte_word (h l : UInt8) : lowByte (word h l) = l := by
  have hh := h.toNat_lt
  have hl := l.toNat_lt
  apply UInt8.toNat_inj.mp
  simp only [lowByte, word, UInt8.toNat_ofNat', UInt16.toNat_ofNat']
  omega

theorem exists_eight {bs : List UInt8} {q : Request} (h : Request.parse bs = some q) :
    ∃ s f ah al qh ql l h, bs = [s, f, ah, al, qh, ql, l, h] := by
  unfold Request.parse at h
  split at h
  · exact ⟨_, _, _, _, _, _, _, _, rfl⟩
  · cases h

/-- **A slave accepts the frames of the master, and no others**: a frame stands for one
request, and what is taken for a request is its frame. -/
theorem parse_iff (bs : List UInt8) (q : Request) : Request.parse bs = some q ↔ bs = q.frame := by
  constructor
  · intro h
    obtain ⟨s, f, ah, al, qh, ql, l, h', rfl⟩ := exists_eight h
    rw [Request.parse] at h
    split at h
    · rename_i hcrc
      cases h
      rw [Request.frame, withCrc]
      dsimp only
      rw [highByte_word, lowByte_word, highByte_word, lowByte_word, hcrc, lowByte_word,
        highByte_word]
      rfl
    · cases h
  · rintro rfl
    obtain ⟨slave, startAddress, readQty, fnRead⟩ := q
    show (if _ = word (highByte (crc16 _)) (lowByte (crc16 _)) then _ else none) = _
    rw [word_bytes, if_pos rfl, word_bytes, word_bytes]

theorem Line.reply_frame (l : Line) (q : Request) :
    l.reply q.frame = match l q.slave with
      | none => []
      | some s => (s.answer q).frame q := by
  rw [Line.reply, (parse_iff q.frame q).mpr rfl]

/-! ### Answers -/

theorem Station.words_iff {regs : UInt16 → Option UInt16} {start n : Nat} {ws : List UInt16} :
    Station.words regs start n = some ws ↔ ws.length = n ∧
      ∀ i (h : i < ws.length), start + i < 65536 ∧ regs (UInt16.ofNat (start + i)) = some ws[i] := by
  induction n generalizing start ws with
  | zero =>
    constructor
    · intro h
      cases h
      exact ⟨rfl, fun i hi => absurd hi (Nat.not_lt_zero i)⟩
    · rintro ⟨hlen, _⟩
      rw [List.eq_nil_of_length_eq_zero hlen]
      rfl
  | succ n ih =>
    rw [words]
    constructor
    · intro h
      split at h
      · rename_i hstart
        obtain ⟨w, hw, h⟩ := Option.bind_eq_some_iff.mp h
        obtain ⟨ws', htail, h⟩ := Option.bind_eq_some_iff.mp h
        cases h
        obtain ⟨hlen, hall⟩ := ih.mp htail
        refine ⟨by rw [List.length_cons, hlen], fun i hi => ?_⟩
        cases i with
        | zero => exact ⟨hstart, hw⟩
        | succ i =>
          have htail := hall i (Nat.lt_of_succ_lt_succ hi)
          rw [Nat.add_assoc, Nat.add_comm 1 i] at htail
          exact htail
      · cases h
    · rintro ⟨hlen, hall⟩
      obtain ⟨w, ws', rfl⟩ := List.exists_cons_of_length_eq_add_one hlen
      obtain ⟨hstart, hw⟩ := hall 0 (Nat.succ_pos _)
      rw [Nat.add_zero] at hstart hw
      have htail : words regs (start + 1) n = some ws' := ih.mpr ⟨Nat.succ.inj hlen, fun i hi => by
        have := hall (i + 1) (Nat.succ_lt_succ hi)
        rw [Nat.add_assoc, Nat.add_comm 1 i]
        exact this⟩
      rw [if_pos hstart, hw, htail]
      rfl

theorem Station.read_answers {regs : UInt16 → Option UInt16} {q : Request}
    (hfn : ReadsRegisters q.fnRead) : (read regs q).Answers q := by
  rw [read]
  split
  · exact show (0x03 : UInt8) ≠ 0 by decide
  · rename_i hqty
    obtain ⟨hpos, hle⟩ := not_or.mp hqty
    cases hws : words regs q.startAddress.toNat q.readQty.toNat with
    | none => exact show (0x02 : UInt8) ≠ 0 by decide
    | some ws =>
      have hlen : ws.length = q.readQty.toNat := (words_iff.mp hws).1
      have hne : q.readQty.toNat ≠ 0 := fun h0 => hpos (UInt16.toNat_inj.mp h0)
      exact ⟨hfn, hlen, by omega, by omega⟩

/-- **What a slave answers is what the protocol allows.** -/
theorem Station.answer_answers (s : Station) (q : Request) : (s.answer q).Answers q := by
  rw [answer, registers]
  by_cases h3 : q.fnRead = 0x03
  · rw [if_pos h3]
    exact read_answers (Or.inl h3)
  · rw [if_neg h3]
    by_cases h4 : q.fnRead = 0x04
    · rw [if_pos h4]
      exact read_answers (Or.inr (Or.inl h4))
    · rw [if_neg h4]
      exact show (0x01 : UInt8) ≠ 0 by decide

/-- The words of a slave, one for each address that was asked for. -/
structure Line.Holds (l : Line) (q : Request) (ws : List UInt16) : Prop where
  length : ws.length = q.readQty.toNat
  bounds : 1 ≤ ws.length ∧ ws.length ≤ 125
  words : ∃ s regs, l q.slave = some s ∧ s.registers q.fnRead = some regs ∧
    ∀ i (h : i < ws.length), q.startAddress.toNat + i < 65536 ∧
      regs (UInt16.ofNat (q.startAddress.toNat + i)) = some ws[i]

theorem Station.read_iff {regs : UInt16 → Option UInt16} {q : Request} {ws : List UInt16} :
    Station.read regs q = .registers ws ↔ ws.length = q.readQty.toNat ∧
      (1 ≤ ws.length ∧ ws.length ≤ 125) ∧
      ∀ i (h : i < ws.length), q.startAddress.toNat + i < 65536 ∧
        regs (UInt16.ofNat (q.startAddress.toNat + i)) = some ws[i] := by
  rw [read]
  split
  · rename_i hqty
    refine iff_of_false (fun h => by cases h) ?_
    rintro ⟨hlen, ⟨hpos, hle⟩, _⟩
    rcases hqty with hzero | hmany
    · rw [hzero] at hlen
      have : (0 : UInt16).toNat = 0 := rfl
      omega
    · omega
  · rename_i hqty
    obtain ⟨hpos, hle⟩ := not_or.mp hqty
    have hne : q.readQty.toNat ≠ 0 := fun h0 => hpos (UInt16.toNat_inj.mp h0)
    cases hws : words regs q.startAddress.toNat q.readQty.toNat with
    | none =>
      refine iff_of_false (fun h => by cases h) ?_
      rintro ⟨hlen, _, hall⟩
      rw [words_iff.mpr ⟨hlen, hall⟩] at hws
      cases hws
    | some ws' =>
      obtain ⟨hlen', hall'⟩ := words_iff.mp hws
      constructor
      · intro h
        cases h
        exact ⟨hlen', by omega, hall'⟩
      · rintro ⟨hlen, _, hall⟩
        rw [words_iff.mpr ⟨hlen, hall⟩] at hws
        rw [Option.some.inj hws]

/-- **What a reading says**: the slave has these words at these addresses, and all of its
reply arrives. -/
theorem Line.call_ok_iff {l : Line} {q : Request} {cut : Nat} {ws : List UInt16} :
    l.call q cut = .ok ws ↔ l.Holds q ws ∧ 2 * ws.length + 5 ≤ cut := by
  have hanswer : l.call q cut = .ok ws ↔
      ∃ s, l q.slave = some s ∧ s.answer q = .registers ws ∧ 2 * ws.length + 5 ≤ cut := by
    rw [call]
    cases l q.slave with
    | none => exact iff_of_false (fun h => by cases h) (fun ⟨_, h, _⟩ => by cases h)
    | some s =>
      dsimp only
      cases ha : s.answer q with
      | registers ws' =>
        dsimp only
        constructor
        · intro h
          split at h
          · rename_i hcut
            cases h
            exact ⟨s, rfl, ha, hcut⟩
          · cases h
        · rintro ⟨s', hs', ha', hcut⟩
          cases hs'
          cases ha.symm.trans ha'
          exact if_pos hcut
      | exception code =>
        dsimp only
        constructor
        · intro h
          split at h <;> cases h
        · rintro ⟨s', hs', ha', _⟩
          cases hs'
          cases ha.symm.trans ha'
  rw [hanswer]
  constructor
  · rintro ⟨s, hs, ha, hcut⟩
    rw [Station.answer] at ha
    cases hregs : s.registers q.fnRead with
    | none =>
      rw [hregs] at ha
      cases ha
    | some regs =>
      rw [hregs] at ha
      obtain ⟨hlen, hbounds, hall⟩ := Station.read_iff.mp ha
      exact ⟨⟨hlen, hbounds, s, regs, hs, hregs, hall⟩, hcut⟩
  · rintro ⟨⟨hlen, hbounds, s, regs, hs, hregs, hall⟩, hcut⟩
    refine ⟨s, hs, ?_, hcut⟩
    rw [Station.answer, hregs]
    exact Station.read_iff.mpr ⟨hlen, hbounds, hall⟩

namespace Adu

variable {q : Request} {stack : Nat → UInt8}

/-! ### Replies that are cut off -/

/-- A body that is cut off: the counter may come back to 0, but not to 5. -/
theorem receive_starved {k n : Nat} {a : Adu} {stream : List UInt8} (hsize : a.size = n % 256)
    (h5 : 5 ≤ n) (hroom : n + a.left ≤ 260) (hok : a.status = ku8MBSuccess)
    (hlen : stream.length < a.left) :
    ∃ a', receive q never k stream a = (a', []) ∧ a'.status = ku8MBResponseTimedOut := by
  induction stream generalizing k n a with
  | nil =>
    have hgo : ¬ (a.left = 0 ∨ a.status ≠ ku8MBSuccess) := by
      rw [hok]
      exact fun hstop => hstop.elim (Nat.ne_of_gt hlen) (fun hne => hne rfl)
    rw [receive, if_neg hgo, evaluate_of_ne (show (a.size + 1) % 256 ≠ 5 by omega)]
    exact ⟨_, rfl, rfl⟩
  | cons b bs ih =>
    rw [List.length_cons] at hlen
    have hput : (a.put b).size = (n + 1) % 256 := by
      show (a.size + 1) % 256 = (n + 1) % 256
      omega
    have hputleft : (a.put b).left = a.left - 1 := rfl
    rw [receive_cons_ne (by omega) hok (by rw [hput]; omega) (Or.inl rfl)]
    exact ih hput (by omega) (by omega) hok (by omega)

theorem receive_three {stream : List UInt8} (hlen : stream.length ≤ 3) :
    ∃ a', receive q never 0 stream (start q stack) = (a', []) ∧
      a'.status = ku8MBResponseTimedOut := by
  have hsize : ((start q stack).puts stream).size = stream.length := by
    rw [puts_size (show 0 + stream.length ≤ 255 by omega)]
    exact Nat.zero_add _
  have hleft : ((start q stack).puts stream).left = 8 - stream.length := puts_left _ _
  have hstatus : ((start q stack).puts stream).status = ku8MBSuccess := puts_status _ _
  rw [receive_few (show 0 + stream.length < 5 by omega) (show stream.length < 8 by omega) rfl
    (Or.inl rfl)]
  generalize (start q stack).puts stream = a at *
  have hgo : ¬ (a.left = 0 ∨ a.status ≠ ku8MBSuccess) := by
    rw [hstatus]
    exact fun hstop => hstop.elim (by omega) (fun hne => hne rfl)
  rw [receive, if_neg hgo, evaluate_of_ne (show (a.size + 1) % 256 ≠ 5 by omega)]
  exact ⟨_, rfl, rfl⟩

theorem receive_vain {b₀ b₁ b₂ b₃ : UInt8} : ∃ a : Adu, a.size = 5 ∧ a.bytes 0 = b₀ ∧ a.bytes 1 = b₁ ∧
    a.bytes 2 = b₂ ∧ receive q never 0 [b₀, b₁, b₂, b₃] (start q stack) =
      if (a.evaluate q).1 then ((a.evaluate q).2, [])
      else ({ (a.evaluate q).2 with status := ku8MBResponseTimedOut }, []) := by
  have hput := (reads_start q stack).puts
    (show [].length + [b₀, b₁, b₂, b₃].length ≤ 255 from by simp)
  refine ⟨{ (start q stack).puts [b₀, b₁, b₂, b₃] with size := 5 }, rfl, hput.bytes 0 (by simp),
    hput.bytes 1 (by simp), hput.bytes 2 (by simp), ?_⟩
  have hgo : ¬ (((start q stack).puts [b₀, b₁, b₂, b₃]).left = 0 ∨
      ((start q stack).puts [b₀, b₁, b₂, b₃]).status ≠ ku8MBSuccess) := by
    rw [puts_left, puts_status]
    exact fun hstop => hstop.elim (show ¬ 8 - 4 = 0 by decide) (fun hne => hne rfl)
  have hfew : receive q never 0 [b₀, b₁, b₂, b₃] (start q stack) =
      receive q never 4 [] ((start q stack).puts [b₀, b₁, b₂, b₃]) :=
    receive_few (show 0 + 4 < 5 by decide) (show 4 < 8 by decide) rfl (Or.inl rfl)
  rw [hfew, receive, if_neg hgo]
  rfl

/-- A register frame that is cut off ends in a timeout, and takes all that came. -/
theorem receive_cut_registers {ws : List UInt16} {c : Nat} (hfn : ReadsRegisters q.fnRead)
    (h1 : 1 ≤ ws.length) (h2 : ws.length ≤ 125) (hc : c < 2 * ws.length + 5) :
    ∃ a', receive q never 0 ((registerFrame q ws).take c) (start q stack) = (a', []) ∧
      a'.status = ku8MBResponseTimedOut := by
  have hlen := registerFrame_length q ws
  obtain ⟨w, ws', rfl⟩ : ∃ w ws', ws = w :: ws' := List.exists_cons_of_length_pos h1
  by_cases h3 : c ≤ 3
  · exact receive_three (by rw [List.length_take]; omega)
  · by_cases h4 : c = 4
    · subst h4
      obtain ⟨a, hsize, h₀, h₁, _, hr⟩ := @receive_vain q stack q.slave q.fnRead
        (UInt8.ofNat (2 * (w :: ws').length)) (highByte w)
      rw [evaluate_registers hfn hsize h₀ h₁, if_neg Bool.false_ne_true] at hr
      exact ⟨_, hr, rfl⟩
    · -- the header is there, the body is not
      obtain ⟨k, rfl⟩ := Nat.exists_eq_add_of_le (show 5 ≤ c by omega)
      have hsplit : (registerFrame q (w :: ws')).take (5 + k) =
          q.slave :: q.fnRead :: UInt8.ofNat (2 * (w :: ws').length) :: highByte w :: lowByte w ::
            ((registerFrame q (w :: ws')).drop 5).take k := by
        rw [List.take_add]
        rfl
      have hreads : ((start q stack).puts [q.slave, q.fnRead, UInt8.ofNat (2 * (w :: ws').length),
          highByte w, lowByte w]).Reads [q.slave, q.fnRead, UInt8.ofNat (2 * (w :: ws').length),
          highByte w, lowByte w] := (reads_start q stack).puts (by simp)
      have hcount : (((start q stack).puts [q.slave, q.fnRead, UInt8.ofNat (2 * (w :: ws').length),
          highByte w, lowByte w]).bytes 2).toNat = 2 * (w :: ws').length := by
        rw [hreads.bytes 2 (by simp)]
        show (UInt8.ofNat (2 * (w :: ws').length)).toNat = _
        rw [UInt8.toNat_ofNat']
        omega
      have heval := evaluate_registers hfn hreads.size (hreads.bytes 0 (by simp))
        (hreads.bytes 1 (by simp))
      rw [hcount] at heval
      rw [hsplit, receive_header (Or.inl rfl), heval, if_neg Bool.false_ne_true]
      generalize (start q stack).puts _ = a at hreads
      refine receive_starved (n := 5) hreads.size (Nat.le_refl 5) ?_ hreads.status ?_
      · show 5 + 2 * (w :: ws').length ≤ 260
        omega
      · show (((registerFrame q (w :: ws')).drop 5).take k).length < 2 * (w :: ws').length
        rw [List.length_take]
        omega

theorem or_bit_low {fn : UInt8} (h : fn = 0x03 ∨ fn = 0x04) :
    (fn ||| 0x80) &&& 0x7F = fn ∧ (fn ||| 0x80) &&& 0x80 ≠ 0 := by
  rcases h with rfl | rfl <;> decide

theorem receive_cut_exception {code : UInt8} {c : Nat} (hfn : q.fnRead = 0x03 ∨ q.fnRead = 0x04) :
    ∃ a', receive q never 0 ((exceptionFrame q code).take c) (start q stack) = (a', []) ∧
      a'.status = if 4 ≤ c then code else ku8MBResponseTimedOut := by
  obtain ⟨hlow, hbit⟩ := or_bit_low hfn
  by_cases h3 : c ≤ 3
  · rw [if_neg (by omega)]
    exact receive_three (by rw [List.length_take]; omega)
  · rw [if_pos (by omega)]
    by_cases h4 : c = 4
    · subst h4
      obtain ⟨a, hsize, h₀, h₁, h₂, hr⟩ := @receive_vain q stack q.slave (q.fnRead ||| 0x80) code
        (lowByte (crc16 [q.slave, q.fnRead ||| 0x80, code]))
      rw [evaluate_code hsize h₀ (by rw [h₁]; exact hlow) (by rw [h₁]; exact hbit), if_pos rfl] at hr
      exact ⟨_, hr, h₂⟩
    · have hreads : ((start q stack).puts (exceptionFrame q code)).Reads (exceptionFrame q code) :=
        (reads_start q stack).puts (by simp [exceptionFrame])
      have heval := evaluate_code (q := q) hreads.size (hreads.bytes 0 (by simp [exceptionFrame]))
        (by rw [hreads.bytes 1 (by simp [exceptionFrame])]; exact hlow)
        (by rw [hreads.bytes 1 (by simp [exceptionFrame])]; exact hbit)
      have hhead : receive q never 0 (exceptionFrame q code) (start q stack) =
          if (((start q stack).puts (exceptionFrame q code)).evaluate q).1 then
            ((((start q stack).puts (exceptionFrame q code)).evaluate q).2, [])
          else receive q never 5 []
            (((start q stack).puts (exceptionFrame q code)).evaluate q).2 :=
        receive_header (Or.inl rfl)
      rw [List.take_of_length_le (by simp [exceptionFrame]; omega), hhead, heval, if_pos rfl]
      exact ⟨_, rfl, hreads.bytes 2 (by simp [exceptionFrame])⟩

end Adu

/-! ### One call -/

/-- A call that ends with an error takes all that came, and leaves the response
buffer. -/
theorem masterTransaction_error {q : Request} {x : Exchange} {m : Master} {stream : List UInt8}
    {a : Adu} {code : UInt8} (hstream : m.rx ++ x.arrive = stream) (hlate : x.late = Adu.never)
    (hr : Adu.receive q Adu.never 0 stream (.start q x.stack) = (a, []))
    (hstatus : a.status = code) (hcode : code ≠ 0) :
    masterTransaction q x m = (code, ⟨[], m.buf⟩) := by
  have hverify : a.verify = code := by
    rw [Adu.verify, if_neg fun h => hcode (hstatus.symm.trans h.1), hstatus]
  have hne : ¬ code = ku8MBSuccess := hcode
  rw [masterTransaction, hstream, hlate]
  simp only [hr, hverify, if_neg hne]

/-- The response buffer behind a call: the words read come first, the others stay. -/
def ResponseBuffer.load (buf : ResponseBuffer) (ws : List UInt16) : ResponseBuffer :=
  Vector.ofFn fun i => (ws[i.val]?).getD buf[i.val]

/-- What a call comes to, from the reading it is for. -/
def finish (buf : ResponseBuffer) : Except UInt8 (List UInt16) → UInt8 × ResponseBuffer
  | .ok ws => (ku8MBSuccess, buf.load ws)
  | .error code => (code, buf)

theorem load_eq {buf buf' : ResponseBuffer} {ws : List UInt16}
    (h : ∀ i (hi : i < 128), buf'[i] = if hw : i < ws.length then ws[i] else buf[i]) :
    buf' = buf.load ws := by
  refine Vector.ext fun i hi => ?_
  rw [h i hi, ResponseBuffer.load, Vector.getElem_ofFn]
  split
  · rename_i hw
    rw [List.getElem?_eq_getElem hw, Option.getD_some]
  · rename_i hw
    rw [List.getElem?_eq_none (Nat.not_lt.mp hw), Option.getD_none]

/-- **One call on the line.**  Whatever the slaves have, and however much of the reply
is lost: with an empty receive queue it is the reading it is for, and the queue is
empty again. -/
theorem masterTransaction_call {q : Request} (hfn : q.fnRead = 0x03 ∨ q.fnRead = 0x04) (l : Line)
    (stack : Nat → UInt8) (cut : Nat) {m : Master} (hrx : m.rx = []) :
    masterTransaction q (l.exchange q stack cut) m =
      ((finish m.buf (l.call q cut)).1, ⟨[], (finish m.buf (l.call q cut)).2⟩) := by
  have hstream : ∀ reply, l.reply q.frame = reply →
      m.rx ++ (l.exchange q stack cut).arrive = reply.take cut := by
    intro reply hreply
    rw [hrx, List.nil_append, Line.exchange, hreply]
  have hreply := l.reply_frame q
  rw [Line.call]
  cases hs : l q.slave with
  | none =>
    -- nobody answers
    rw [hs] at hreply
    obtain ⟨a, hr, hstatus⟩ := @Adu.receive_three q stack [] (Nat.zero_le 3)
    exact masterTransaction_error ((hstream [] hreply).trans List.take_nil) rfl hr hstatus
      (show ku8MBResponseTimedOut ≠ 0 by decide)
  | some s =>
    rw [hs] at hreply
    have hanswers := s.answer_answers q
    dsimp only at hreply ⊢
    cases ha : s.answer q with
    | registers ws =>
      rw [ha] at hanswers hreply
      obtain ⟨hregs, _, h1, h2⟩ := hanswers
      have hlen := registerFrame_length q ws
      have hall := hstream (registerFrame q ws) hreply
      by_cases hcut : 2 * ws.length + 5 ≤ cut
      · dsimp only
        rw [if_pos hcut]
        rw [List.take_of_length_le (by omega), ← List.append_nil (registerFrame q ws)] at hall
        obtain ⟨hok, hrest, hbuf⟩ := masterTransaction_registers hregs h1 h2 hall rfl
        refine Prod.ext hok ?_
        generalize (masterTransaction q (l.exchange q stack cut) m).2 = m' at *
        obtain ⟨rx, buf⟩ := m'
        rw [show rx = [] from hrest, show buf = m.buf.load ws from load_eq hbuf]
        rfl
      · dsimp only
        rw [if_neg hcut]
        obtain ⟨a, hr, hstatus⟩ := @Adu.receive_cut_registers q stack ws cut hregs h1 h2 (by omega)
        exact masterTransaction_error hall rfl hr hstatus
          (show ku8MBResponseTimedOut ≠ 0 by decide)
    | exception code =>
      rw [ha] at hanswers hreply
      obtain ⟨a, hr, hstatus⟩ := @Adu.receive_cut_exception q stack code cut hfn
      have hall := hstream (exceptionFrame q code) hreply
      dsimp only
      by_cases hcut : 4 ≤ cut
      · rw [if_pos hcut] at hstatus ⊢
        exact masterTransaction_error hall rfl hr hstatus hanswers
      · rw [if_neg hcut] at hstatus ⊢
        exact masterTransaction_error hall rfl hr hstatus
          (show ku8MBResponseTimedOut ≠ 0 by decide)

/-! ### The two objects -/

/-- Who makes a call. -/
inductive Caller
  | meter
  | flow
  deriving DecidableEq, Repr

/-- The receive queue, and the response buffer of each object. -/
structure Uart where
  rx : List UInt8
  meter : ResponseBuffer
  flow : ResponseBuffer

namespace Uart

def buffer (u : Uart) : Caller → ResponseBuffer
  | .meter => u.meter
  | .flow => u.flow

/-- What a call of one of them leaves. -/
def put (u : Uart) (m : Master) : Caller → Uart
  | .meter => { u with rx := m.rx, meter := m.buf }
  | .flow => { u with rx := m.rx, flow := m.buf }

end Uart

/-- A call: who makes it, what the slaves have at that moment, and how much of the reply
arrives. -/
structure Poll where
  caller : Caller
  request : Request
  line : Line
  stack : Nat → UInt8
  cut : Nat

/-- What it is for. -/
def Poll.reading (p : Poll) : Except UInt8 (List UInt16) := p.line.call p.request p.cut

namespace Uart

def poll (u : Uart) (p : Poll) : UInt8 × Uart :=
  let r := masterTransaction p.request (p.line.exchange p.request p.stack p.cut)
    ⟨u.rx, u.buffer p.caller⟩
  (r.1, u.put r.2 p.caller)

/-- Every call is the reading it is for, touches nothing of the other object, and leaves
the queue empty. -/
def Served : List Poll → Uart → Prop
  | [], u => u.rx = []
  | p :: ps, u => u.rx = [] ∧
      (u.poll p).1 = (finish (u.buffer p.caller) p.reading).1 ∧
      (u.poll p).2.buffer p.caller = (finish (u.buffer p.caller) p.reading).2 ∧
      (∀ c, c ≠ p.caller → (u.poll p).2.buffer c = u.buffer c) ∧ Served ps (u.poll p).2

theorem poll_eq {u : Uart} {p : Poll} (hfn : p.request.fnRead = 0x03 ∨ p.request.fnRead = 0x04)
    (hrx : u.rx = []) :
    u.poll p = ((finish (u.buffer p.caller) p.reading).1,
      u.put ⟨[], (finish (u.buffer p.caller) p.reading).2⟩ p.caller) := by
  rw [poll, masterTransaction_call hfn p.line p.stack p.cut hrx]
  rfl

/-- **No call gets the reply of another.**  Any number of calls of the two objects, in
any order, to slaves whose registers change from call to call, on a line that loses any
part of any reply. -/
theorem served {ps : List Poll}
    (hps : ∀ p ∈ ps, p.request.fnRead = 0x03 ∨ p.request.fnRead = 0x04) {u : Uart}
    (hrx : u.rx = []) : Served ps u := by
  induction ps generalizing u with
  | nil => exact hrx
  | cons p ps ih =>
    have hpoll := poll_eq (hps p List.mem_cons_self) hrx
    refine ⟨hrx, by rw [hpoll], ?_, ?_, ?_⟩
    · rw [hpoll]
      cases p.caller <;> rfl
    · intro c hc
      rw [hpoll]
      generalize p.caller = c' at hc
      cases c <;> cases c'
      · exact absurd rfl hc
      · rfl
      · rfl
      · exact absurd rfl hc
    · refine ih (fun p' hp' => hps p' (List.mem_cons_of_mem p hp')) ?_
      rw [hpoll]
      cases p.caller <;> rfl

/-- A call of each object, and the second reply is cut off. -/
theorem served_two :
    Served [⟨.meter, ⟨1, 0, 2, 0x03⟩, Line.sevens, fun _ => 0, 9⟩,
      ⟨.flow, ⟨2, 33, 4, 0x03⟩, Line.sevens, fun _ => 0, 6⟩] ⟨[], .replicate _ 0, .replicate _ 0⟩ := by
  refine served (fun p hp => ?_) rfl
  rcases List.mem_cons.mp hp with rfl | hp
  · exact Or.inl rfl
  · rcases List.mem_cons.mp hp with rfl | hp
    · exact Or.inl rfl
    · cases hp

end Uart

end EnresLogger
