import EnresLogger.Meter

/-!
# The Modbus master

`masterTransaction` of `ModbusMeter.cpp` and of `ModbusFlow.cpp`, whose bodies
are the same.  A call transmits one request and then takes bytes from the
receive queue of the UART, one at a time, until it has as many as the third byte
announces, or an error ends it.

The queue outlives the call: the lines that would empty it before a request are
commented out.  What the line does during a call is an `Exchange`.  A read that
waits for 1000 ticks in vain is past the timeout of 500 ms, so it ends the call;
`late` says whether the clock is past it behind a byte that did come.

`receive_short`, `receive_header` and `receive_body` say what the loop does with
fewer than five bytes, with the fifth one, and with those behind it, in a call
that is not late or in the end succeeds.
-/

namespace EnresLogger

open Lib

/-! ### Words and checksums -/

def highByte (w : UInt16) : UInt8 := UInt8.ofNat (w.toNat / 256)
def lowByte (w : UInt16) : UInt8 := UInt8.ofNat (w.toNat % 256)
def word (h l : UInt8) : UInt16 := UInt16.ofNat (256 * h.toNat + l.toNat)

@[simp] theorem word_bytes (w : UInt16) : word (highByte w) (lowByte w) = w := by
  have hw : w.toNat < 65536 := w.toNat_lt
  apply UInt16.toNat_inj.mp
  simp only [word, highByte, lowByte, UInt8.toNat_ofNat', UInt16.toNat_ofNat']
  omega

def crc16_update (crc : UInt16) (a : UInt8) : UInt16 :=
  (List.range 8).foldl (fun crc _ =>
    if crc &&& 1 ≠ 0 then (crc >>> 1) ^^^ 0xA001 else crc >>> 1) (crc ^^^ a.toUInt16)

def crc16 (bs : List UInt8) : UInt16 := bs.foldl crc16_update 0xFFFF

/-- A frame ends with the checksum of what comes before, low byte first. -/
def withCrc (bs : List UInt8) : List UInt8 := bs ++ [lowByte (crc16 bs), highByte (crc16 bs)]

/-! ### The call -/

def ku8MBSuccess : UInt8 := 0x00
def ku8MBInvalidSlaveID : UInt8 := 0xE0
def ku8MBInvalidFunction : UInt8 := 0xE1
def ku8MBResponseTimedOut : UInt8 := 0xE2
def ku8MBInvalidCRC : UInt8 := 0xE3

structure Request where
  slave : UInt8
  startAddress : UInt16
  readQty : UInt16
  fnRead : UInt8
  deriving DecidableEq, Repr

/-- The bytes transmitted. -/
def Request.frame (q : Request) : List UInt8 :=
  withCrc [q.slave, q.fnRead, highByte q.startAddress, lowByte q.startAddress,
    highByte q.readQty, lowByte q.readQty]

/-- The locals of the receive loop; `bytes` is `u8ModbusADU` and what lies
behind it. -/
structure Adu where
  bytes : Nat → UInt8
  size : Nat
  left : Nat
  status : UInt8

/-- What the line does during one call. -/
structure Exchange where
  /-- what the stack holds where `u8ModbusADU` is not yet written -/
  stack : Nat → UInt8
  /-- the bytes that arrive before the call returns -/
  arrive : List UInt8
  /-- `(millis() - u32StartTime) > ku16MBResponseTimeout` behind the `k`-th byte -/
  late : Nat → Bool

namespace Adu

/-- The request is still in `u8ModbusADU`. -/
def start (q : Request) (stack : Nat → UInt8) : Adu where
  bytes := fun i => (q.frame ++ [0]).getD i (stack i)
  size := 0
  left := 8
  status := ku8MBSuccess

/-- A byte has been read. -/
def put (a : Adu) (b : UInt8) : Adu :=
  { a with
    bytes := fun i => if i = a.size then b else a.bytes i
    size := (a.size + 1) % 256, left := a.left - 1 }

/-- The block `if (u8ModbusADUSize == 5)`; the flag is its `break`. -/
def evaluate (q : Request) (a : Adu) : Bool × Adu :=
  if a.size ≠ 5 then (false, a)
  else if a.bytes 0 ≠ q.slave then (true, { a with status := ku8MBInvalidSlaveID })
  else if a.bytes 1 &&& 0x7F ≠ q.fnRead then (true, { a with status := ku8MBInvalidFunction })
  else if a.bytes 1 &&& 0x80 ≠ 0 then (true, { a with status := a.bytes 2 })
  else match a.bytes 1 with
    | 0x01 | 0x02 | 0x04 | 0x03 | 0x17 => (false, { a with left := (a.bytes 2).toNat })
    | 0x05 | 0x0F | 0x06 | 0x10 => (false, { a with left := 3 })
    | 0x16 => (false, { a with left := 5 })
    | _ => (false, a)

/-- The receive loop, behind `k` bytes; also what is left of the stream. -/
def receive (q : Request) (late : Nat → Bool) : Nat → List UInt8 → Adu → Adu × List UInt8
  | _, [], a =>
      if a.left = 0 ∨ a.status ≠ ku8MBSuccess then (a, [])
      else
        let r := evaluate q { a with size := (a.size + 1) % 256 }
        if r.1 then (r.2, []) else ({ r.2 with status := ku8MBResponseTimedOut }, [])
  | k, b :: bs, a =>
      if a.left = 0 ∨ a.status ≠ ku8MBSuccess then (a, b :: bs)
      else
        let r := evaluate q (a.put b)
        if r.1 then (r.2, bs)
        else receive q late (k + 1) bs
          (if late k then { r.2 with status := ku8MBResponseTimedOut } else r.2)

/-- The checksum is only looked at when there are five bytes. -/
def verify (a : Adu) : UInt8 :=
  if a.status = ku8MBSuccess ∧ 5 ≤ a.size then
    let crc := crc16 ((List.range (a.size - 2)).map a.bytes)
    if lowByte crc ≠ a.bytes (a.size - 2) ∨ highByte crc ≠ a.bytes (a.size - 1) then
      ku8MBInvalidCRC
    else a.status
  else a.status

/-- `_u16ResponseBuffer[i] = w(i)` for the first `n` words. -/
def fill (buf : ResponseBuffer) (n : Nat) (w : Nat → UInt16) : ResponseBuffer :=
  (List.range n).foldl (fun buf i => buf.setIfInBounds i (w i)) buf

def disassemble (a : Adu) (buf : ResponseBuffer) : ResponseBuffer :=
  let count := (a.bytes 2).toNat
  match a.bytes 1 with
  | 0x01 | 0x02 =>
      let buf := fill buf (count / 2) fun i => word (a.bytes (2 * i + 4)) (a.bytes (2 * i + 3))
      if count % 2 = 1 then
        buf.setIfInBounds (count / 2) (word 0 (a.bytes (2 * (count / 2) + 3)))
      else buf
  | 0x04 | 0x03 | 0x17 =>
      fill buf (count / 2) fun i => word (a.bytes (2 * i + 3)) (a.bytes (2 * i + 4))
  | _ => buf

end Adu

/-- What one call leaves for the next: the receive queue and
`_u16ResponseBuffer`. -/
structure Master where
  rx : List UInt8
  buf : ResponseBuffer

/-- A master that has made no call. -/
def Master.idle : Master := ⟨[], .replicate _ 0⟩

def masterTransaction (q : Request) (x : Exchange) (m : Master) : UInt8 × Master :=
  let r := Adu.receive q x.late 0 (m.rx ++ x.arrive) (.start q x.stack)
  let status := r.1.verify
  (status, ⟨r.2, if status = ku8MBSuccess then r.1.disassemble m.buf else m.buf⟩)

namespace Adu

theorem verify_success {a : Adu} (h : a.verify = ku8MBSuccess) : a.status = ku8MBSuccess := by
  rw [verify] at h
  split at h
  · rename_i hs
    exact hs.1
  · exact h

/-! ### The receive loop, byte by byte -/

/-- A clock that is never late. -/
def never : Nat → Bool := fun _ => false

theorem receive_done {q : Request} {late : Nat → Bool} {k : Nat} {stream : List UInt8} {a : Adu}
    (h : a.left = 0 ∨ a.status ≠ ku8MBSuccess) : receive q late k stream a = (a, stream) := by
  cases stream with
  | nil => rw [receive, if_pos h]
  | cons b bs => rw [receive, if_pos h]

theorem evaluate_of_ne {q : Request} {a : Adu} (h : a.size ≠ 5) : a.evaluate q = (false, a) :=
  if_pos h

/-- A `break` reports an error, or the code of an exception. -/
theorem evaluate_break {q : Request} {a : Adu} (h : (a.evaluate q).1 = true)
    (hok : (a.evaluate q).2.status = ku8MBSuccess) : a.bytes 2 = 0 := by
  rw [evaluate] at h hok
  split at h
  · cases h
  · rename_i hsize
    rw [if_neg hsize] at hok
    split at h
    · rename_i hslave
      rw [if_pos hslave] at hok
      exact absurd hok (show ku8MBInvalidSlaveID ≠ ku8MBSuccess by decide)
    · rename_i hslave
      rw [if_neg hslave] at hok
      split at h
      · rename_i hfn
        rw [if_pos hfn] at hok
        exact absurd hok (show ku8MBInvalidFunction ≠ ku8MBSuccess by decide)
      · rename_i hfn
        rw [if_neg hfn] at hok
        split at h
        · rename_i hexc
          rw [if_pos hexc] at hok
          exact hok
        · split at h <;> cases h

section Receive

variable {q : Request} {late : Nat → Bool} {k : Nat} {a : Adu} {b : UInt8} {bs : List UInt8}

/-- One byte, in a call that is not late or in the end succeeds. -/
theorem receive_cons (hleft : a.left ≠ 0) (hok : a.status = ku8MBSuccess)
    (hfine : late = never ∨ (receive q late k (b :: bs) a).1.status = ku8MBSuccess) :
    receive q late k (b :: bs) a =
      if ((a.put b).evaluate q).1 then (((a.put b).evaluate q).2, bs)
      else receive q late (k + 1) bs ((a.put b).evaluate q).2 := by
  have hgo : ¬ (a.left = 0 ∨ a.status ≠ ku8MBSuccess) := by simp [hleft, hok]
  rw [receive, if_neg hgo] at hfine ⊢
  dsimp only at hfine ⊢
  split
  · rfl
  · rename_i hbreak
    rw [if_neg hbreak] at hfine
    rcases hfine with rfl | hfine
    · rfl
    · cases hlate : late k with
      | false => rfl
      | true =>
        rw [hlate, if_pos rfl, receive_done (Or.inr (show ku8MBResponseTimedOut ≠ _ by decide))]
          at hfine
        exact absurd hfine (show ku8MBResponseTimedOut ≠ _ by decide)

theorem receive_cons_ne (hleft : a.left ≠ 0) (hok : a.status = ku8MBSuccess)
    (hsize : (a.put b).size ≠ 5)
    (hfine : late = never ∨ (receive q late k (b :: bs) a).1.status = ku8MBSuccess) :
    receive q late k (b :: bs) a = receive q late (k + 1) bs (a.put b) := by
  rw [receive_cons hleft hok hfine, evaluate_of_ne hsize]
  rfl

end Receive

/-! ### Bytes that are put -/

def puts (a : Adu) (bs : List UInt8) : Adu := bs.foldl put a

theorem puts_cons (a : Adu) (b : UInt8) (bs : List UInt8) : a.puts (b :: bs) = (a.put b).puts bs :=
  rfl

@[simp] theorem puts_status (a : Adu) (bs : List UInt8) : (a.puts bs).status = a.status := by
  induction bs generalizing a with
  | nil => rfl
  | cons b bs ih => exact ih (a.put b)

theorem puts_left (a : Adu) (bs : List UInt8) : (a.puts bs).left = a.left - bs.length := by
  induction bs generalizing a with
  | nil => rfl
  | cons b bs ih =>
    rw [puts_cons, ih, List.length_cons]
    show a.left - 1 - bs.length = a.left - (bs.length + 1)
    omega

theorem puts_size {a : Adu} {bs : List UInt8} (h : a.size + bs.length ≤ 255) :
    (a.puts bs).size = a.size + bs.length := by
  induction bs generalizing a with
  | nil => rfl
  | cons b bs ih =>
    simp only [List.length_cons] at h ⊢
    have hsize : (a.put b).size = a.size + 1 := Nat.mod_eq_of_lt (by omega)
    rw [puts_cons, ih (by omega), hsize]
    omega

theorem puts_bytes_lt {a : Adu} {bs : List UInt8} (h : a.size + bs.length ≤ 255) {i : Nat}
    (hi : i < a.size) : (a.puts bs).bytes i = a.bytes i := by
  induction bs generalizing a with
  | nil => rfl
  | cons b bs ih =>
    simp only [List.length_cons] at h
    have hsize : (a.put b).size = a.size + 1 := Nat.mod_eq_of_lt (by omega)
    rw [puts_cons, ih (by omega) (by omega)]
    exact if_neg (by omega)

theorem puts_bytes {a : Adu} {bs : List UInt8} (h : a.size + bs.length ≤ 255) {i : Nat}
    (hi : i < bs.length) : (a.puts bs).bytes (a.size + i) = bs[i] := by
  induction bs generalizing a i with
  | nil => exact absurd hi (Nat.not_lt_zero i)
  | cons b bs ih =>
    simp only [List.length_cons] at h hi
    have hsize : (a.put b).size = a.size + 1 := Nat.mod_eq_of_lt (by omega)
    rw [puts_cons]
    cases i with
    | zero =>
      rw [puts_bytes_lt (by omega) (by omega)]
      exact if_pos rfl
    | succ i =>
      have := ih (a := a.put b) (by omega) (show i < bs.length by omega)
      rw [hsize] at this
      rw [show a.size + (i + 1) = a.size + 1 + i by omega, this]
      rfl

/-- The bytes of `a` are those of a frame. -/
structure Reads (a : Adu) (frame : List UInt8) : Prop where
  size : a.size = frame.length
  status : a.status = ku8MBSuccess
  bytes : ∀ i (h : i < frame.length), a.bytes i = frame[i]

/-! ### Header and body -/

section Stream

variable {q : Request} {late : Nat → Bool} {stack : Nat → UInt8}

/-- The body, behind `n` bytes: as many bytes as are left, and no fewer.  The
counter may come back to 0, but not to 5. -/
theorem receive_rest {k n : Nat} {a : Adu} {stream : List UInt8} (hsize : a.size = n % 256)
    (h5 : 5 ≤ n) (hroom : n + a.left ≤ 260) (hok : a.status = ku8MBSuccess)
    (hfine : late = never ∧ a.left ≤ stream.length ∨
      (receive q late k stream a).1.status = ku8MBSuccess) :
    a.left ≤ stream.length ∧
      receive q late k stream a = (a.puts (stream.take a.left), stream.drop a.left) := by
  induction stream generalizing k n a with
  | nil =>
    by_cases hleft : a.left = 0
    · rw [receive_done (Or.inl hleft), hleft]
      exact ⟨Nat.zero_le _, rfl⟩
    · -- a read in vain
      rcases hfine with ⟨_, hlen⟩ | hfine
      · exact absurd (Nat.le_zero.mp hlen) hleft
      · rw [receive, if_neg (by simp [hleft, hok]),
          evaluate_of_ne (show (a.size + 1) % 256 ≠ 5 by omega)] at hfine
        exact absurd hfine (show ku8MBResponseTimedOut ≠ ku8MBSuccess by decide)
  | cons b bs ih =>
    by_cases hleft : a.left = 0
    · rw [receive_done (Or.inl hleft), hleft]
      exact ⟨Nat.zero_le _, rfl⟩
    · have hput : (a.put b).size = (n + 1) % 256 := by
        show (a.size + 1) % 256 = (n + 1) % 256
        omega
      have hputleft : (a.put b).left = a.left - 1 := rfl
      have hstep : receive q late k (b :: bs) a = receive q late (k + 1) bs (a.put b) :=
        receive_cons_ne hleft hok (by rw [hput]; omega) (hfine.imp_left And.left)
      rw [hstep] at hfine ⊢
      obtain ⟨hlen, heq⟩ := ih (k := k + 1) (a := a.put b) hput (by omega) (by omega) hok
        (hfine.imp_left fun h => ⟨h.1, by have := h.2; rw [List.length_cons] at this; omega⟩)
      have hsucc : a.left = (a.put b).left + 1 := by omega
      refine ⟨by rw [List.length_cons]; omega, ?_⟩
      rw [heq, hsucc, List.take_succ_cons, List.drop_succ_cons, puts_cons]

/-- **The body**: as many bytes as are left, and no fewer. -/
theorem receive_body {k : Nat} {a : Adu} {stream : List UInt8} (hsize : 5 ≤ a.size)
    (hroom : a.size + a.left ≤ 255) (hok : a.status = ku8MBSuccess)
    (hfine : late = never ∧ a.left ≤ stream.length ∨
      (receive q late k stream a).1.status = ku8MBSuccess) :
    a.left ≤ stream.length ∧
      receive q late k stream a = (a.puts (stream.take a.left), stream.drop a.left) :=
  receive_rest (n := a.size) (Nat.mod_eq_of_lt (by omega)).symm hsize (by omega) hok hfine

/-- Fewer than five bytes are not enough, unless they are an exception with
code 0. -/
theorem receive_short {k : Nat} {a : Adu} {stream : List UInt8} (hlen : a.size + stream.length < 5)
    (hleft : stream.length < a.left)
    (hcode : a.size + stream.length = 4 → (a.puts stream).bytes 2 ≠ 0) :
    (receive q late k stream a).1.status ≠ ku8MBSuccess := by
  intro hfine
  by_cases hok : a.status = ku8MBSuccess
  · induction stream generalizing k a with
    | nil =>
      rw [receive, if_neg (by simp [hok]; exact Nat.ne_of_gt hleft)] at hfine
      dsimp only at hfine
      split at hfine
      · rename_i hbreak
        have hsize : (a.size + 1) % 256 = 5 := by
          by_contra hne
          rw [evaluate_of_ne hne] at hbreak
          cases hbreak
        exact hcode (by simp only [List.length_nil] at hlen ⊢; omega)
          (evaluate_break (a := { a with size := (a.size + 1) % 256 }) hbreak hfine)
      · exact absurd hfine (show ku8MBResponseTimedOut ≠ ku8MBSuccess by decide)
    | cons b bs ih =>
      simp only [List.length_cons] at hlen hleft hcode
      have hput : (a.put b).size = a.size + 1 := Nat.mod_eq_of_lt (by omega)
      have hputleft : (a.put b).left = a.left - 1 := rfl
      rw [receive_cons_ne (by omega) hok (by rw [hput]; omega) (Or.inr hfine)] at hfine
      exact ih (by omega) (by omega) (fun h => hcode (by omega)) hfine hok
  · rw [receive_done (Or.inr hok)] at hfine
    exact hok hfine

/-- **The header**: behind five bytes it is looked at. -/
theorem receive_header {b₀ b₁ b₂ b₃ b₄ : UInt8} {rest : List UInt8}
    (hfine : late = never ∨ (receive q late 0 (b₀ :: b₁ :: b₂ :: b₃ :: b₄ :: rest)
      (start q stack)).1.status = ku8MBSuccess) :
    receive q late 0 (b₀ :: b₁ :: b₂ :: b₃ :: b₄ :: rest) (start q stack) =
      if (((start q stack).puts [b₀, b₁, b₂, b₃, b₄]).evaluate q).1 then
        ((((start q stack).puts [b₀, b₁, b₂, b₃, b₄]).evaluate q).2, rest)
      else receive q late 5 rest (((start q stack).puts [b₀, b₁, b₂, b₃, b₄]).evaluate q).2 := by
  have h₁ := receive_cons_ne (q := q) (k := 0) (a := start q stack) (show 8 ≠ 0 by decide) rfl
    (show 1 ≠ 5 by decide) hfine
  rw [h₁] at hfine ⊢
  have h₂ := receive_cons_ne (q := q) (k := 1) (a := (start q stack).put b₀)
    (show 7 ≠ 0 by decide) rfl (show 2 ≠ 5 by decide) hfine
  rw [h₂] at hfine ⊢
  have h₃ := receive_cons_ne (q := q) (k := 2) (a := ((start q stack).put b₀).put b₁)
    (show 6 ≠ 0 by decide) rfl (show 3 ≠ 5 by decide) hfine
  rw [h₃] at hfine ⊢
  have h₄ := receive_cons_ne (q := q) (k := 3) (a := (((start q stack).put b₀).put b₁).put b₂)
    (show 5 ≠ 0 by decide) rfl (show 4 ≠ 5 by decide) hfine
  rw [h₄] at hfine ⊢
  exact receive_cons (show 4 ≠ 0 by decide) rfl hfine

end Stream

end Adu

end EnresLogger
