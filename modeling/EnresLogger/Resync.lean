import EnresLogger.Accept

/-!
# Replies and their requests

A Modbus reply does not say which request it answers.  The master takes what
comes first from the receive queue, and it does not empty the queue before it
transmits, so what an earlier call has left, or what came too late for it, is
read as the reply of the next one.

`matched` is about a whole run of calls to honest slaves: if every call finds the
queue empty, each success stands for the registers reported to that very call.
`not_matched` is the run of a reply that came too late.

The rest is about what any history leaves.  `receive_takes` says how many bytes a
call takes, from the bytes of the stream and the clock alone: as many as the first
five announce, unless the clock is past the timeout before.  What it does not take
stays for the next call (`after_rx`), so every state of a run is resynchronised if
and only if every call takes all that comes for it: `resynchronised_iff`.
-/

namespace EnresLogger

open Lib

/-! ### Honest slaves -/

/-- What a slave answers to one request. -/
inductive Reply
  | registers (ws : List UInt16)
  | exception (code : UInt8)
  deriving DecidableEq, Repr

def Reply.frame (q : Request) : Reply → List UInt8
  | .registers ws => registerFrame q ws
  | .exception code => exceptionFrame q code

/-- The reply is one the protocol allows: as many registers as were asked for,
from 1 to 125, or an exception, whose codes begin at 1. -/
def Reply.Answers (q : Request) : Reply → Prop
  | .registers ws => ReadsRegisters q.fnRead ∧ ws.length = q.readQty.toNat ∧ 1 ≤ ws.length ∧
      ws.length ≤ 125
  | .exception code => code ≠ 0

/-- One call, and what arrives between its return and the next request. -/
structure Call where
  request : Request
  reply : Reply
  line : Exchange
  between : List UInt8

/-- The reply arrives in order: some of it, or nothing, in time for the call, and
the rest before the next request, among any stray bytes. -/
structure Call.Honest (c : Call) : Prop where
  answers : c.reply.Answers c.request
  arrive : c.line.arrive <+: c.reply.frame c.request
  rest : ((c.reply.frame c.request).drop c.line.arrive.length).Sublist c.between

/-- The response buffer begins with what the slave reported. -/
def Call.Reports (c : Call) (buf : ResponseBuffer) : Prop :=
  ∃ ws, c.reply = .registers ws ∧ ws.length = c.request.readQty.toNat ∧ Shows buf ws

namespace Master

/-- A call, and the line until the next one. -/
def serve (m : Master) (c : Call) : UInt8 × Master :=
  let r := masterTransaction c.request c.line m
  (r.1, { r.2 with rx := r.2.rx ++ c.between })

/-- Every success is the reply of its own request. -/
def Matched : List Call → Master → Prop
  | [], _ => True
  | c :: cs, m =>
      ((m.serve c).1 = ku8MBSuccess → c.Reports (m.serve c).2.buf) ∧ Matched cs (m.serve c).2

/-- Every call finds the queue empty. -/
def FoundEmpty : List Call → Master → Prop
  | [], _ => True
  | c :: cs, m => m.rx = [] ∧ FoundEmpty cs (m.serve c).2

theorem serve_matched {m : Master} {c : Call} (hc : c.Honest) (hrx : m.rx = [])
    (hok : (m.serve c).1 = ku8MBSuccess) : c.Reports (m.serve c).2.buf := by
  obtain ⟨hanswers, harrive, _⟩ := hc
  have hp : m.rx ++ c.line.arrive <+: c.reply.frame c.request := by
    rw [hrx]
    exact harrive
  match hreply : c.reply with
  | .registers ws =>
    rw [hreply] at hanswers hp
    obtain ⟨hfn, hqty, h1, h2⟩ := hanswers
    exact ⟨ws, hreply, hqty, (masterTransaction_part hfn h1 h2 hp hok).2⟩
  | .exception code =>
    rw [hreply] at hanswers hp
    exact absurd hok (masterTransaction_exception hanswers hp)

/-- **Replies are matched to their requests** in every run of calls to honest
slaves in which every call finds the receive queue empty. -/
theorem matched {cs : List Call} (hcs : ∀ c ∈ cs, c.Honest) {m : Master} (hempty : FoundEmpty cs m) :
    Matched cs m := by
  induction cs generalizing m with
  | nil => trivial
  | cons c cs ih =>
    exact ⟨serve_matched (hcs c List.mem_cons_self) hempty.1,
      ih (fun c hc => hcs c (List.mem_cons_of_mem _ hc)) hempty.2⟩

/-- A call for one register. -/
def readOne (address value : UInt16) (arrive between : List UInt8) : Call where
  request := ⟨1, address, 1, 0x03⟩
  reply := .registers [value]
  line := ⟨fun _ => 0, arrive, Adu.never⟩
  between := between

/-- Two calls, each answered in time. -/
theorem matched_two :
    Matched [readOne 0 7 (registerFrame ⟨1, 0, 1, 0x03⟩ [7]) [],
      readOne 100 9 (registerFrame ⟨1, 100, 1, 0x03⟩ [9]) []] idle := by
  refine matched (fun c hc => ?_) ⟨rfl, by decide +kernel, trivial⟩
  simp only [List.mem_cons, List.not_mem_nil, or_false] at hc
  rcases hc with rfl | rfl <;>
  · refine ⟨⟨Or.inl rfl, rfl, by decide, by decide⟩, List.prefix_refl _, ?_⟩
    exact List.drop_length.symm ▸ List.Sublist.refl _

/-- The reply of the first call comes when the call has returned; that of the
second comes in time. -/
def lateReply : List Call :=
  [readOne 0 7 [] (registerFrame ⟨1, 0, 1, 0x03⟩ [7]),
    readOne 100 9 (registerFrame ⟨1, 100, 1, 0x03⟩ [9]) []]

/-- **A late reply is taken for the next one**: the second call succeeds with
the register of the first. -/
theorem not_matched :
    ¬ ∀ (cs : List Call) (m : Master), (∀ c ∈ cs, c.Honest) → m.rx = [] → Matched cs m := by
  intro h
  have hhonest : ∀ c ∈ lateReply, c.Honest := by
    intro c hc
    simp only [lateReply, List.mem_cons, List.not_mem_nil, or_false] at hc
    rcases hc with rfl | rfl
    · exact ⟨⟨Or.inl rfl, rfl, by decide, by decide⟩, List.nil_prefix, List.Sublist.refl _⟩
    · refine ⟨⟨Or.inl rfl, rfl, by decide, by decide⟩, List.prefix_refl _, ?_⟩
      exact List.drop_length.symm ▸ List.Sublist.refl _
  obtain ⟨_, hsecond, _⟩ := h lateReply idle hhonest rfl
  obtain ⟨ws, hws, _, hshows⟩ := hsecond (by decide +kernel)
  cases hws
  have hseven : ((idle.serve (readOne 0 7 [] (registerFrame ⟨1, 0, 1, 0x03⟩ [7]))).2.serve
      (readOne 100 9 (registerFrame ⟨1, 100, 1, 0x03⟩ [9]) [])).2.buf[0]? = some 7 := by
    decide +kernel
  have := hshows 0 (by decide)
  rw [hseven] at this
  exact absurd this (by decide)

end Master

/-! ### What a call takes -/

/-- How many bytes the first five announce: a normal header says what follows it, and
with anything else the call ends behind the fifth. -/
def announced (q : Request) : List UInt8 → Nat
  | b₀ :: b₁ :: b₂ :: _ :: _ :: _ =>
      if b₀ = q.slave ∧ b₁ = q.fnRead ∧ q.fnRead &&& 0x80 = 0 then
        5 + Adu.dataLength q.fnRead b₂
      else 5
  | _ => 5

/-- Of `n` bytes from the `k`-th one on, those that are read before the clock is found
past the timeout. -/
def inTime (late : Nat → Bool) : Nat → Nat → Nat
  | _, 0 => 0
  | k, n + 1 => if late k then 1 else inTime late (k + 1) n + 1

/-- How many bytes of the stream a call takes. -/
def takes (q : Request) (late : Nat → Bool) (stream : List UInt8) : Nat :=
  inTime late 0 (min stream.length (announced q stream))

theorem five_le_announced (q : Request) (stream : List UInt8) : 5 ≤ announced q stream := by
  unfold announced
  split
  · split <;> omega
  · exact Nat.le_refl 5

theorem inTime_le (late : Nat → Bool) (k n : Nat) : inTime late k n ≤ n := by
  induction n generalizing k with
  | zero => exact Nat.le_refl 0
  | succ n ih =>
    rw [inTime]
    split
    · omega
    · exact Nat.succ_le_succ (ih (k + 1))

theorem inTime_eq_iff (late : Nat → Bool) (k n : Nat) :
    inTime late k n = n ↔ ∀ i, i + 1 < n → late (k + i) = false := by
  induction n generalizing k with
  | zero => exact iff_of_true rfl fun i hi => absurd hi (Nat.not_lt_zero _)
  | succ n ih =>
    rw [inTime]
    cases n with
    | zero =>
      refine iff_of_true ?_ fun i hi => absurd hi (by omega)
      split <;> rfl
    | succ n =>
      constructor
      · intro h i hi
        split at h
        · omega
        · rename_i hlate
          cases i with
          | zero => exact Bool.eq_false_iff.mpr hlate
          | succ i =>
            have := (ih (k + 1)).mp (Nat.succ.inj h) i (by omega)
            rwa [Nat.add_right_comm k 1 i] at this
      · intro h
        have hlate : late k = false := h 0 (by omega)
        rw [if_neg (Bool.eq_false_iff.mp hlate)]
        refine congrArg (· + 1) ((ih (k + 1)).mpr fun i hi => ?_)
        rw [Nat.add_right_comm]
        exact h (i + 1) (by omega)

namespace Adu

variable {q : Request} {late : Nat → Bool} {k : Nat} {a : Adu}

theorem receive_nil_snd : (receive q late k [] a).2 = [] := by
  rw [receive]
  split
  · rfl
  · dsimp only
    split <;> rfl

theorem receive_cons_snd {a' : Adu} {b : UInt8} {bs : List UInt8} (hleft : a.left ≠ 0)
    (hok : a.status = ku8MBSuccess) (heval : (a.put b).evaluate q = (false, a')) :
    (receive q late k (b :: bs) a).2 =
      if late k then bs else (receive q late (k + 1) bs a').2 := by
  have hgo : ¬ (a.left = 0 ∨ a.status ≠ ku8MBSuccess) := by simp [hleft, hok]
  rw [receive, if_neg hgo, heval]
  dsimp only
  rw [if_neg Bool.false_ne_true]
  cases late k with
  | false => rfl
  | true =>
    rw [if_pos rfl, if_pos rfl,
      receive_done (Or.inr (show ku8MBResponseTimedOut ≠ ku8MBSuccess by decide))]

/-- The body: what is left, as far as it is there and in time. -/
theorem receive_body_snd {n : Nat} {stream : List UInt8} (hsize : a.size = n % 256) (h5 : 5 ≤ n)
    (hroom : n + a.left ≤ 260) (hok : a.status = ku8MBSuccess) :
    (receive q late k stream a).2 = stream.drop (inTime late k (min stream.length a.left)) := by
  induction stream generalizing k n a with
  | nil => rw [receive_nil_snd, List.drop_nil]
  | cons b bs ih =>
    by_cases hleft : a.left = 0
    · rw [receive_done (Or.inl hleft), hleft, Nat.min_zero]
      rfl
    · have hput : (a.put b).size = (n + 1) % 256 := by
        show (a.size + 1) % 256 = (n + 1) % 256
        omega
      have hmin : min (b :: bs).length a.left = min bs.length (a.put b).left + 1 := by
        have hputleft : (a.put b).left = a.left - 1 := rfl
        rw [List.length_cons]
        omega
      have hstep := ih (k := k + 1) (a := a.put b) hput (by omega)
        (by show n + 1 + (a.left - 1) ≤ 260; omega) hok
      rw [receive_cons_snd hleft hok (evaluate_of_ne (by rw [hput]; omega)), hmin, inTime, hstep]
      split <;> rfl

/-- Behind five bytes the call ends, or as many are left as the header says. -/
theorem evaluate_announced {b₀ b₁ b₂ b₃ b₄ : UInt8} (h : a.Reads [b₀, b₁, b₂, b₃, b₄])
    (hleft : a.left = 3) (rest : List UInt8) :
    announced q (b₀ :: b₁ :: b₂ :: b₃ :: b₄ :: rest) = 5 ∧ (a.evaluate q).1 = true ∨
      ∃ n, announced q (b₀ :: b₁ :: b₂ :: b₃ :: b₄ :: rest) = 5 + n ∧ n ≤ 255 ∧
        a.evaluate q = (false, { a with left := n }) := by
  have h₀ : a.bytes 0 = b₀ := h.bytes 0 (by simp)
  have h₁ : a.bytes 1 = b₁ := h.bytes 1 (by simp)
  have h₂ : a.bytes 2 = b₂ := h.bytes 2 (by simp)
  rw [announced]
  by_cases hhead : b₀ = q.slave ∧ b₁ = q.fnRead ∧ q.fnRead &&& 0x80 = 0
  · right
    obtain ⟨hslave, hfn, hbit⟩ := hhead
    rw [if_pos ⟨hslave, hfn, hbit⟩]
    refine ⟨dataLength q.fnRead b₂, rfl, dataLength_le _ _, ?_⟩
    rw [← h₂]
    exact evaluate_normal h.size hleft (h₀.trans hslave) (h₁.trans hfn) hbit
  · left
    rw [if_neg hhead]
    refine ⟨rfl, ?_⟩
    by_contra hgo
    obtain ⟨hslave, hfn, hbit⟩ := evaluate_go h.size (Bool.eq_false_iff.mpr hgo)
    exact hhead ⟨h₀.symm.trans hslave, h₁.symm.trans hfn, hbit⟩

/-- The header, of which `pre` has been read. -/
theorem receive_pre_snd {pre stream : List UInt8} (h : a.Reads pre) (hpre : pre.length < 5)
    (hleft : a.left = 8 - pre.length) :
    (receive q late k stream a).2 =
      stream.drop (inTime late k (min stream.length (announced q (pre ++ stream) - pre.length))) := by
  induction stream generalizing pre k a with
  | nil => rw [receive_nil_snd, List.drop_nil]
  | cons b bs ih =>
    have hputs : (a.put b).Reads (pre ++ [b]) :=
      h.puts (show pre.length + [b].length ≤ 255 by simp; omega)
    have hputleft : (a.put b).left = 8 - (pre ++ [b]).length := by
      show a.left - 1 = _
      rw [hleft, List.length_append, List.length_singleton]
      omega
    have hassoc : pre ++ b :: bs = (pre ++ [b]) ++ bs := by simp
    have h5 := five_le_announced q ((pre ++ [b]) ++ bs)
    have hlen : (pre ++ [b]).length = pre.length + 1 := by simp
    have hmin : min (b :: bs).length (announced q (pre ++ b :: bs) - pre.length) =
        min bs.length (announced q ((pre ++ [b]) ++ bs) - (pre ++ [b]).length) + 1 := by
      rw [hassoc, List.length_cons, hlen]
      omega
    rw [hmin, inTime]
    by_cases h4 : pre.length = 4
    · -- the fifth byte
      obtain ⟨b₀, b₁, b₂, b₃, tail, rfl⟩ := exists_four (Nat.le_of_eq h4.symm)
      obtain rfl : tail = [] := by
        refine List.eq_nil_of_length_eq_zero ?_
        simpa using h4
      rcases evaluate_announced (q := q) hputs hputleft bs with ⟨hann, hstop⟩ | ⟨n, hann, hn, heval⟩
      · have hgo : ¬ (a.left = 0 ∨ a.status ≠ ku8MBSuccess) := by simp [hleft, h.status]
        rw [receive, if_neg hgo]
        dsimp only
        rw [if_pos hstop]
        have hzero : announced q ([b₀, b₁, b₂, b₃] ++ [b] ++ bs) -
            ([b₀, b₁, b₂, b₃] ++ [b]).length = 0 := Nat.sub_eq_zero_of_le (Nat.le_of_eq hann)
        rw [hzero, Nat.min_zero, inTime]
        split <;> rfl
      · have hbody : (receive q late (k + 1) bs { a.put b with left := n }).2 =
            bs.drop (inTime late (k + 1) (min bs.length n)) :=
          receive_body_snd hputs.size (Nat.le_refl 5) (by show 5 + n ≤ 260; omega) hputs.status
        have hleft' : announced q ([b₀, b₁, b₂, b₃] ++ [b] ++ bs) -
            ([b₀, b₁, b₂, b₃] ++ [b]).length = n := by
          show announced q (b₀ :: b₁ :: b₂ :: b₃ :: b :: bs) - 5 = n
          omega
        rw [receive_cons_snd (by rw [hleft, h4]; decide) h.status heval, hbody, hleft']
        split <;> rfl
    · have hne : (a.put b).size ≠ 5 := by
        rw [hputs.size, hlen]
        omega
      rw [receive_cons_snd (by omega) h.status (evaluate_of_ne hne),
        ih hputs (by omega) hputleft]
      split <;> rfl

/-- **What a call takes**: as many bytes as the first five announce, unless they are not
there or the clock is past the timeout before. -/
theorem receive_takes (q : Request) (late : Nat → Bool) (stack : Nat → UInt8)
    (stream : List UInt8) :
    (receive q late 0 stream (start q stack)).2 = stream.drop (takes q late stream) :=
  receive_pre_snd (reads_start q stack) (Nat.succ_pos 4) rfl

end Adu

theorem masterTransaction_takes (q : Request) (x : Exchange) (m : Master) :
    (masterTransaction q x m).2.rx =
      (m.rx ++ x.arrive).drop (takes q x.late (m.rx ++ x.arrive)) :=
  Adu.receive_takes q x.late x.stack (m.rx ++ x.arrive)

/-! ### Resynchronisation -/

/-- A call with any bytes on the line, and any bytes until the next one. -/
structure Noise where
  request : Request
  line : Exchange
  between : List UInt8

/-- The bytes that come for the call are no more than the first five of them announce,
the last of them is read before the clock is past the timeout, and none comes later. -/
structure Noise.Whole (n : Noise) : Prop where
  announced : n.line.arrive.length ≤ announced n.request n.line.arrive
  clock : ∀ k, k + 1 < n.line.arrive.length → n.line.late k = false
  between : n.between = []

/-- What is left of the bytes, call by call. -/
def leaves : List UInt8 → List Noise → List UInt8
  | rx, [] => rx
  | rx, n :: h =>
      let stream := rx ++ n.line.arrive
      leaves (stream.drop (takes n.request n.line.late stream) ++ n.between) h

theorem Noise.whole_iff (n : Noise) :
    n.Whole ↔
      n.line.arrive.drop (takes n.request n.line.late n.line.arrive) ++ n.between = [] := by
  rw [List.append_eq_nil_iff, List.drop_eq_nil_iff]
  have hle := inTime_le n.line.late 0
    (min n.line.arrive.length (announced n.request n.line.arrive))
  constructor
  · rintro ⟨hann, hclock, hbetween⟩
    refine ⟨Nat.le_of_eq ?_, hbetween⟩
    rw [takes, Nat.min_eq_left hann]
    refine ((inTime_eq_iff n.line.late 0 _).mpr fun i hi => ?_).symm
    rw [Nat.zero_add]
    exact hclock i hi
  · rintro ⟨hall, hbetween⟩
    rw [takes] at hall
    have hann : n.line.arrive.length ≤ announced n.request n.line.arrive := by omega
    rw [Nat.min_eq_left hann] at hle hall
    refine ⟨hann, fun k hk => ?_, hbetween⟩
    have := (inTime_eq_iff n.line.late 0 _).mp (Nat.le_antisymm hle hall) k hk
    rwa [Nat.zero_add] at this

namespace Master

def after (m : Master) (h : List Noise) : Master :=
  h.foldl (fun m n =>
    let r := masterTransaction n.request n.line m
    { r.2 with rx := r.2.rx ++ n.between }) m

/-- The next call, when its complete reply comes in time, succeeds with the
registers of that reply and leaves the queue empty for the one after it. -/
def Resynchronised (m : Master) : Prop :=
  ∀ (q : Request) (ws : List UInt16) (stack : Nat → UInt8), (Reply.registers ws).Answers q →
    let r := masterTransaction q ⟨stack, registerFrame q ws, Adu.never⟩ m
    r.1 = ku8MBSuccess ∧ Shows r.2.buf ws ∧ r.2.rx = []

theorem resynchronised_of_empty {m : Master} (h : m.rx = []) : m.Resynchronised := by
  rintro q ws stack ⟨hfn, _, h1, h2⟩
  have hstream : m.rx ++ registerFrame q ws = registerFrame q ws ++ [] := by
    rw [h, List.nil_append, List.append_nil]
  obtain ⟨hok, hrx, hbuf⟩ := masterTransaction_registers (m := m)
    (x := ⟨stack, registerFrame q ws, Adu.never⟩) hfn h1 h2 hstream rfl
  refine ⟨hok, fun i hi => ?_, hrx⟩
  have hi' : i < 128 := by omega
  rw [Vector.getElem?_eq_getElem hi', hbuf i hi', dif_pos hi]

/-- What is left in the queue is no reply of a slave with another number. -/
theorem empty_of_resynchronised {m : Master} (h : m.Resynchronised) : m.rx = [] := by
  by_contra hne
  obtain ⟨b, t, ht⟩ := List.exists_cons_of_ne_nil hne
  -- ask a slave whose number is not the first byte that is left
  have hslave : ∃ s : UInt8, b ≠ s := by
    by_cases h0 : b = 0
    · exact ⟨1, by rw [h0]; decide⟩
    · exact ⟨0, h0⟩
  obtain ⟨s, hs⟩ := hslave
  have hlen := registerFrame_length ⟨s, 0, 1, 0x03⟩ [0]
  obtain ⟨b₁, b₂, b₃, b₄, rest, hrest⟩ : ∃ b₁ b₂ b₃ b₄ rest,
      t ++ registerFrame ⟨s, 0, 1, 0x03⟩ [0] = b₁ :: b₂ :: b₃ :: b₄ :: rest :=
    exists_four (by rw [List.length_append, hlen]; omega)
  have hstream : m.rx ++ registerFrame ⟨s, 0, 1, 0x03⟩ [0] = b :: b₁ :: b₂ :: b₃ :: b₄ :: rest := by
    rw [ht, List.cons_append, hrest]
  have hok := (h ⟨s, 0, 1, 0x03⟩ [0] (fun _ => 0) ⟨Or.inl rfl, rfl, by decide, by decide⟩).1
  rw [masterTransaction_slave hstream hs rfl] at hok
  exact absurd hok (show ku8MBInvalidSlaveID ≠ ku8MBSuccess by decide)

theorem resynchronised_iff_rx {m : Master} : m.Resynchronised ↔ m.rx = [] :=
  ⟨empty_of_resynchronised, resynchronised_of_empty⟩

/-- **What a history leaves in the queue** are the bytes that its calls do not take. -/
theorem after_rx (m : Master) (h : List Noise) : (m.after h).rx = leaves m.rx h := by
  induction h generalizing m with
  | nil => rfl
  | cons n h ih =>
    show _ = leaves ((m.rx ++ n.line.arrive).drop
      (takes n.request n.line.late (m.rx ++ n.line.arrive)) ++ n.between) h
    rw [← masterTransaction_takes]
    exact ih _

theorem leaves_take_iff (h : List Noise) :
    (∀ i, leaves [] (h.take i) = []) ↔ ∀ n ∈ h, n.Whole := by
  induction h with
  | nil => exact iff_of_true (fun i => by rw [List.take_nil]; rfl) (List.forall_mem_nil _)
  | cons n h ih =>
    rw [List.forall_mem_cons, ← ih]
    constructor
    · intro hall
      have hwhole : n.Whole := n.whole_iff.mpr (hall 1)
      refine ⟨hwhole, fun i => ?_⟩
      have hi : leaves (n.line.arrive.drop (takes n.request n.line.late n.line.arrive) ++
        n.between) (h.take i) = [] := hall (i + 1)
      rw [n.whole_iff.mp hwhole] at hi
      exact hi
    · rintro ⟨hwhole, hall⟩ i
      cases i with
      | zero => rfl
      | succ i =>
        show leaves (n.line.arrive.drop (takes n.request n.line.late n.line.arrive) ++
          n.between) (h.take i) = []
        rw [n.whole_iff.mp hwhole]
        exact hall i

/-- **Every state of a run is resynchronised if and only if every call takes all that comes
for it**; a single state is if the calls up to it have left none of the bytes. -/
theorem resynchronised_iff (h : List Noise) :
    ((∀ i, (idle.after (h.take i)).Resynchronised) ↔ ∀ n ∈ h, n.Whole) ∧
      ((idle.after h).Resynchronised ↔ leaves [] h = []) := by
  have hstate : ∀ h, (idle.after h).Resynchronised ↔ leaves [] h = [] := by
    intro h
    rw [resynchronised_iff_rx, after_rx]
    rfl
  refine ⟨?_, hstate h⟩
  rw [← leaves_take_iff]
  exact forall_congr' fun i => hstate (h.take i)

/-- A call that was not answered in time, and its reply. -/
def unanswered : List Noise :=
  [⟨⟨1, 0, 1, 0x03⟩, ⟨fun _ => 0, [], Adu.never⟩, registerFrame ⟨1, 0, 1, 0x03⟩ [7]⟩]

/-- **One late reply is enough.** -/
theorem not_resynchronised : ¬ ∀ h : List Noise, (idle.after h).Resynchronised := by
  intro h
  have hempty := empty_of_resynchronised (h unanswered)
  have hleft : (idle.after unanswered).rx.length = 7 := by decide +kernel
  rw [hempty] at hleft
  exact absurd hleft (by decide)

end Master

end EnresLogger
