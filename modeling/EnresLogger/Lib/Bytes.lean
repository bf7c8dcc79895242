import Mathlib.Data.List.Basic
import Mathlib.Data.List.TakeWhile
import Mathlib.Tactic.Common

/-!
# Words in a fixed buffer

Little-endian words, and a buffer of a fixed number of bytes whose accesses are
checked: `put` and `get` return `none` where a C program would leave the array.

A `Cursor` is a buffer with the position behind the last byte put.  `Holds`
says what has been put so far, and `Holds.put` that putting more appends, as long
as there is room.  Reading goes by
`Begins`: a word is read back where it was put.

A C string ends with its first NUL: `cString_append` reads one back.
-/

namespace EnresLogger.Lib

/-! ### Words -/

/-- The four bytes of a word, lowest first. -/
def leBytes (w : UInt32) : List UInt8 :=
  [UInt8.ofNat (w.toNat % 256), UInt8.ofNat (w.toNat / 256 % 256),
    UInt8.ofNat (w.toNat / 65536 % 256), UInt8.ofNat (w.toNat / 16777216)]

/-- The word of four bytes. -/
def leWord : List UInt8 → UInt32
  | [a, b, c, d] =>
      UInt32.ofNat (a.toNat + 256 * b.toNat + 65536 * c.toNat + 16777216 * d.toNat)
  | _ => 0

@[simp] theorem leBytes_length (w : UInt32) : (leBytes w).length = 4 := rfl

@[simp] theorem leWord_leBytes (w : UInt32) : leWord (leBytes w) = w := by
  have hw : w.toNat < 4294967296 := w.toNat_lt
  apply UInt32.toNat_inj.mp
  simp only [leWord, leBytes, UInt8.toNat_ofNat', UInt32.toNat_ofNat']
  omega

/-- Words one after the other. -/
def wordsBytes (ws : List UInt32) : List UInt8 := ws.flatMap leBytes

@[simp] theorem wordsBytes_nil : wordsBytes [] = [] := rfl

theorem wordsBytes_cons (w : UInt32) (ws : List UInt32) :
    wordsBytes (w :: ws) = leBytes w ++ wordsBytes ws := rfl

@[simp] theorem wordsBytes_length (ws : List UInt32) :
    (wordsBytes ws).length = 4 * ws.length := by
  induction ws with
  | nil => rfl
  | cons w ws ih =>
    rw [wordsBytes_cons, List.length_append, ih, leBytes_length, List.length_cons]
    omega

/-! ### Buffers -/

/-- An array of `n` bytes. -/
structure Buf (n : Nat) where
  bytes : List UInt8
  size : bytes.length = n

namespace Buf

variable {n : Nat}

def replicate (n : Nat) (b : UInt8) : Buf n := ⟨List.replicate n b, List.length_replicate⟩

/-- Store bytes from position `i` on. -/
def put (b : Buf n) (i : Nat) (bs : List UInt8) : Option (Buf n) :=
  if h : i + bs.length ≤ n then
    some ⟨b.bytes.take i ++ (bs ++ b.bytes.drop (i + bs.length)), by
      have := b.size
      simp only [List.length_append, List.length_take, List.length_drop]
      omega⟩
  else none

/-- Load `k` bytes from position `i` on. -/
def get (b : Buf n) (i k : Nat) : Option (List UInt8) :=
  if i + k ≤ n then some ((b.bytes.drop i).take k) else none

/-- Load the word at position `i`. -/
def word (b : Buf n) (i : Nat) : Option UInt32 := (b.get i 4).map leWord

theorem get_isSome (b : Buf n) {i k : Nat} (h : i + k ≤ n) : ∃ bs, b.get i k = some bs :=
  ⟨_, if_pos h⟩

theorem word_isSome (b : Buf n) {i : Nat} (h : i + 4 ≤ n) : ∃ w, b.word i = some w := by
  obtain ⟨bs, hbs⟩ := b.get_isSome h
  exact ⟨leWord bs, by rw [word, hbs, Option.map_some]⟩

theorem get_length {b : Buf n} {i k : Nat} {bs : List UInt8} (h : b.get i k = some bs) :
    bs.length = k := by
  have hsize := b.size
  rw [get] at h
  split at h
  · cases h
    rw [List.length_take, List.length_drop]
    omega
  · cases h

theorem get_none (b : Buf n) {i k : Nat} (h : n < i + k) : b.get i k = none :=
  if_neg (Nat.not_le.mpr h)

theorem put_isSome (b : Buf n) {i : Nat} {bs : List UInt8} (h : i + bs.length ≤ n) :
    ∃ b', b.put i bs = some b' := ⟨_, dif_pos h⟩

theorem put_begins {b b' : Buf n} {bs : List UInt8} (h : b.put 0 bs = some b') :
    bs <+: b'.bytes := by
  rw [put] at h
  split at h
  · cases h
    exact List.prefix_append _ _
  · cases h

/-- The buffer begins with `bs`. -/
def Begins (b : Buf n) (bs : List UInt8) : Prop := bs <+: b.bytes

theorem Begins.length_le {b : Buf n} {bs : List UInt8} (h : b.Begins bs) : bs.length ≤ n := by
  rw [← b.size]
  exact List.IsPrefix.length_le h

theorem Begins.put {b : Buf n} {bs : List UInt8} (h : b.Begins bs) (xs : List UInt8)
    (hroom : bs.length + xs.length ≤ n) :
    ∃ b', b.put bs.length xs = some b' ∧ b'.Begins (bs ++ xs) := by
  obtain ⟨rest, hrest⟩ := h
  refine ⟨_, dif_pos hroom, ?_⟩
  simp only [Begins, ← hrest, List.take_left]
  rw [← List.append_assoc]
  exact List.prefix_append _ _

theorem Begins.get {b : Buf n} {pre mid post : List UInt8} (h : b.Begins (pre ++ (mid ++ post))) :
    b.get pre.length mid.length = some mid := by
  have hlen := h.length_le
  obtain ⟨rest, hrest⟩ := h
  rw [Buf.get, if_pos (by simp only [List.length_append] at hlen; omega), ← hrest]
  simp only [List.append_assoc, List.drop_left, List.take_left]

theorem Begins.word {b : Buf n} {pre post : List UInt8} {w : UInt32}
    (h : b.Begins (pre ++ (leBytes w ++ post))) : b.word pre.length = some w := by
  have := h.get
  rw [leBytes_length] at this
  rw [Buf.word, this, Option.map_some, leWord_leBytes]

end Buf

/-! ### Cursors -/

/-- A buffer and the position of the next byte. -/
structure Cursor (n : Nat) where
  buf : Buf n
  index : Nat

namespace Cursor

variable {n : Nat} {c : Cursor n} {bs : List UInt8}

def put (c : Cursor n) (xs : List UInt8) : Option (Cursor n) := do
  let buf ← c.buf.put c.index xs
  return ⟨buf, c.index + xs.length⟩

def putWords (c : Cursor n) (ws : List UInt32) : Option (Cursor n) :=
  ws.foldlM (fun c w => c.put (leBytes w)) c

/-- Exactly `bs` has been put. -/
structure Holds (c : Cursor n) (bs : List UInt8) : Prop where
  index : c.index = bs.length
  begins : c.buf.Begins bs

theorem holds_start (b : Buf n) : (⟨b, 0⟩ : Cursor n).Holds [] :=
  ⟨rfl, List.nil_prefix⟩

/-- **Putting appends.** -/
theorem Holds.put (h : c.Holds bs) (xs : List UInt8) (hroom : bs.length + xs.length ≤ n) :
    ∃ c', c.put xs = some c' ∧ c'.Holds (bs ++ xs) := by
  obtain ⟨b, hb, hbegins⟩ := h.begins.put xs hroom
  refine ⟨⟨b, c.index + xs.length⟩, ?_, ?_, hbegins⟩
  · rw [Cursor.put, h.index, hb]
    rfl
  · rw [h.index, List.length_append]

theorem Holds.putWords (h : c.Holds bs) (ws : List UInt32)
    (hroom : bs.length + 4 * ws.length ≤ n) :
    ∃ c', c.putWords ws = some c' ∧ c'.Holds (bs ++ wordsBytes ws) := by
  induction ws generalizing c bs with
  | nil => exact ⟨c, rfl, by rw [wordsBytes_nil, List.append_nil]; exact h⟩
  | cons w ws ih =>
    simp only [List.length_cons] at hroom
    obtain ⟨c1, h1, hold1⟩ := h.put (leBytes w) (by rw [leBytes_length]; omega)
    obtain ⟨c2, h2, hold2⟩ := ih hold1 (by rw [List.length_append, leBytes_length]; omega)
    refine ⟨c2, ?_, ?_⟩
    · rw [Cursor.putWords, List.foldlM_cons, h1]
      exact h2
    · rw [wordsBytes_cons, ← List.append_assoc]
      exact hold2

end Cursor

/-! ### C strings -/

/-- The text up to the first NUL; `none` when there is none to stop at. -/
def cString (bs : List UInt8) : Option (List UInt8) :=
  if 0 ∈ bs then some (bs.takeWhile (· ≠ 0)) else none

theorem all_ne_zero {s : List UInt8} (h : 0 ∉ s) : ∀ a ∈ s, decide (a ≠ 0) = true :=
  fun _ ha => decide_eq_true (fun h0 => h (h0 ▸ ha))

theorem cString_append {s rest : List UInt8} (h : 0 ∉ s) : cString (s ++ 0 :: rest) = some s := by
  rw [cString, if_pos (by simp), List.takeWhile_append_of_pos (all_ne_zero h),
    List.takeWhile_cons_of_neg (by decide), List.append_nil]

/-- The `k` bytes `strncpy` stores: behind the end of `s` come NULs. -/
def strncpy (s : List UInt8) (k : Nat) : List UInt8 :=
  (s.take k).takeWhile (· ≠ 0) ++
    List.replicate (k - ((s.take k).takeWhile (· ≠ 0)).length) 0

theorem strncpy_eq_take {s : List UInt8} {k : Nat} (h : 0 ∉ s) (hk : k ≤ s.length) :
    strncpy s k = s.take k := by
  have hall : (s.take k).takeWhile (· ≠ 0) = s.take k :=
    List.takeWhile_eq_self_iff.mpr (all_ne_zero (fun h0 => h (List.mem_of_mem_take h0)))
  rw [strncpy, hall, List.length_take, Nat.min_eq_left hk, Nat.sub_self, List.replicate_zero,
    List.append_nil]

end EnresLogger.Lib
