import Mathlib.Data.List.Forall2
import Mathlib.Tactic.Common

/-!
# JSON texts

The grammar of JSON over lists of characters.  `Text` derives values, the
elements of an array and the members of an object; numbers and string bodies
stand for themselves in a `Json`.  `Denotes` is a whole text.

A `Scan` reads a text from left to right and remembers only whether it is inside
a string and what may come next.  That is much less than the grammar asks for,
but every text of the grammar passes (`Denotes.scan`), so a text at which the
scan gets stuck is no JSON: a comma with nothing before it, or nothing behind it.
-/

namespace EnresLogger.Lib

inductive Json
  | null
  | bool (b : Bool)
  | num (text : List Char)
  | str (body : List Char)
  | arr (elements : List Json)
  | obj (members : List (List Char × Json))

namespace Json

/-! ### Grammar -/

def Space (s : List Char) : Prop := ∀ c ∈ s, c = ' ' ∨ c = '\t' ∨ c = '\n' ∨ c = '\r'

def Digits (s : List Char) : Prop := s ≠ [] ∧ ∀ c ∈ s, c.isDigit = true

/-- No leading zero. -/
def Whole (s : List Char) : Prop := s = ['0'] ∨ Digits s ∧ s.head? ≠ some '0'

inductive Number : List Char → Prop
  | mk {minus int frac exp : List Char} :
      (minus = [] ∨ minus = ['-']) → Whole int →
      (frac = [] ∨ ∃ ds, Digits ds ∧ frac = '.' :: ds) →
      (exp = [] ∨ ∃ e sign ds, (e = 'e' ∨ e = 'E') ∧
        (sign = [] ∨ sign = ['+'] ∨ sign = ['-']) ∧ Digits ds ∧ exp = e :: (sign ++ ds)) →
      Number (minus ++ int ++ frac ++ exp)

/-- What may follow a backslash, besides `u` and four hexadecimal digits. -/
def escapes : List Char := ['\x22', '\x5c', '/', 'b', 'f', 'n', 'r', 't']

def hexDigits : List Char := "0123456789abcdefABCDEF".toList

/-- The characters between the quotes. -/
inductive Body : List Char → Prop
  | nil : Body []
  | char {c : Char} {s : List Char} :
      c ≠ '\x22' → c ≠ '\x5c' → 32 ≤ c.toNat → Body s → Body (c :: s)
  | escape {c : Char} {s : List Char} : c ∈ escapes → Body s → Body ('\x5c' :: c :: s)
  | hex {c₁ c₂ c₃ c₄ : Char} {s : List Char} :
      c₁ ∈ hexDigits → c₂ ∈ hexDigits → c₃ ∈ hexDigits → c₄ ∈ hexDigits →
      Body s → Body ('\x5c' :: 'u' :: c₁ :: c₂ :: c₃ :: c₄ :: s)

/-- What a piece of text stands for. -/
inductive Part
  | value (j : Json)
  | elements (xs : List Json)
  | members (ms : List (List Char × Json))

def quoted (s : List Char) : List Char := '\x22' :: (s ++ ['\x22'])

inductive Text : Part → List Char → Prop
  | null : Text (.value .null) ['n', 'u', 'l', 'l']
  | true : Text (.value (.bool true)) ['t', 'r', 'u', 'e']
  | false : Text (.value (.bool false)) ['f', 'a', 'l', 's', 'e']
  | num {s : List Char} : Number s → Text (.value (.num s)) s
  | str {s : List Char} : Body s → Text (.value (.str s)) (quoted s)
  | empty_arr {w : List Char} : Space w → Text (.value (.arr [])) ('[' :: (w ++ [']']))
  | arr {xs : List Json} {s : List Char} :
      Text (.elements xs) s → Text (.value (.arr xs)) ('[' :: (s ++ [']']))
  | empty_obj {w : List Char} : Space w → Text (.value (.obj [])) ('\x7b' :: (w ++ ['\x7d']))
  | obj {ms : List (List Char × Json)} {s : List Char} :
      Text (.members ms) s → Text (.value (.obj ms)) ('\x7b' :: (s ++ ['\x7d']))
  | element {x : Json} {a s b : List Char} :
      Space a → Text (.value x) s → Space b → Text (.elements [x]) (a ++ s ++ b)
  | elements {x : Json} {xs : List Json} {a s b t : List Char} :
      Space a → Text (.value x) s → Space b → Text (.elements xs) t →
      Text (.elements (x :: xs)) (a ++ s ++ b ++ ',' :: t)
  | member {x : Json} {k a b c s d : List Char} :
      Space a → Body k → Space b → Space c → Text (.value x) s → Space d →
      Text (.members [(k, x)]) (a ++ quoted k ++ b ++ ':' :: (c ++ s ++ d))
  | members {x : Json} {ms : List (List Char × Json)} {k a b c s d t : List Char} :
      Space a → Body k → Space b → Space c → Text (.value x) s → Space d →
      Text (.members ms) t →
      Text (.members ((k, x) :: ms)) (a ++ quoted k ++ b ++ ':' :: (c ++ s ++ d) ++ ',' :: t)

/-- The text is JSON, and stands for `j`. -/
def Denotes (j : Json) (s : List Char) : Prop :=
  ∃ a b v, Space a ∧ Text (.value j) v ∧ Space b ∧ s = a ++ v ++ b

/-! ### Building texts -/

theorem head_toDigits {n : Nat} (h : 0 < n) : (Nat.toDigits 10 n).head? ≠ some '0' := by
  induction n using Nat.strongRecOn with
  | ind n ih =>
    by_cases hn : n < 10
    · rw [Nat.toDigits_of_lt_base hn, List.head?_cons]
      have : ∀ k : Fin 10, 0 < k.val → some (Nat.digitChar k.val) ≠ some '0' := by decide
      exact this ⟨n, hn⟩ h
    · rw [Nat.toDigits_of_base_le (by decide) (Nat.le_of_not_lt hn),
        List.head?_append_of_ne_nil _ Nat.toDigits_ne_nil]
      exact ih (n / 10) (by omega) (by omega)

theorem number_toDigits (n : Nat) : Number (Nat.toDigits 10 n) := by
  have hdigits : Digits (Nat.toDigits 10 n) :=
    ⟨Nat.toDigits_ne_nil, fun _ hc => Nat.isDigit_of_mem_toDigits (by decide) (by decide) hc⟩
  have hwhole : Whole (Nat.toDigits 10 n) := by
    rcases Nat.eq_zero_or_pos n with rfl | hn
    · exact Or.inl (Nat.toDigits_of_lt_base (by decide))
    · exact Or.inr ⟨hdigits, head_toDigits hn⟩
  have := Number.mk (Or.inl rfl) hwhole (Or.inl rfl) (Or.inl rfl)
  simpa only [List.nil_append, List.append_nil] using this

theorem forall_of_all {p : Char → Prop} [DecidablePred p] {s : List Char}
    (h : s.all (fun c => decide (p c)) = true) : ∀ c ∈ s, p c :=
  fun c hc => of_decide_eq_true (List.all_eq_true.mp h c hc)

theorem body_of_forall {s : List Char}
    (h : ∀ c ∈ s, c ≠ '\x22' ∧ c ≠ '\x5c' ∧ 32 ≤ c.toNat) : Body s := by
  induction s with
  | nil => exact Body.nil
  | cons c s ih =>
    obtain ⟨h1, h2, h3⟩ := h c List.mem_cons_self
    exact Body.char h1 h2 h3 (ih fun d hd => h d (List.mem_cons_of_mem _ hd))

theorem body_digits {s : List Char} (h : Digits s) : Body s := by
  refine body_of_forall fun c hc => ?_
  have hdigit := h.2 c hc
  refine ⟨?_, ?_, ?_⟩
  · rintro rfl
    cases hdigit
  · rintro rfl
    cases hdigit
  · exact Nat.le_trans (by decide) (Char.isDigit_iff_toNat.mp hdigit).1

theorem space_nil : Space [] := List.forall_mem_nil _

theorem text_member {x : Json} {k s : List Char} (hk : Body k) (hs : Text (.value x) s) :
    Text (.members [(k, x)]) (quoted k ++ ':' :: s) := by
  have := Text.member space_nil hk space_nil space_nil hs space_nil
  simpa only [List.nil_append, List.append_nil] using this

theorem text_members {x : Json} {ms : List (List Char × Json)} {k s t : List Char} (hk : Body k)
    (hs : Text (.value x) s) (ht : Text (.members ms) t) :
    Text (.members ((k, x) :: ms)) (quoted k ++ ':' :: (s ++ ',' :: t)) := by
  have := Text.members space_nil hk space_nil space_nil hs space_nil ht
  simpa only [List.nil_append, List.append_nil, List.append_assoc, List.cons_append] using this

theorem text_elements {x : Json} {xs : List Json} {ts : List (List Char)}
    (h : List.Forall₂ (fun x t => Text (.value x) t) (x :: xs) ts) :
    Text (.elements (x :: xs)) ([','].intercalate ts) := by
  induction xs generalizing x ts with
  | nil =>
    obtain ⟨t, ts, ht, hts, rfl⟩ := List.forall₂_cons_left_iff.mp h
    obtain rfl := List.forall₂_nil_left_iff.mp hts
    have := Text.element space_nil ht space_nil
    simpa only [List.nil_append, List.append_nil, List.intercalate_singleton] using this
  | cons y ys ih =>
    obtain ⟨t, ts, ht, hts, rfl⟩ := List.forall₂_cons_left_iff.mp h
    have hrest := ih hts
    obtain ⟨u, us, _, _, rfl⟩ := List.forall₂_cons_left_iff.mp hts
    have := Text.elements space_nil ht space_nil hrest
    simpa only [List.nil_append, List.append_nil, List.intercalate_cons_cons, List.append_assoc,
      List.cons_append] using this

/-- **An array** of values with commas between them. -/
theorem denotes_arr {xs : List Json} {ts : List (List Char)}
    (h : List.Forall₂ (fun x t => Text (.value x) t) xs ts) :
    Denotes (.arr xs) ('[' :: ([','].intercalate ts ++ [']'])) := by
  refine ⟨[], [], _, space_nil, ?_, space_nil, (List.append_nil _).symm⟩
  cases xs with
  | nil =>
    obtain rfl := List.forall₂_nil_left_iff.mp h
    exact Text.empty_arr space_nil
  | cons x xs => exact Text.arr (text_elements h)

/-! ### Scanning -/

/-- Behind an opening bracket; behind a comma, a colon or nothing; behind a
value; in a string; behind a backslash. -/
inductive Scan
  | first
  | want
  | done
  | quote
  | escape
  deriving DecidableEq, Repr

namespace Scan

/-- The next character outside a string. -/
def outside (st : Scan) (c : Char) : Option Scan :=
  if c = ' ' ∨ c = '\t' ∨ c = '\n' ∨ c = '\r' then some st
  else if c = '\x22' then some quote
  else if c = '[' ∨ c = '\x7b' then some first
  else if c = ']' ∨ c = '\x7d' then if st = want then none else some done
  else if c = ',' ∨ c = ':' then if st = done then some want else none
  else some done

def next (st : Scan) (c : Char) : Option Scan :=
  match st with
  | quote => if c = '\x22' then some done else if c = '\x5c' then some escape else some quote
  | escape => some quote
  | _ => st.outside c

def run (st : Scan) (s : List Char) : Option Scan := s.foldlM next st

@[simp] theorem run_nil (st : Scan) : st.run [] = some st := rfl

@[simp] theorem run_cons (st : Scan) (c : Char) (s : List Char) :
    st.run (c :: s) = (st.next c).bind fun st => st.run s := List.foldlM_cons

theorem run_append (st : Scan) (s t : List Char) :
    st.run (s ++ t) = (st.run s).bind fun st => st.run t := List.foldlM_append

/-- A value may begin here. -/
def Open (st : Scan) : Prop := st = first ∨ st = want

/-- Not in a string. -/
def Outside (st : Scan) : Prop := st = first ∨ st = want ∨ st = done

theorem Open.outside {st : Scan} (h : st.Open) : st.Outside :=
  h.elim Or.inl fun h => Or.inr (Or.inl h)

theorem Outside.next {st : Scan} (h : st.Outside) (c : Char) : st.next c = st.outside c := by
  rcases h with rfl | rfl | rfl <;> rfl

theorem run_space {st : Scan} (h : st.Outside) {w : List Char} (hw : Space w) :
    st.run w = some st := by
  induction w with
  | nil => rfl
  | cons c w ih =>
    rw [run_cons, h.next, outside, if_pos (hw c List.mem_cons_self), Option.bind_some]
    exact ih fun d hd => hw d (List.mem_cons_of_mem _ hd)

/-- A character of a number or a literal. -/
def Plain (c : Char) : Prop :=
  ¬ (c = ' ' ∨ c = '\t' ∨ c = '\n' ∨ c = '\r') ∧ c ≠ '\x22' ∧ ¬ (c = '[' ∨ c = '\x7b') ∧
    ¬ (c = ']' ∨ c = '\x7d') ∧ ¬ (c = ',' ∨ c = ':')

instance (c : Char) : Decidable (Plain c) := inferInstanceAs (Decidable (_ ∧ _))

theorem next_plain {st : Scan} (h : st.Outside) {c : Char} (hc : Plain c) :
    st.next c = some done := by
  obtain ⟨h1, h2, h3, h4, h5⟩ := hc
  rw [h.next, outside, if_neg h1, if_neg h2, if_neg h3, if_neg h4, if_neg h5]

theorem run_plain {st : Scan} (h : st.Outside) {s : List Char} (hs : s ≠ [])
    (hplain : ∀ c ∈ s, Plain c) : st.run s = some done := by
  induction s generalizing st with
  | nil => exact absurd rfl hs
  | cons c s ih =>
    rw [run_cons, next_plain h (hplain c List.mem_cons_self), Option.bind_some]
    by_cases hnil : s = []
    · rw [hnil, run_nil]
    · exact ih (Or.inr (Or.inr rfl)) hnil fun d hd => hplain d (List.mem_cons_of_mem _ hd)

theorem next_quote {c : Char} (h1 : c ≠ '\x22') (h2 : c ≠ '\x5c') : quote.next c = some quote := by
  rw [next, if_neg h1, if_neg h2]

theorem next_hex {c : Char} (h : c ∈ hexDigits) : quote.next c = some quote :=
  next_quote (fun hc => absurd (hc ▸ h) (by decide)) (fun hc => absurd (hc ▸ h) (by decide))

theorem run_body {s : List Char} (h : Body s) : quote.run s = some quote := by
  induction h with
  | nil => rfl
  | char h1 h2 _ _ ih =>
    rw [run_cons, next_quote h1 h2]
    exact ih
  | escape _ _ ih => exact ih
  | hex h₁ h₂ h₃ h₄ _ ih =>
    rw [run_cons, show quote.next '\x5c' = some escape from rfl, Option.bind_some, run_cons,
      show escape.next 'u' = some quote from rfl, Option.bind_some, run_cons, next_hex h₁,
      Option.bind_some, run_cons, next_hex h₂, Option.bind_some, run_cons, next_hex h₃,
      Option.bind_some, run_cons, next_hex h₄]
    exact ih

theorem run_quoted {st : Scan} (h : st.Outside) {s : List Char} (hs : Body s) :
    st.run (quoted s) = some done := by
  rw [quoted, run_cons, h.next]
  show (quote.run (s ++ ['\x22'])) = some done
  rw [run_append, run_body hs]
  rfl

theorem plain_of_digit {c : Char} (h : c.isDigit = true) : Plain c := by
  by_contra hc
  have : c = ' ' ∨ c = '\t' ∨ c = '\n' ∨ c = '\r' ∨ c = '\x22' ∨ c = '[' ∨ c = '\x7b' ∨ c = ']' ∨
      c = '\x7d' ∨ c = ',' ∨ c = ':' := by
    unfold Plain at hc
    tauto
  rcases this with rfl | rfl | rfl | rfl | rfl | rfl | rfl | rfl | rfl | rfl | rfl <;> cases h

theorem plain_digits {s : List Char} (h : Digits s) : ∀ c ∈ s, Plain c :=
  fun c hc => plain_of_digit (h.2 c hc)

theorem plain_whole {s : List Char} (h : Whole s) : s ≠ [] ∧ ∀ c ∈ s, Plain c := by
  rcases h with rfl | ⟨h, _⟩
  · exact ⟨List.cons_ne_nil _ _, forall_of_all (by decide)⟩
  · exact ⟨h.1, plain_digits h⟩

theorem plain_number {s : List Char} (h : Number s) : s ≠ [] ∧ ∀ c ∈ s, Plain c := by
  obtain ⟨hminus, hint, hfrac, hexp⟩ := h
  rename_i minus int frac exp
  have h1 : ∀ c ∈ minus, Plain c := by
    rcases hminus with rfl | rfl <;> exact forall_of_all (by decide)
  have h3 : ∀ c ∈ frac, Plain c := by
    rcases hfrac with rfl | ⟨ds, hds, rfl⟩
    · exact List.forall_mem_nil _
    · exact List.forall_mem_cons.mpr ⟨by decide, plain_digits hds⟩
  have h4 : ∀ c ∈ exp, Plain c := by
    rcases hexp with rfl | ⟨e, sign, ds, he, hsign, hds, rfl⟩
    · exact List.forall_mem_nil _
    · refine List.forall_mem_cons.mpr ⟨?_, List.forall_mem_append.mpr ⟨?_, plain_digits hds⟩⟩
      · rcases he with rfl | rfl <;> decide
      · rcases hsign with rfl | rfl | rfl <;> exact forall_of_all (by decide)
  refine ⟨?_, List.forall_mem_append.mpr ⟨List.forall_mem_append.mpr
    ⟨List.forall_mem_append.mpr ⟨h1, (plain_whole hint).2⟩, h3⟩, h4⟩⟩
  simp [(plain_whole hint).1]

theorem run_open {st : Scan} (h : st.Outside) {c : Char} (hc : c = '[' ∨ c = '\x7b')
    (s : List Char) : st.run (c :: s) = first.run s := by
  rw [run_cons, h.next]
  rcases hc with rfl | rfl <;> rfl

theorem run_close {st : Scan} (h : st = first ∨ st = done) {c : Char}
    (hc : c = ']' ∨ c = '\x7d') : st.run [c] = some done := by
  rcases h with rfl | rfl <;> rcases hc with rfl | rfl <;> rfl

theorem run_comma {c : Char} (hc : c = ',' ∨ c = ':') (s : List Char) :
    done.run (c :: s) = want.run s := by
  rcases hc with rfl | rfl <;> rfl

theorem run_padded {st : Scan} (h : st.Outside) {a s b : List Char} (ha : Space a)
    (hs : st.run s = some done) (hb : Space b) : st.run (a ++ s ++ b) = some done := by
  rw [run_append, run_append, run_space h ha, Option.bind_some, hs, Option.bind_some,
    run_space (Or.inr (Or.inr rfl)) hb]

/-- **A piece of the grammar**, read where a value may begin, ends behind a value. -/
theorem run_text {p : Part} {s : List Char} (h : Text p s) {st : Scan} (hst : st.Open) :
    st.run s = some done := by
  induction h generalizing st with
  | null | true | false =>
    exact run_plain hst.outside (List.cons_ne_nil _ _) (forall_of_all (by decide))
  | num hs => exact run_plain hst.outside (plain_number hs).1 (plain_number hs).2
  | str hs => exact run_quoted hst.outside hs
  | empty_arr hw =>
    rw [run_open hst.outside (Or.inl rfl), run_append, run_space (Or.inl rfl) hw,
      Option.bind_some, run_close (Or.inl rfl) (Or.inl rfl)]
  | arr _ ih =>
    rw [run_open hst.outside (Or.inl rfl), run_append, ih (Or.inl rfl), Option.bind_some,
      run_close (Or.inr rfl) (Or.inl rfl)]
  | empty_obj hw =>
    rw [run_open hst.outside (Or.inr rfl), run_append, run_space (Or.inl rfl) hw,
      Option.bind_some, run_close (Or.inl rfl) (Or.inr rfl)]
  | obj _ ih =>
    rw [run_open hst.outside (Or.inr rfl), run_append, ih (Or.inl rfl), Option.bind_some,
      run_close (Or.inr rfl) (Or.inr rfl)]
  | element ha _ hb ih => exact run_padded hst.outside ha (ih hst) hb
  | elements ha _ hb _ ih iht =>
    rw [run_append, run_padded hst.outside ha (ih hst) hb, Option.bind_some,
      run_comma (Or.inl rfl)]
    exact iht (Or.inr rfl)
  | member ha hk hb hc _ hd ih =>
    rw [run_append, run_padded hst.outside ha (run_quoted hst.outside hk) hb, Option.bind_some,
      run_comma (Or.inr rfl)]
    exact run_padded (Or.inr (Or.inl rfl)) hc (ih (Or.inr rfl)) hd
  | members ha hk hb hc _ hd _ ih iht =>
    rw [run_append, run_append, run_padded hst.outside ha (run_quoted hst.outside hk) hb,
      Option.bind_some, run_comma (Or.inr rfl),
      run_padded (Or.inr (Or.inl rfl)) hc (ih (Or.inr rfl)) hd, Option.bind_some,
      run_comma (Or.inl rfl)]
    exact iht (Or.inr rfl)

end Scan

/-- **Every JSON text passes the scan.** -/
theorem Denotes.scan {j : Json} {s : List Char} (h : Denotes j s) :
    Scan.want.run s = some .done := by
  obtain ⟨a, b, v, ha, hv, hb, rfl⟩ := h
  rw [Scan.run_append, Scan.run_append, Scan.run_space (Or.inr (Or.inl rfl)) ha, Option.bind_some,
    Scan.run_text hv (Or.inr rfl), Option.bind_some, Scan.run_space (Or.inr (Or.inr rfl)) hb]

end Json

end EnresLogger.Lib
