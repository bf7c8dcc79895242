import EnresLogger.Lib.Json

/-!
# The words of a JSON text

A word is a longest run of characters outside the strings that are neither space nor
punctuation.  In a text of the grammar every word is a number or one of the three names
(`Denotes.words`), so a text that has another word, such as `nan`, is no JSON.

A piece of text is read with what follows it present, so that no word is cut: what follows
begins with nothing, space or punctuation (`Stops`).  `Spells` is the reading of a piece, and
its lemmas read a text from its pieces, be it from the grammar or put together by a program.
-/

namespace EnresLogger.Lib

namespace Json

open Scan

/-- What a value without structure may be. -/
inductive Literal : List Char → Prop
  | null : Literal ['n', 'u', 'l', 'l']
  | true : Literal ['t', 'r', 'u', 'e']
  | false : Literal ['f', 'a', 'l', 's', 'e']
  | num {s : List Char} : Number s → Literal s

/-- In a word, of which `w` is read; in a string; behind a backslash. -/
inductive Reader
  | word (w : List Char)
  | quote
  | escape

def flush (w : List Char) : List (List Char) := if w = [] then [] else [w]

def words : Reader → List Char → List (List Char)
  | .word w, [] => flush w
  | .word w, c :: s =>
      if Plain c then words (.word (w ++ [c])) s
      else flush w ++ words (if c = '\x22' then .quote else .word []) s
  | .quote, [] => []
  | .quote, c :: s =>
      words (if c = '\x22' then .word [] else if c = '\x5c' then .escape else .quote) s
  | .escape, [] => []
  | .escape, _ :: s => words .quote s

/-- A word ends here. -/
def Stops (t : List Char) : Prop := ∀ c ∈ t.head?, ¬ Plain c

theorem stops_nil : Stops [] := fun _ h => by cases h

theorem stops_cons {c : Char} (h : ¬ Plain c) (t : List Char) : Stops (c :: t) := by
  intro d hd
  cases hd
  exact h

theorem not_plain_of_mem {c : Char}
    (h : c ∈ [' ', '\t', '\n', '\r', '\x22', '[', '\x7b', ']', '\x7d', ',', ':']) : ¬ Plain c :=
  forall_of_all (p := fun c => ¬ Plain c) (by decide) c h

theorem stops_space {a t : List Char} (ha : Space a) (ht : Stops t) : Stops (a ++ t) := by
  cases a with
  | nil => exact ht
  | cons c a =>
    refine stops_cons (not_plain_of_mem ?_) _
    rcases ha c List.mem_cons_self with rfl | rfl | rfl | rfl <;> simp

/-! ### Reading on -/

theorem words_plain {s : List Char} (hs : ∀ c ∈ s, Plain c) (w t : List Char) :
    words (.word w) (s ++ t) = words (.word (w ++ s)) t := by
  induction s generalizing w with
  | nil => rw [List.nil_append, List.append_nil]
  | cons c s ih =>
    rw [List.cons_append, words, if_pos (hs c List.mem_cons_self),
      ih fun d hd => hs d (List.mem_cons_of_mem c hd), List.append_assoc, List.singleton_append]

theorem words_stop {t : List Char} (ht : Stops t) (w : List Char) :
    words (.word w) t = flush w ++ words (.word []) t := by
  cases t with
  | nil => exact (List.append_nil _).symm
  | cons c t =>
    have hc : ¬ Plain c := ht c rfl
    rw [words, if_neg hc, words, if_neg hc]
    rfl

/-- Punctuation, but for the quote. -/
theorem words_mark {c : Char} (hc : ¬ Plain c) (hquote : c ≠ '\x22') (t : List Char) :
    words (.word []) (c :: t) = words (.word []) t := by
  rw [words, if_neg hc, if_neg hquote]
  rfl

theorem words_space {a : List Char} (ha : Space a) (t : List Char) :
    words (.word []) (a ++ t) = words (.word []) t := by
  induction a with
  | nil => rfl
  | cons c a ih =>
    have hc := ha c List.mem_cons_self
    rw [List.cons_append, words_mark, ih fun d hd => ha d (List.mem_cons_of_mem c hd)]
    · apply not_plain_of_mem
      rcases hc with rfl | rfl | rfl | rfl <;> simp
    · rcases hc with rfl | rfl | rfl | rfl <;> decide

theorem words_body {s : List Char} (hs : Body s) (t : List Char) :
    words .quote (s ++ t) = words .quote t := by
  have hhex : ∀ c ∈ hexDigits, c ≠ '\x22' ∧ c ≠ '\x5c' := forall_of_all (by decide)
  induction hs with
  | nil => rfl
  | char h₁ h₂ _ _ ih => rw [List.cons_append, words, if_neg h₁, if_neg h₂, ih]
  | escape _ _ ih =>
    rw [List.cons_append, List.cons_append, words, if_neg (by decide), if_pos rfl, words, ih]
  | hex h₁ h₂ h₃ h₄ _ ih =>
    simp only [List.cons_append]
    rw [words, if_neg (by decide), if_pos rfl, words, words, if_neg (hhex _ h₁).1,
      if_neg (hhex _ h₁).2, words, if_neg (hhex _ h₂).1, if_neg (hhex _ h₂).2, words,
      if_neg (hhex _ h₃).1, if_neg (hhex _ h₃).2, words, if_neg (hhex _ h₄).1,
      if_neg (hhex _ h₄).2, ih]

theorem words_quoted {s : List Char} (hs : Body s) (t : List Char) :
    words (.word []) (quoted s ++ t) = words (.word []) t := by
  rw [quoted, List.cons_append, words, if_neg (by decide), if_pos rfl, List.append_assoc,
    words_body hs, List.singleton_append, words, if_pos rfl]
  rfl

/-! ### Pieces -/

/-- The words of a piece are `ws`, whatever follows. -/
def Spells (s : List Char) (ws : List (List Char)) : Prop :=
  ∀ t, Stops t → words (.word []) (s ++ t) = ws ++ words (.word []) t

def marks : List Char := ['[', '\x7b', ']', '\x7d', ',', ':']

theorem not_plain_mark {c : Char} (h : c ∈ marks) : ¬ Plain c :=
  forall_of_all (p := fun c => ¬ Plain c) (by decide) c h

theorem mark_ne_quote {c : Char} (h : c ∈ marks) : c ≠ '\x22' :=
  forall_of_all (p := fun c => c ≠ '\x22') (by decide) c h

theorem Spells.nil : Spells [] [] := fun _ _ => rfl

/-- **A word**, with an end to it. -/
theorem spells_word {s : List Char} (hne : s ≠ []) (hs : ∀ c ∈ s, Plain c) : Spells s [s] := by
  intro t ht
  rw [words_plain hs, words_stop ht, List.nil_append, flush, if_neg hne]

theorem spells_quoted {s : List Char} (h : Body s) : Spells (quoted s) [] :=
  fun t _ => words_quoted h t

theorem spells_space {s : List Char} (h : Space s) : Spells s [] := fun t _ => words_space h t

theorem Spells.mark {s : List Char} {ws : List (List Char)} (h : Spells s ws) {c : Char}
    (hc : c ∈ marks) : Spells (c :: s) ws := by
  intro t ht
  rw [List.cons_append, words_mark (not_plain_mark hc) (mark_ne_quote hc)]
  exact h t ht

theorem Spells.append {s s' : List Char} {ws ws' : List (List Char)} (h : Spells s ws) {c : Char}
    (hc : c ∈ marks) (h' : Spells s' ws') : Spells (s ++ c :: s') (ws ++ ws') := by
  intro t ht
  rw [List.append_assoc, h (c :: s' ++ t) (stops_cons (not_plain_mark hc) _), h'.mark hc t ht,
    List.append_assoc]

theorem Spells.close {s : List Char} {ws : List (List Char)} (h : Spells s ws) {c : Char}
    (hc : c ∈ marks) : Spells (s ++ [c]) ws := by
  have := h.append hc .nil
  rwa [List.append_nil] at this

theorem Spells.pad {a s b : List Char} {ws : List (List Char)} (h : Spells s ws) (ha : Space a)
    (hb : Space b) : Spells (a ++ s ++ b) ws := by
  intro t ht
  rw [List.append_assoc, List.append_assoc, words_space ha, h (b ++ t) (stops_space hb ht),
    words_space hb]

theorem spells_intercalate {ss : List (List Char)} {wss : List (List (List Char))}
    (h : List.Forall₂ Spells ss wss) : Spells ([','].intercalate ss) wss.flatten := by
  induction h with
  | nil => exact .nil
  | @cons s ws ss wss hs hss ih =>
    cases hss with
    | nil => simpa using hs
    | cons hs' hss' =>
      rw [List.intercalate_cons_cons, List.flatten_cons, List.append_assoc, List.singleton_append]
      exact hs.append (by decide) ih

/-! ### The grammar -/

theorem Literal.plain {s : List Char} (h : Literal s) : s ≠ [] ∧ ∀ c ∈ s, Plain c := by
  cases h with
  | num h => exact plain_number h
  | _ => exact ⟨List.cons_ne_nil _ _, forall_of_all (by decide)⟩

theorem Number.head {s : List Char} (h : Number s) : ∀ c ∈ s.head?, c = '-' ∨ c.isDigit = true := by
  cases h with
  | @mk minus int frac exp hminus hint _ _ =>
    intro c hc
    rcases hminus with rfl | rfl
    · -- no sign, so the first digit
      right
      rcases hint with rfl | ⟨⟨hne, hdigits⟩, _⟩
      · cases hc
        decide
      · cases int with
        | nil => exact absurd rfl hne
        | cons d int =>
          cases hc
          exact hdigits _ List.mem_cons_self
    · left
      cases hc
      rfl

/-- What a float that is not a number is printed as is no literal. -/
theorem not_literal_nan : ¬ Literal ['n', 'a', 'n'] := by
  intro h
  cases h with
  | num h => exact absurd (h.head 'n' rfl) (by decide)

theorem Literal.text {s : List Char} (h : Literal s) : ∃ x, Text (.value x) s := by
  cases h with
  | null => exact ⟨_, .null⟩
  | true => exact ⟨_, .true⟩
  | false => exact ⟨_, .false⟩
  | num h => exact ⟨_, .num h⟩

/-- A piece whose words are literals. -/
def Spelled (s : List Char) : Prop := ∃ ws, Spells s ws ∧ ∀ w ∈ ws, Literal w

theorem Literal.spelled {s : List Char} (h : Literal s) : Spelled s :=
  ⟨[s], spells_word h.plain.1 h.plain.2, List.forall_mem_singleton.mpr h⟩

theorem Spelled.append {s s' : List Char} (h : Spelled s) {c : Char} (hc : c ∈ marks)
    (h' : Spelled s') : Spelled (s ++ c :: s') := by
  obtain ⟨ws, hs, hws⟩ := h
  obtain ⟨ws', hs', hws'⟩ := h'
  exact ⟨_, hs.append hc hs', List.forall_mem_append.mpr ⟨hws, hws'⟩⟩

theorem Spelled.bracket {s : List Char} (h : Spelled s) {c d : Char} (hc : c ∈ marks)
    (hd : d ∈ marks) : Spelled (c :: (s ++ [d])) := by
  obtain ⟨ws, hs, hws⟩ := h
  exact ⟨ws, (hs.close hd).mark hc, hws⟩

theorem Spelled.pad {a s b : List Char} (h : Spelled s) (ha : Space a) (hb : Space b) :
    Spelled (a ++ s ++ b) := by
  obtain ⟨ws, hs, hws⟩ := h
  exact ⟨ws, hs.pad ha hb, hws⟩

theorem spelled_quoted {s : List Char} (h : Body s) : Spelled (quoted s) :=
  ⟨[], spells_quoted h, List.forall_mem_nil _⟩

/-- **A piece of the grammar** has only literals for words. -/
theorem spelled_text {p : Part} {s : List Char} (h : Text p s) : Spelled s := by
  induction h with
  | null => exact Literal.null.spelled
  | true => exact Literal.true.spelled
  | false => exact Literal.false.spelled
  | num h => exact (Literal.num h).spelled
  | str h => exact spelled_quoted h
  | empty_arr hw | empty_obj hw =>
    exact Spelled.bracket ⟨[], spells_space hw, List.forall_mem_nil _⟩ (by decide) (by decide)
  | arr _ ih | obj _ ih => exact ih.bracket (by decide) (by decide)
  | element ha _ hb ih => exact ih.pad ha hb
  | elements ha _ hb _ ih iht => exact (ih.pad ha hb).append (by decide) iht
  | member ha hk hb hc _ hd ih =>
    exact ((spelled_quoted hk).pad ha hb).append (by decide) (ih.pad hc hd)
  | members ha hk hb hc _ hd _ ih iht =>
    exact (((spelled_quoted hk).pad ha hb).append (by decide) (ih.pad hc hd)).append (by decide) iht

/-- **Every word of a JSON text is a literal.** -/
theorem Denotes.literal {j : Json} {s : List Char} (h : Denotes j s) {ws : List (List Char)}
    (hs : Spells s ws) : ∀ w ∈ ws, Literal w := by
  obtain ⟨a, b, v, ha, hv, hb, rfl⟩ := h
  obtain ⟨ws', hs', hws'⟩ := (spelled_text hv).pad ha hb
  have heq := (hs [] stops_nil).symm.trans (hs' [] stops_nil)
  rw [List.append_cancel_right heq]
  exact hws'

end Json

end EnresLogger.Lib
