import Mathlib.Data.List.GetD
import Mathlib.Tactic.Common

/-!
# Byte memories and NOR cells

A memory is a function from addresses to bytes.  The operations here are the
ones a NOR flash knows: reading a range (`read`), setting a range to `0xFF`
(`erase`), and clearing bits of a range (`program`).  `overlay` replaces a
range by arbitrary bytes; it is what a failing operation may leave behind.

Each operation has two lemmas: what it does inside its range, and that it does
nothing outside.  `read_program_of_blank` is the one that makes a NOR cell a
store: programming a blank range writes exactly the bytes given.
-/

namespace EnresLogger.Lib

/-- A byte at every address. -/
abbrev Mem := Nat → UInt8

namespace Mem

/-- The `n` bytes from `a` on. -/
def read (m : Mem) (a n : Nat) : List UInt8 :=
  (List.range n).map fun i => m (a + i)

/-- The range `[a, a + n)` takes its bytes from `g`, the rest stays. -/
def overlay (m : Mem) (a n : Nat) (g : Mem) : Mem :=
  fun x => if a ≤ x ∧ x < a + n then g x else m x

/-- An erased cell reads `0xFF`. -/
def erase (m : Mem) (a n : Nat) : Mem :=
  m.overlay a n fun _ => 0xFF

/-- Programming only clears bits. -/
def program (m : Mem) (a : Nat) (bs : List UInt8) : Mem :=
  m.overlay a bs.length fun x => m x &&& bs.getD (x - a) 0xFF

/-- Every byte of the range is `0xFF`. -/
def blank (m : Mem) (a n : Nat) : Bool :=
  (m.read a n).all (· == 0xFF)

/-! ### Reading -/

@[simp] theorem read_length (m : Mem) (a n : Nat) : (m.read a n).length = n := by
  simp [read]

@[simp] theorem read_zero (m : Mem) (a : Nat) : m.read a 0 = [] := rfl

theorem read_getElem (m : Mem) (a n i : Nat) (h : i < (m.read a n).length) :
    (m.read a n)[i] = m (a + i) := by
  simp [read]

theorem read_congr {m m' : Mem} {a n : Nat} (h : ∀ x, a ≤ x → x < a + n → m x = m' x) :
    m.read a n = m'.read a n := by
  refine List.map_congr_left (fun i hi => h (a + i) (by omega) ?_)
  have := List.mem_range.mp hi
  omega

theorem read_append (m : Mem) (a n k : Nat) :
    m.read a (n + k) = m.read a n ++ m.read (a + n) k := by
  simp [read, List.range_add, Nat.add_assoc, Function.comp_def]

theorem read_eq_iff {m : Mem} {a : Nat} {bs : List UInt8} :
    m.read a bs.length = bs ↔ ∀ i, (h : i < bs.length) → m (a + i) = bs[i] := by
  constructor
  · intro h i hi
    have := read_getElem m a bs.length i (by simpa using hi)
    rw [← this]
    simp only [h]
  · intro h
    refine List.ext_getElem (by simp) (fun i h1 h2 => ?_)
    rw [read_getElem, h i h2]

theorem read_drop_take {m : Mem} {a : Nat} {bs : List UInt8} (h : m.read a bs.length = bs)
    {i k : Nat} (hk : i + k ≤ bs.length) : m.read (a + i) k = (bs.drop i).take k := by
  refine List.ext_getElem (by simp; omega) (fun j h1 h2 => ?_)
  simp only [read_length] at h1
  rw [read_getElem, List.getElem_take, List.getElem_drop, Nat.add_assoc]
  exact read_eq_iff.mp h (i + j) (by omega)

/-! ### Overlays -/

theorem overlay_of_mem {m g : Mem} {a n x : Nat} (h1 : a ≤ x) (h2 : x < a + n) :
    m.overlay a n g x = g x := if_pos ⟨h1, h2⟩

theorem overlay_of_not_mem {m g : Mem} {a n x : Nat} (h : x < a ∨ a + n ≤ x) :
    m.overlay a n g x = m x := if_neg (by omega)

theorem erase_of_not_mem {m : Mem} {a n x : Nat} (h : x < a ∨ a + n ≤ x) :
    m.erase a n x = m x := overlay_of_not_mem h

theorem program_of_not_mem {m : Mem} {a x : Nat} {bs : List UInt8}
    (h : x < a ∨ a + bs.length ≤ x) : m.program a bs x = m x := overlay_of_not_mem h

theorem read_overlay_disjoint {m g : Mem} {a n b k : Nat} (h : b + k ≤ a ∨ a + n ≤ b) :
    (m.overlay a n g).read b k = m.read b k :=
  read_congr (fun _ h1 h2 => overlay_of_not_mem (by omega))

theorem read_program_disjoint {m : Mem} {a b k : Nat} {bs : List UInt8}
    (h : b + k ≤ a ∨ a + bs.length ≤ b) : (m.program a bs).read b k = m.read b k :=
  read_overlay_disjoint h

/-! ### Blank ranges -/

theorem blank_iff {m : Mem} {a n : Nat} :
    m.blank a n = true ↔ ∀ x, a ≤ x → x < a + n → m x = 0xFF := by
  rw [blank, List.all_eq_true]
  constructor
  · intro h x h1 h2
    have := h (m x) (by
      rw [read, List.mem_map]
      exact ⟨x - a, List.mem_range.mpr (by omega), by rw [Nat.add_sub_cancel' h1]⟩)
    simpa using this
  · intro h b hb
    rw [read, List.mem_map] at hb
    obtain ⟨i, hi, rfl⟩ := hb
    have := List.mem_range.mp hi
    simpa using h (a + i) (by omega) (by omega)

theorem blank_mono {m : Mem} {a n b k : Nat} (h : m.blank a n = true) (h1 : a ≤ b)
    (h2 : b + k ≤ a + n) : m.blank b k = true :=
  blank_iff.mpr (fun x hx1 hx2 => blank_iff.mp h x (by omega) (by omega))

theorem blank_erase {m : Mem} {a n b k : Nat} (h1 : a ≤ b) (h2 : b + k ≤ a + n) :
    (m.erase a n).blank b k = true :=
  blank_iff.mpr (fun _ hx1 hx2 => overlay_of_mem (by omega) (by omega))

theorem blank_congr {m m' : Mem} {a n : Nat} (h : m.read a n = m'.read a n) :
    m.blank a n = m'.blank a n := by
  rw [blank, blank, h]

/-! ### Programming blank cells -/

theorem uint8_ff_and (b : UInt8) : 0xFF &&& b = b := by
  apply UInt8.toNat_inj.mp
  have hb : b.toNat < 256 := b.toNat_lt
  rw [UInt8.toNat_and, show (0xFF : UInt8).toNat = 2 ^ 8 - 1 from rfl, Nat.and_comm,
    Nat.and_two_pow_sub_one_eq_mod]
  omega

theorem program_of_blank {m : Mem} {a : Nat} {bs : List UInt8}
    (h : m.blank a bs.length = true) {x : Nat} (h1 : a ≤ x) (h2 : x < a + bs.length) :
    m.program a bs x = bs.getD (x - a) 0xFF := by
  rw [program, overlay_of_mem h1 h2, blank_iff.mp h x h1 h2, uint8_ff_and]

/-- **Programming a blank range stores the bytes.** -/
theorem read_program_of_blank {m : Mem} {a : Nat} {bs : List UInt8}
    (h : m.blank a bs.length = true) : (m.program a bs).read a bs.length = bs := by
  refine read_eq_iff.mpr (fun i hi => ?_)
  rw [program_of_blank h (by omega) (by omega), Nat.add_sub_cancel_left,
    List.getD_eq_getElem _ _ hi]

/-- Programming a range in two parts is programming it at once. -/
theorem program_append (m : Mem) (a : Nat) (bs cs : List UInt8) :
    (m.program a bs).program (a + bs.length) cs = m.program a (bs ++ cs) := by
  funext x
  simp only [program, overlay, List.length_append]
  by_cases h1 : a ≤ x ∧ x < a + bs.length
  · have h2 : ¬ (a + bs.length ≤ x ∧ x < a + bs.length + cs.length) := by omega
    have h3 : a ≤ x ∧ x < a + (bs.length + cs.length) := by omega
    rw [if_neg h2, if_pos h1, if_pos h3, List.getD_append _ _ _ _ (by omega)]
  · by_cases h2 : a + bs.length ≤ x ∧ x < a + bs.length + cs.length
    · have h3 : a ≤ x ∧ x < a + (bs.length + cs.length) := by omega
      rw [if_pos h2, if_neg h1, if_pos h3, List.getD_append_right _ _ _ _ (by omega),
        Nat.sub_sub]
    · have h3 : ¬ (a ≤ x ∧ x < a + (bs.length + cs.length)) := by omega
      rw [if_neg h2, if_neg h1, if_neg h3]

@[simp] theorem program_nil (m : Mem) (a : Nat) : m.program a [] = m := by
  funext x
  exact overlay_of_not_mem (by simp; omega)

end Mem

end EnresLogger.Lib
