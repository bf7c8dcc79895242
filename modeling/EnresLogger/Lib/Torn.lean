import Mathlib.Algebra.Ring.Nat
import EnresLogger.Lib.Bytes
import EnresLogger.Lib.Memory

/-!
# Words stored byte by byte

A word that is stored lowest byte first, and of which only `i` bytes get through, is
left with its low `i` bytes new and the others old: `torn`.

A store of a greater word leaves that word or, if the low `i` bytes are carried out of, one
that is `256 ^ i` less: `torn_add`.
-/

namespace EnresLogger.Lib

/-- The low `i` bytes are those of `new`. -/
def torn (old new i : Nat) : Nat := old / 256 ^ i * 256 ^ i + new % 256 ^ i

theorem torn_lt {old new i k : Nat} (hi : i ≤ k) (hold : old < 256 ^ k) :
    torn old new i < 256 ^ k := by
  obtain ⟨d, rfl⟩ := Nat.exists_eq_add_of_le hi
  have hpos : 0 < 256 ^ i := Nat.pow_pos (by decide)
  rw [Nat.pow_add] at hold ⊢
  have hq : old / 256 ^ i < 256 ^ d := Nat.div_lt_of_lt_mul hold
  have hr := Nat.mod_lt new hpos
  rw [torn]
  calc old / 256 ^ i * 256 ^ i + new % 256 ^ i
      < old / 256 ^ i * 256 ^ i + 256 ^ i := Nat.add_lt_add_left hr _
    _ = (old / 256 ^ i + 1) * 256 ^ i := (Nat.succ_mul _ _).symm
    _ ≤ 256 ^ d * 256 ^ i := Nat.mul_le_mul_right _ hq
    _ = 256 ^ i * 256 ^ d := Nat.mul_comm _ _

/-- **The store of a greater word.** -/
theorem torn_add {old n i : Nat} (hn : n ≤ 256 ^ i) :
    torn old (old + n) i =
      if old % 256 ^ i + n < 256 ^ i then old + n else old + n - 256 ^ i := by
  have hpos : 0 < 256 ^ i := Nat.pow_pos (by decide)
  rw [torn]
  generalize 256 ^ i = p at hn hpos ⊢
  have hdiv := Nat.div_add_mod' old p
  have hlt := Nat.mod_lt old hpos
  rw [← Nat.mod_add_mod]
  generalize old % p = r at hdiv hlt ⊢
  split
  · rename_i h
    rw [Nat.mod_eq_of_lt h]
    omega
  · rename_i h
    rw [Nat.mod_eq_sub_mod (Nat.not_lt.mp h), Nat.mod_eq_of_lt (by omega)]
    omega

theorem torn_self (n i : Nat) : torn n n i = n := Nat.div_add_mod' n (256 ^ i)

theorem torn_to_zero (n i : Nat) : torn n 0 i = n / 256 ^ i * 256 ^ i := by
  rw [torn, Nat.zero_mod, Nat.add_zero]

theorem torn_full {old new k : Nat} (hold : old < 256 ^ k) (hnew : new < 256 ^ k) :
    torn old new k = new := by
  rw [torn, Nat.div_eq_of_lt hold, Nat.mod_eq_of_lt hnew, Nat.zero_mul, Nat.zero_add]

/-! ### In a memory -/

/-- A word of which the first `i` bytes are new. -/
theorem leWord_torn {bs : List UInt8} (hbs : bs.length = 4) (new : UInt32) {i : Nat} (hi : i ≤ 4) :
    (leWord ((leBytes new).take i ++ bs.drop i)).toNat = torn (leWord bs).toNat new.toNat i := by
  match bs, hbs with
  | [a, b, c, d], _ =>
    have ha := a.toNat_lt
    have hb := b.toNat_lt
    have hc := c.toNat_lt
    have hd := d.toNat_lt
    have hnew := new.toNat_lt
    have hcases : i = 0 ∨ i = 1 ∨ i = 2 ∨ i = 3 ∨ i = 4 := by omega
    rcases hcases with rfl | rfl | rfl | rfl | rfl <;>
    · simp only [leBytes, leWord, torn, List.take_succ_cons, List.take_zero, List.drop_succ_cons,
        List.drop_zero, List.nil_append, List.cons_append, UInt32.toNat_ofNat', UInt8.toNat_ofNat']
      omega

namespace Mem

/-- The bytes `bs` from `a` on. -/
def store (m : Mem) (a : Nat) (bs : List UInt8) : Mem :=
  m.overlay a bs.length fun x => bs.getD (x - a) 0

theorem read_store (m : Mem) (a : Nat) (bs : List UInt8) :
    (m.store a bs).read a bs.length = bs := by
  rw [read_eq_iff]
  intro i hi
  rw [store, overlay_of_mem (Nat.le_add_right a i) (Nat.add_lt_add_left hi a),
    Nat.add_sub_cancel_left, List.getD_eq_getElem _ _ hi]

theorem read_store_prefix (m : Mem) (a : Nat) {bs : List UInt8} {n : Nat} (h : bs.length ≤ n) :
    (m.store a bs).read a n = bs ++ (m.read a n).drop bs.length := by
  obtain ⟨d, rfl⟩ := Nat.exists_eq_add_of_le h
  rw [read_append, read_store, read_append, List.drop_left' (read_length m a _), store,
    read_overlay_disjoint (Or.inr (Nat.le_refl _))]

theorem read_store_disjoint {m : Mem} {a b n : Nat} {bs : List UInt8}
    (h : b + n ≤ a ∨ a + bs.length ≤ b) : (m.store a bs).read b n = m.read b n :=
  read_overlay_disjoint h

end Mem

end EnresLogger.Lib
