import EnresLogger.SPIFlashMeter

/-!
# Appending on a chip that works

`writeByteArray` refuses a range that is not erased, and `writeRecords` erases
only the sectors that start inside the batch.  What a batch needs is therefore
`Ready`: the index starts a sector, or the rest of its sector is erased.

`Mounted.append` says that this is enough on a healthy chip and that it holds
again at the next index: the write succeeds, and the rest of the last sector is
as the erase left it.
-/

namespace EnresLogger

open Lib

namespace SPIFlashMeter

/-- The index starts a sector, or every cell from its location to the end of
its sector is erased. -/
def Ready (m : SPIFlashMeter) (index : Nat) : Prop :=
  index % 64 = 0 ∨
    m.flash.mem.blank (loc (index % m.maxRecord)) (64 * (64 - index % 64)) = true

instance (m : SPIFlashMeter) (index : Nat) : Decidable (m.Ready index) := by
  unfold Ready; infer_instance

/-- The location of index `j` is erased. -/
def BlankAt (m : SPIFlashMeter) (f : SPIFlash) (j : Nat) : Prop :=
  ∀ x, loc (j % m.maxRecord) ≤ x → x < loc (j % m.maxRecord) + 64 → f.mem x = 0xFF

section Append

variable {m : SPIFlashMeter} (hm : m.Mounted)
include hm

theorem Mounted.loc_sector {s j : Nat} (h1 : s ≤ j) (h2 : j < s / 64 * 64 + 64) :
    loc (j % m.maxRecord) = loc (s % m.maxRecord) + 64 * (j - s) := by
  have hlt := hm.mod_lt s
  have hmod := hm.mod_sector s
  obtain ⟨q, hq⟩ := hm.sectors
  obtain ⟨k, rfl⟩ := Nat.exists_eq_add_of_le h1
  rw [ring_add (by omega), loc, loc]
  omega

/-- The rest of the sector, index by index. -/
theorem Mounted.ready_iff {index : Nat} :
    m.Ready index ↔ ∀ j, index ≤ j → j < ceilTo 64 index → m.BlankAt m.flash j := by
  rw [Ready, Mem.blank_iff]
  have hceil := le_ceilTo (show 0 < 64 by omega) index
  have hlt := ceilTo_lt (show 0 < 64 by omega) index
  obtain ⟨q, hq⟩ := dvd_ceilTo 64 index
  constructor
  · rintro (h0 | h) j h1 h2 x hx1 hx2
    · rw [ceilTo_of_dvd (by omega) (Nat.dvd_of_mod_eq_zero h0)] at h2
      omega
    · rw [hm.loc_sector h1 (by omega)] at hx1 hx2
      exact h x (by omega) (by omega)
  · intro h
    by_cases h0 : index % 64 = 0
    · exact Or.inl h0
    · refine Or.inr (fun x hx1 hx2 => ?_)
      have hj : index + (x - loc (index % m.maxRecord)) / 64 < ceilTo 64 index := by omega
      have hloc := hm.loc_sector (s := index)
        (j := index + (x - loc (index % m.maxRecord)) / 64) (by omega) (by omega)
      exact h _ (by omega) hj x (by omega) (by omega)

omit hm in
theorem eraseSector_done_blank {f : SPIFlash} {address x : Nat} (h : f.mem x = 0xFF) :
    (f.eraseSector .done address).2.mem x = 0xFF := by
  simp only [SPIFlash.eraseSector, Mem.erase, Mem.overlay]
  split
  · rfl
  · exact h

omit hm in
theorem eraseLoop_done_blank {x : Nat} (index n : Nat) (h : m.flash.mem x = 0xFF) :
    (m.eraseLoop (fun _ => .done) index n).mem x = 0xFF := by
  rw [eraseLoop]
  induction n with
  | zero => exact h
  | succ n ih =>
    rw [List.range_succ, List.foldl_append, List.foldl_cons, List.foldl_nil]
    split
    · exact eraseSector_done_blank ih
    · exact ih

/-- **The loop erases the whole sector of every sector start in the batch.** -/
theorem Mounted.eraseLoop_done_sector {index n i x : Nat} (hidx : index + n ≤ 4294967296)
    (hi : i < n) (hs : 64 ∣ index + i) (h1 : loc ((index + i) % m.maxRecord) ≤ x)
    (h2 : x < loc ((index + i) % m.maxRecord) + 4096) :
    (m.eraseLoop (fun _ => .done) index n).mem x = 0xFF := by
  induction n with
  | zero => omega
  | succ n ih =>
    rw [eraseLoop, List.range_succ, List.foldl_append, List.foldl_cons, List.foldl_nil,
      ← eraseLoop, hm.recordSize, Nat.mod_eq_of_lt (show index + n < 4294967296 by omega)]
    rcases Nat.lt_or_eq_of_le (Nat.le_of_lt_succ hi) with hin | rfl
    · split
      · exact eraseSector_done_blank (ih (by omega) hin)
      · exact ih (by omega) hin
    · rw [if_pos (show (index + i) % (sectorSize / 64) = 0 from Nat.mod_eq_zero_of_dvd hs)]
      simp only [SPIFlash.eraseSector, hm.erase_base hs]
      exact Mem.overlay_of_mem h1 h2

theorem Mounted.eraseLoop_blankAt {index n : Nat} (hidx : index + n ≤ 4294967296)
    (hready : m.Ready index) {j : Nat} (h1 : index ≤ j) (h2 : j < ceilTo 64 (index + n)) :
    m.BlankAt (m.eraseLoop (fun _ => .done) index n) j := by
  intro x hx1 hx2
  by_cases hj : j < ceilTo 64 index
  · exact eraseLoop_done_blank index n (hm.ready_iff.mp hready j h1 hj x hx1 hx2)
  · -- the sector of `j` starts in the batch
    have hlow := le_ceilTo (show 0 < 64 by omega) index
    have hhigh := ceilTo_lt (show 0 < 64 by omega) (index + n)
    obtain ⟨q, hq⟩ := dvd_ceilTo 64 index
    obtain ⟨q', hq'⟩ := dvd_ceilTo 64 (index + n)
    have hi : index + (j / 64 * 64 - index) = j / 64 * 64 := by omega
    refine hm.eraseLoop_done_sector (i := j / 64 * 64 - index) hidx (by omega) ?_ ?_ ?_
    · rw [hi]
      exact Nat.dvd_mul_left 64 (j / 64)
    · rw [hi]
      rw [hm.loc_sector (s := j / 64 * 64) (by omega) (by omega)] at hx1
      omega
    · rw [hi]
      rw [hm.loc_sector (s := j / 64 * 64) (by omega) (by omega)] at hx2
      omega

omit hm in
theorem blank_of_blankAt {f : SPIFlash} {s n : Nat} (hn : s % m.maxRecord + n ≤ m.maxRecord)
    (h : ∀ j, s ≤ j → j < s + n → m.BlankAt f j) :
    f.mem.blank (loc (s % m.maxRecord)) (64 * n) = true := by
  refine Mem.blank_iff.mpr (fun x h1 h2 => ?_)
  have hloc : loc ((s + (x - loc (s % m.maxRecord)) / 64) % m.maxRecord) =
      loc (s % m.maxRecord) + 64 * ((x - loc (s % m.maxRecord)) / 64) := by
    rw [ring_add (by omega), loc, loc]
    omega
  exact h (s + (x - loc (s % m.maxRecord)) / 64) (by omega) (by omega) x (by omega) (by omega)

/-- **Appending succeeds, and leaves the next index ready.** -/
theorem Mounted.append {index n : Nat} {buff : List UInt8} (hlen : buff.length = 64 * n)
    (hn : n ≤ 64) (hidx : index + n ≤ 4294967296) (hmax : 128 ≤ m.maxRecord)
    (hready : m.Ready index) :
    (m.writeRecords .healthy index buff).1 = true ∧
      (m.writeRecords .healthy index buff).2.Ready (index + n) := by
  have h1 := hm.mod_lt index
  have hceil := le_ceilTo (show 0 < 64 by omega) (index + n)
  have hceil' := ceilTo_lt (show 0 < 64 by omega) (index + n)
  have hcap := eraseLoop_capacity (m := m) (fun _ => .done) index n
  have hblank := fun {j : Nat} => hm.eraseLoop_blankAt hidx hready (j := j)
  constructor
  · by_cases hend : index % m.maxRecord + n ≤ m.maxRecord
    · rw [hm.writeRecords_whole hlen (by omega) hend]
      have hr := hm.inRange hcap h1 hend
      have hb := blank_of_blankAt hend (fun j hj1 hj2 => hblank hj1 (by omega))
      rw [← hlen] at hr hb
      simp only [WriteOutcome.healthy, SPIFlash.writeByteArray_healthy hr (by omega) hb]
    · rw [hm.writeRecords_split hlen (by omega) (by omega)]
      have hk : (buff.take (64 * (m.maxRecord - index % m.maxRecord))).length =
          64 * (m.maxRecord - index % m.maxRecord) := by
        rw [List.length_take, hlen]
        omega
      have hk' : (buff.drop (64 * (m.maxRecord - index % m.maxRecord))).length =
          64 * (index % m.maxRecord + n - m.maxRecord) := by
        rw [List.length_drop, hlen]
        omega
      have hzero : (index + (m.maxRecord - index % m.maxRecord)) % m.maxRecord = 0 := by
        rw [ring_add_wrap (by omega) (by omega)]
        omega
      have hr := hm.inRange hcap h1
        (show index % m.maxRecord + (m.maxRecord - index % m.maxRecord) ≤ m.maxRecord by omega)
      have hb := blank_of_blankAt (s := index) (n := m.maxRecord - index % m.maxRecord) (by omega)
        (fun j hj1 hj2 => hblank hj1 (by omega))
      rw [← hk] at hr hb
      have hok := SPIFlash.writeByteArray_healthy hr (by omega) hb
      obtain ⟨_, heff, hc⟩ := SPIFlash.writeByteArray_effect (o := .healthy) hr (by omega)
      have hr' := hm.inRange (heff.capacity.trans hcap) (show 0 < m.maxRecord by omega)
        (show 0 + (index % m.maxRecord + n - m.maxRecord) ≤ m.maxRecord by omega)
      have hb' := blank_of_blankAt (s := index + (m.maxRecord - index % m.maxRecord))
        (n := index % m.maxRecord + n - m.maxRecord) (by rw [hzero]; omega)
        (fun j hj1 hj2 => hblank (by omega) (by omega))
      rw [hzero, ← Mem.blank_congr (heff.read_eq ?_), ← hk'] at hb'
      · rw [← hk'] at hr'
        have hok' := SPIFlash.writeByteArray_healthy hr' (by omega) hb'
        simp only [WriteOutcome.healthy, hok', Bool.and_true]
        simp only [hok]
      · -- the first program ends at the ring end
        intro c h x hx1 hx2
        rw [hc c h]
        simp only [Cmd.Covers, hk, loc] at hx1 hx2 ⊢
        omega
  · have hm' := hm.writeRecords_mounted .healthy hlen hn hidx
    obtain ⟨new, heff, hwin⟩ := hm.program_effect .healthy index hlen hn
    refine hm'.ready_iff.mpr (fun j hj1 hj2 x hx1 hx2 => ?_)
    rw [writeRecords_maxRecord] at hx1 hx2
    rw [heff.frame x (fun c hc => (hwin c hc).not_covers (k := j % m.maxRecord) ?_ hx1 hx2)]
    · exact hblank (by omega) hj2 x hx1 hx2
    · -- a lap holds two sectors, so the batch has not come round to `j`
      intro i hi1 hi2
      exact ring_ne (by omega) (by omega)

theorem Mounted.eraseLoop_mounted (o : Nat → EraseOutcome) (index n : Nat) :
    Mounted { m with flash := m.eraseLoop o index n } := by
  have hcap := eraseLoop_capacity (m := m) o index n
  exact ⟨hm.recordSize, hcap.trans hm.capacity, hm.sectors, hm.pos, hcap ▸ hm.bus⟩

/-- The erases of a batch, whatever they do, leave the rest of its first sector
alone. -/
theorem Mounted.ready_eraseLoop (o : Nat → EraseOutcome) {index n : Nat} (hn : n ≤ 64)
    (hidx : index + n ≤ 4294967296) (hmax : 128 ≤ m.maxRecord) (hready : m.Ready index) :
    Ready { m with flash := m.eraseLoop o index n } index := by
  obtain ⟨new, heff, hwin⟩ := hm.eraseLoop_effect o n hidx
  have hlow := le_ceilTo (show 0 < 64 by omega) index
  have hhigh := ceilTo_lt (show 0 < 64 by omega) (index + n)
  refine (hm.eraseLoop_mounted o index n).ready_iff.mpr (fun j h1 h2 x hx1 hx2 => ?_)
  have hkeep := heff.frame x (fun c hc => (hwin c hc).not_covers (k := j % m.maxRecord)
    (fun i hi1 hi2 => (ring_ne (by omega) (by omega)).symm) hx1 hx2)
  exact hkeep.trans (hm.ready_iff.mp hready j h1 h2 x hx1 hx2)

theorem Mounted.ready_writeRecords_zero (o : WriteOutcome) {index : Nat} {buff : List UInt8}
    (hlen : buff.length = 64 * 0) (hidx : index + 0 ≤ 4294967296) (hready : m.Ready index) :
    (m.writeRecords o index buff).2.Ready index := by
  obtain ⟨new, heff, hwin⟩ := hm.program_effect o index hlen (by omega)
  refine (hm.writeRecords_mounted o hlen (by omega) hidx).ready_iff.mpr
    (fun j h1 h2 x hx1 hx2 => ?_)
  rw [writeRecords_maxRecord] at hx1 hx2
  rw [heff.frame x (fun c hc => (hwin c hc).not_covers (k := j % m.maxRecord)
    (fun i hi1 hi2 => by omega) hx1 hx2)]
  exact hm.ready_iff.mp hready j h1 h2 x hx1 hx2

end Append

end SPIFlashMeter

end EnresLogger
