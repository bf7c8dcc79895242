import EnresLogger.Areas
import EnresLogger.ConfigFlash
import EnresLogger.Lib.Counter

/-!
# Storing a text of any length

Nothing bounds the text of `/config` before `writeConfigFlash` copies it into an
array of 4096 bytes and goes through it with a `uint8_t`.  Here the call is taken
apart into the bytes of the array it touches and the calls of the driver it
makes, round by round, also behind the point where the array is left.

The array holds texts of up to 4095 characters (`configBuffer_iff`).  From 8192
characters on the pages run into the ring (`configReserved_iff`), and from 65280
on the loop does not end (`configEnds_iff`).
-/

namespace EnresLogger

open Lib

/-! ### The call, access by access -/

namespace SPIFlashMeter

/-- The ranges of `buff` that `toCharArray(buff, length)` stores to: the
characters and the NUL. -/
def toCharArrayStores (length : Nat) : List (Nat × Nat) :=
  if length = 0 then [] else [(0, length - 1), (length - 1, 1)]

/-- The values of `i` in the first `fuel` rounds, and whether the loop has ended. -/
def configRounds (length fuel : Nat) : List Nat × Bool :=
  counts 256 (length / pageSize) fuel 0

/-- The ranges of `buff` that are stored to and loaded from, by offset and size. -/
def configBuffer (length fuel : Nat) : List (Nat × Nat) :=
  toCharArrayStores length ++
    (configRounds length fuel).1.map fun i => (i * pageSize, pageSize)

/-- The calls of the driver. -/
def configAccesses (length fuel : Nat) : List Access :=
  .erase configAddress ::
    (configRounds length fuel).1.map fun i => .program (SPIFlash.getAddress i 0) pageSize

/-- The text goes into the reserved part of the chip, and nowhere else. -/
structure StoresConfig (m : SPIFlashMeter) (o : ConfigOutcome) (config : List UInt8) : Prop where
  ends : ∃ fuel, (configRounds config.length fuel).2 = true
  buffer : ∀ fuel, ∀ a ∈ configBuffer config.length fuel, a.1 + a.2 ≤ configSize
  reserved : ∀ fuel, ∀ a ∈ configAccesses config.length fuel, a.address + a.size ≤ reserveSize
  ring : ∃ m', m.writeConfigFlash o config = some (true, m') ∧
    ∀ x, reserveSize ≤ x → m'.flash.mem x = m.flash.mem x

variable {m : SPIFlashMeter} {o : ConfigOutcome} {c : List UInt8}

/-- **`toCharArray` stores to these ranges**, and so stays in an array that has
them. -/
theorem toCharArray_isSome {n : Nat} (c : List UInt8) (buf : Buf n)
    (h : ∀ a ∈ toCharArrayStores c.length, a.1 + a.2 ≤ n) :
    ∃ buff, toCharArray c buf c.length = some buff := by
  rw [toCharArray, getBytes]
  by_cases h0 : c.length = 0
  · exact ⟨buf, if_pos h0⟩
  · rw [if_neg h0, if_neg (by omega)]
    rw [toCharArrayStores, if_neg h0] at h
    have hnul := h (c.length - 1, 1) (by simp)
    have hk : min (c.length - 1) (c.length - 0) = c.length - 1 := by omega
    have hsize : (strncpy (c.drop 0) (c.length - 1)).length = c.length - 1 := by
      have htake := (List.takeWhile_sublist (· ≠ 0) (l := (c.drop 0).take (c.length - 1))).length_le
      rw [List.length_take] at htake
      rw [strncpy, List.length_append, List.length_replicate]
      omega
    have hchars : 0 + (strncpy (c.drop 0) (c.length - 1)).length ≤ n := by
      rw [hsize]
      omega
    have hlast : c.length - 1 + [(0 : UInt8)].length ≤ n := hnul
    obtain ⟨b1, h1⟩ := buf.put_isSome hchars
    obtain ⟨b2, h2⟩ := b1.put_isSome hlast
    refine ⟨b2, ?_⟩
    simp only [hk, h1, Option.bind_eq_bind, Option.bind_some]
    exact h2

/-- **`writeConfigFlash` goes through these rounds**, when there is an end to them. -/
theorem writeConfigFlash_rounds (h : c.length / pageSize + 1 < 256) :
    m.writeConfigFlash o c = (toCharArray c o.stack c.length).bind fun buff =>
      ((configRounds c.length (c.length / pageSize + 2)).1.foldlM
        (fun flash i => (buff.get (i * pageSize) pageSize).map fun data =>
          (flash.writeCharArray (o.page i) i 0 data).2)
        (m.flash.eraseSector o.erase configAddress).2).map fun flash => (true, { m with flash }) := by
  have hloop : ∀ (n : Nat) (f : Nat → SPIFlash → Option SPIFlash) (s : SPIFlash),
      forLoop n f s = (List.range n).foldlM (fun s i => f i s) s := fun _ _ _ => rfl
  rw [configRounds, counts_range h, writeConfigFlash]
  simp only [hloop, Option.bind_eq_bind, Option.pure_def, Option.map_eq_bind]
  rfl

/-! ### How long a text may be -/

/-- **The end of the loop.** -/
theorem configEnds_iff (length : Nat) :
    (∃ fuel, (configRounds length fuel).2 = true) ↔ length < 65280 := by
  simp only [configRounds]
  rw [ends_iff (by decide), pageSize]
  omega

/-- **The array.** -/
theorem configBuffer_iff (length : Nat) :
    (∀ fuel, ∀ a ∈ configBuffer length fuel, a.1 + a.2 ≤ configSize) ↔ length ≤ 4095 := by
  constructor
  · intro h
    by_contra hlen
    -- the page behind the array
    have hround : 16 ∈ (configRounds length 17).1 :=
      mem_counts (by rw [pageSize]; omega) (by decide)
    have hpage := h 17 (16 * pageSize, pageSize)
      (List.mem_append_right _ (List.mem_map_of_mem hround))
    simp only [pageSize, configSize] at hpage
    omega
  · intro hlen fuel a ha
    rw [configSize]
    rcases List.mem_append.mp ha with ha | ha
    · rw [toCharArrayStores] at ha
      split at ha
      · cases ha
      · simp only [List.mem_cons, List.not_mem_nil, or_false] at ha
        rcases ha with rfl | rfl
        · omega
        · omega
    · obtain ⟨i, hi, rfl⟩ := List.mem_map.mp ha
      have hle := (counts_le fuel (by decide) hi).1
      simp only [pageSize] at hle ⊢
      omega

/-- **The reserved part.** -/
theorem configReserved_iff (length : Nat) :
    (∀ fuel, ∀ a ∈ configAccesses length fuel, a.address + a.size ≤ reserveSize) ↔
      length ≤ 8191 := by
  constructor
  · intro h
    by_contra hlen
    -- the first page of the ring
    have hround : 32 ∈ (configRounds length 33).1 :=
      mem_counts (by rw [pageSize]; omega) (by decide)
    have hpage := h 33 (.program (SPIFlash.getAddress 32 0) pageSize)
      (List.mem_cons_of_mem _ (List.mem_map_of_mem hround))
    simp only [Access.address, Access.size, SPIFlash.getAddress, pageSize, reserveSize] at hpage
    omega
  · intro hlen fuel a ha
    rcases List.mem_cons.mp ha with rfl | ha
    · decide
    · obtain ⟨i, hi, rfl⟩ := List.mem_map.mp ha
      have hle := (counts_le fuel (by decide) hi).1
      simp only [Access.address, Access.size, SPIFlash.getAddress, pageSize, reserveSize] at hle ⊢
      omega

/-! ### What is left alone -/

/-- A page that starts in the first sector ends there, also on a chip that has no
such page and takes it at address 0. -/
theorem writeCharArray_frame (f : SPIFlash) (o : ProgOutcome) {i : Nat} (hi : i < 16)
    {data : List UInt8} (hlen : data.length = pageSize) {x : Nat} (hx : 4096 ≤ x) :
    (f.writeCharArray o i 0 data).2.mem x = f.mem x := by
  rw [pageSize] at hlen
  have haddr : SPIFlash.getAddress i 0 = 256 * i := by
    rw [SPIFlash.getAddress]
    omega
  obtain ⟨cur, hcur, hmod, hend⟩ : ∃ cur, f.addressCheck (256 * i) 256 = cur ∧ cur % 256 = 0 ∧
      cur + 256 ≤ 4096 := by
    rw [SPIFlash.addressCheck]
    split
    · exact ⟨0, rfl, rfl, by decide⟩
    · exact ⟨256 * i, rfl, by omega, by omega⟩
  have hbus : SPIFlash.busAddress cur = cur := Nat.mod_eq_of_lt (by omega)
  have htake : data.take (data.length % 65536) = data := by
    rw [hlen]
    exact List.take_of_length_le (Nat.le_of_eq hlen)
  rw [SPIFlash.writeCharArray, haddr, SPIFlash.writeByteArray]
  simp only [htake]
  rw [hlen, hcur, hbus]
  rw [SPIFlash.programPages_eq 256 (by omega) (by omega) (by omega) (by omega)]
  have hcells : o.cells f.mem cur data x = f.mem x := ProgOutcome.cells_of_not_mem (by omega)
  rw [ProgOutcome.cells, hlen] at hcells
  split
  · rfl
  · split
    · rfl
    · split
      · exact hcells
      · exact hcells

/-- **A text the array holds is stored in the first sector.** -/
theorem writeConfigFlash_frame (m : SPIFlashMeter) (o : ConfigOutcome) (hlen : c.length ≤ 4095) :
    ∃ m', m.writeConfigFlash o c = some (true, m') ∧
      ∀ x, 4096 ≤ x → m'.flash.mem x = m.flash.mem x := by
  obtain ⟨buff, hbuff⟩ := toCharArray_isSome c o.stack (fun a ha =>
    (configBuffer_iff c.length).mpr hlen 0 a (List.mem_append_left _ ha))
  have herase : ∀ x, 4096 ≤ x →
      (m.flash.eraseSector o.erase configAddress).2.mem x = m.flash.mem x := by
    intro x hx
    obtain ⟨new, heffect, hnew⟩ := m.flash.eraseSector_effect o.erase configAddress
    refine heffect.frame x (fun cmd hcmd hcovers => ?_)
    rw [hnew cmd hcmd] at hcovers
    exact absurd hcovers.2 (Nat.not_lt.mpr hx)
  have hpage : ∀ i ∈ (configRounds c.length (c.length / pageSize + 2)).1, ∀ f : SPIFlash,
      (∀ x, 4096 ≤ x → f.mem x = m.flash.mem x) →
      ∃ f', ((buff.get (i * pageSize) pageSize).map fun data =>
        (f.writeCharArray (o.page i) i 0 data).2) = some f' ∧
        ∀ x, 4096 ≤ x → f'.mem x = m.flash.mem x := by
    intro i hi f hf
    have hle := (counts_le _ (by decide) hi).1
    have hi' : i < 16 := by
      rw [pageSize] at hle
      omega
    obtain ⟨data, hdata⟩ := buff.get_isSome (i := i * pageSize) (k := pageSize)
      (by rw [pageSize]; omega)
    refine ⟨_, by rw [hdata]; rfl, fun x hx => ?_⟩
    rw [writeCharArray_frame f (o.page i) hi' (Buf.get_length hdata) hx, hf x hx]
  obtain ⟨flash, hflash, hframe⟩ := foldlM_spec hpage herase
  refine ⟨{ m with flash }, ?_, hframe⟩
  rw [writeConfigFlash_rounds (by rw [pageSize]; omega), hbuff, Option.bind_some, hflash]
  rfl

/-- The checked model of the call fails exactly when one of the ranges leaves the
array. -/
theorem writeConfigFlash_isSome (m : SPIFlashMeter) (o : ConfigOutcome) (config : List UInt8) :
    (m.writeConfigFlash o config).isSome = true ↔
      ∀ fuel, ∀ a ∈ configBuffer config.length fuel, a.1 + a.2 ≤ configSize := by
  rw [configBuffer_iff]
  constructor
  · intro h
    by_contra hlen
    rw [writeConfigFlash] at h
    cases hbuff : toCharArray config o.stack config.length with
    | none =>
      rw [hbuff] at h
      cases h
    | some buff =>
      have hpage : ∀ flash : SPIFlash, (do
          let data ← buff.get (16 * pageSize) pageSize
          return (flash.writeCharArray (o.page 16) 16 0 data).2) = none := by
        intro flash
        rw [buff.get_none (by decide)]
        rfl
      have hnone := forLoop_none (n := config.length / pageSize + 1) (k := 16)
        (s := (m.flash.eraseSector o.erase configAddress).2)
        (f := fun i (flash : SPIFlash) => do
          let data ← buff.get (i * pageSize) pageSize
          return (flash.writeCharArray (o.page i) i 0 data).2) (by rw [pageSize]; omega) hpage
      rw [hbuff, Option.bind_eq_bind, Option.bind_some, hnone] at h
      cases h
  · intro hlen
    obtain ⟨m', hwrite, _⟩ := writeConfigFlash_frame m o hlen
    rw [hwrite]
    rfl

/-- **Storing is contained for the texts the array holds, and for no others.** -/
theorem storesConfig_iff (m : SPIFlashMeter) (o : ConfigOutcome) (config : List UInt8) :
    m.StoresConfig o config ↔ config.length ≤ 4095 := by
  constructor
  · intro h
    obtain ⟨m', hwrite, _⟩ := h.ring
    refine (configBuffer_iff config.length).mp ((writeConfigFlash_isSome m o config).mp ?_)
    rw [hwrite]
    rfl
  · intro hlen
    obtain ⟨m', hwrite, hframe⟩ := writeConfigFlash_frame m o hlen
    refine ⟨(configEnds_iff _).mpr (by omega), (configBuffer_iff _).mpr hlen,
      (configReserved_iff _).mpr (by omega), m', hwrite, fun x hx => hframe x ?_⟩
    rw [reserveSize] at hx
    omega

/-- One meter, and blanks up to `length` characters. -/
def padded (length : Nat) : List UInt8 := oneMeter ++ List.replicate (length - 23) 0x20

theorem padded_length {length : Nat} (h : 23 ≤ length) : (padded length).length = length := by
  rw [padded, List.length_append, List.length_replicate, show oneMeter.length = 23 from rfl]
  omega

theorem not_of_padded {P : Prop} {length k : Nat} (h : P ↔ (padded length).length ≤ k)
    (hlen : 23 ≤ length) (hlong : k < length) : ¬ P := by
  rw [h, padded_length hlen]
  exact Nat.not_le.mpr hlong

/-- Texts of 4096, 8192 and 65280 characters: the array is left, the ring is
programmed, the loop does not end. -/
theorem not_storesConfig :
    ¬ newChip.StoresConfig (.healthy (.replicate _ 0)) (padded 4096) ∧
      (∃ fuel, ∃ a ∈ configBuffer (padded 4096).length fuel, configSize < a.1 + a.2) ∧
      (∃ fuel, ∃ a ∈ configAccesses (padded 8192).length fuel,
        reserveSize < a.address + a.size) ∧
      ∀ fuel, (configRounds (padded 65280).length fuel).2 = false := by
  refine ⟨fun h => ?_, ?_, ?_, fun fuel => ?_⟩
  · exact not_of_padded (configBuffer_iff _) (by decide) (by decide) h.buffer
  · have hnot := not_of_padded (configBuffer_iff (padded 4096).length) (by decide) (by decide)
    push Not at hnot
    exact hnot
  · have hnot := not_of_padded (configReserved_iff (padded 8192).length) (by decide) (by decide)
    push Not at hnot
    exact hnot
  · have hnot := not_of_padded ((configEnds_iff (padded 65280).length).trans Nat.lt_succ_iff)
      (by decide) (by decide)
    rw [not_exists] at hnot
    exact (Bool.not_eq_true _).mp (hnot fuel)

end SPIFlashMeter

end EnresLogger
