import EnresLogger.Restart
import EnresLogger.Retention

/-!
# Records still to be posted

The indices from `rIndex` up to `wIndex` are live.  Nothing in the three writing
functions looks at `rIndex`, so what keeps a live record is only that the ring
has room: `HasRoom` says that every sector a pass will erase ends at most one
lap behind `rIndex`.

`Kept` is the invariant: the indices are backed, the furthest mark any write has
reached is at most one lap behind `rIndex`, and the committed records are
entered in a log that retains up to that mark.  `Kept.writeBatch` keeps it over
a pass that has room, whatever the chip does; a post only raises `rIndex`.
-/

namespace EnresLogger

open Lib SPIFlashMeter

namespace Logger

/-! ### The writer of a device -/

/-- The device as the caller of `write*Data`, with what it last committed under
each index. -/
def writer (s : Logger) (hist : Nat → Option (List UInt8)) : Writer := ⟨s.flash, s.wIndex, hist⟩

/-- `hist` knows the records of the commits. -/
def Enters (s : Logger) (hist : Nat → Option (List UInt8)) : Prop :=
  ∀ e ∈ s.commits, hist e.1 = some e.2.bytes

/-- The records of a batch, as the writer cuts them out of its bytes. -/
theorem Batch.Sound.record {b : Batch} (hb : b.Sound) {i : Nat} (hi : i < b.records.length) :
    Writer.record b.data i = b.records[i].bytes := by
  rw [Writer.record, hb.data, recordBytes_drop_take hi]

/-- **A pass is a step of the writer**: a write, or a write and a jump. -/
theorem writeBatch_writer {s : Logger} {hist : Nat → Option (List UInt8)} (hent : s.Enters hist)
    (hold : ∀ j x, hist j = some x → j < s.wIndex) (hlt : s.wIndex < 4294967296)
    (o : WriteOutcome) {b : Batch} (hb : b.Sound)
    (hround : s.wIndex ≤ (s.writeBatch o b).wIndex) :
    ∃ hist', (s.writeBatch o b).Enters hist' ∧
      ((s.writeBatch o b).writer hist' = (s.writer hist).write b.kind o b.num b.data ∧
          (s.writeBatch o b).rIndex = s.rIndex ∨
        (s.writeBatch o b).writer hist' = ((s.writer hist).write b.kind o b.num b.data).jump ∧
          s.wIndex = s.rIndex ∧ (s.writeBatch o b).rIndex = (s.writeBatch o b).wIndex) := by
  have hnum := hb.le
  simp only [MAXMETER] at hnum
  have hwrite : (s.writer hist).write b.kind o b.num b.data =
      if (s.flash.writeData b.kind o s.wIndex b.data).1 then
        ⟨(s.flash.writeData b.kind o s.wIndex b.data).2, s.wIndex + b.num,
          fun j => if s.wIndex ≤ j ∧ j < s.wIndex + b.num then
            some (Writer.record b.data (j - s.wIndex)) else hist j⟩
      else ⟨(s.flash.writeData b.kind o s.wIndex b.data).2, s.wIndex, hist⟩ := rfl
  rcases writeBatch_cases s o b with ⟨hok, heq⟩ | ⟨hfail, _, heq⟩ | ⟨hfail, hesc, heq⟩
  · -- the records are committed under the indices from `wIndex` on
    rw [hwrite, if_pos hok]
    rw [heq] at hround ⊢
    have hmod : (s.wIndex + b.num) % 4294967296 = s.wIndex + b.num := by
      change s.wIndex ≤ (s.wIndex + b.num) % 4294967296 at hround
      omega
    refine ⟨_, fun e he => ?_, Or.inl ⟨by rw [writer, setWIndex, store, hmod], rfl⟩⟩
    rcases List.mem_append.mp he with he | he
    · have := hent e he
      have hj := hold _ _ this
      simp only [show ¬ (s.wIndex ≤ e.1 ∧ e.1 < s.wIndex + b.num) by omega, if_false, this]
    · obtain ⟨i, hi, rfl⟩ := List.mem_mapIdx.mp he
      have hi' : i < b.num := by rw [hb.num]; exact hi
      have hmodi : (s.wIndex + i) % 4294967296 = s.wIndex + i := by omega
      simp only [hmodi, show s.wIndex ≤ s.wIndex + i ∧ s.wIndex + i < s.wIndex + b.num by omega,
        Nat.add_sub_cancel_left, hb.record hi]
      rfl
  · rw [hwrite, if_neg (by rw [hfail]; decide), heq]
    exact ⟨hist, hent, Or.inl ⟨rfl, rfl⟩⟩
  · rw [hwrite, if_neg (by rw [hfail]; decide)]
    rw [heq] at hround ⊢
    have hmod : (s.wIndex / 64 + 1) * 64 % 4294967296 = (s.wIndex / 64 + 1) * 64 := by
      change s.wIndex ≤ (s.wIndex / 64 + 1) * 64 % 4294967296 at hround
      omega
    refine ⟨hist, hent, Or.inr ⟨?_, hesc.2, rfl⟩⟩
    simp only [writer, setWIndex, setRIndex, store, Writer.jump, hmod]

/-! ### Room -/

theorem writeBatch_flash (s : Logger) (o : WriteOutcome) (b : Batch) :
    (s.writeBatch o b).flash = (s.flash.writeRecords o s.wIndex b.data).2 := by
  rw [← writeData_eq b.kind]
  rcases writeBatch_cases s o b with ⟨_, heq⟩ | ⟨_, _, heq⟩ | ⟨_, _, heq⟩ <;> rw [heq] <;> rfl

/-- Every sector a pass will erase ends at most one lap behind `rIndex`. -/
def HasRoom (s : Logger) : Prop :=
  ∀ i < s.passSize, 64 ∣ s.wIndex + i → s.wIndex + i + 64 ≤ s.rIndex + s.flash.maxRecord

theorem HasRoom.mark {s : Logger} (h : s.HasRoom)
    (hw : ceilTo 64 s.wIndex ≤ s.rIndex + s.flash.maxRecord) :
    ceilTo 64 (s.wIndex + s.passSize) ≤ s.rIndex + s.flash.maxRecord := by
  have h1 := le_ceilTo (show 0 < 64 by omega) s.wIndex
  have h2 := ceilTo_lt (show 0 < 64 by omega) (s.wIndex + s.passSize)
  obtain ⟨q, hq⟩ := dvd_ceilTo 64 s.wIndex
  obtain ⟨q', hq'⟩ := dvd_ceilTo 64 (s.wIndex + s.passSize)
  by_cases hlast : ceilTo 64 (s.wIndex + s.passSize) ≤ ceilTo 64 s.wIndex
  · omega
  · -- the last sector of the batch starts inside it
    have := h (ceilTo 64 (s.wIndex + s.passSize) - 64 - s.wIndex) (by omega) ⟨q' - 1, by omega⟩
    omega

/-- The records that are live are in their cells, and the next ones have not
come round to them. -/
structure Kept (s : Logger) : Prop where
  backed : s.Backed
  mounted : s.flash.Mounted
  room : ceilTo 64 s.wIndex ≤ s.rIndex + s.flash.maxRecord
  log : ∃ hist hi, s.Enters hist ∧ hi ≤ s.rIndex + s.flash.maxRecord ∧
    ((s.writer hist).log hi).Retains s.flash.maxRecord

theorem Kept.prepared {s s₁ : Logger} (h : s.Kept) (hp : Prepared s s₁) : s₁.Kept := by
  obtain ⟨md, fd, wBuff, rfl⟩ := hp
  exact ⟨h.backed.prepared ⟨md, fd, wBuff, rfl⟩, h.mounted, h.room, h.log⟩

theorem Kept.start {s : Logger} (h : s.Kept) : s.start.Kept :=
  ⟨h.backed.start, h.mounted, h.room, h.log⟩

theorem Kept.posted {s s' : Logger} (h : s.Kept) (hp : Posted s s') : s'.Kept := by
  have hback := h.backed.posted hp
  have hlt := h.backed.lt
  have hroom := h.room
  obtain ⟨hist, hi, hent, hle, hret⟩ := h.log
  obtain ⟨rBuff, posts, rfl | ⟨num, hnum, rfl⟩⟩ := hp
  · exact ⟨hback, h.mounted, hroom, hist, hi, hent, hle, hret⟩
  · have hmod : (s.rIndex + num) % 4294967296 = s.rIndex + num := Nat.mod_eq_of_lt (by omega)
    refine ⟨hback, h.mounted, ?_, hist, hi, hent, ?_, hret⟩ <;>
    · simp only [Logger.advance, setRIndex, store, hmod]
      omega

theorem Kept.setup {s : Logger} (h : s.Kept) (sd : SDConfig) : (s.setup sd).Kept := by
  have hback := h.backed.bootable.setup sd
  obtain ⟨_, _, _, _, _, heq⟩ := setup_of_mark sd h.backed.bootable.mark
  rw [h.backed.nv] at heq
  rw [heq] at hback ⊢
  exact ⟨hback, h.mounted, h.room, h.log⟩

/-- **A pass that has room keeps every live record.** -/
theorem Kept.writeBatch {s : Logger} (h : s.Kept) (o : WriteOutcome) {b : Batch} (hb : b.Of s)
    (hroom : s.HasRoom) (hnum : s.wIndex + s.passSize ≤ 4294967296)
    (hround : s.wIndex ≤ (s.writeBatch o b).wIndex) : (s.writeBatch o b).Kept := by
  have hsound := hb.toSound
  have hle := hsound.le
  simp only [MAXMETER] at hle
  have hlen := hsound.length
  have hlt := h.backed.lt
  rw [← hb.size] at hnum
  obtain ⟨hist, hi, hent, hhi, hret⟩ := h.log
  have hmark := hroom.mark h.room
  rw [← hb.size] at hmark
  have hstep := Writer.write_step (s := s.writer hist) h.mounted b.kind o (n := b.num) (by omega)
    hlen hnum hret
  have hmount := h.mounted.writeRecords_mounted o hlen (by omega) hnum
  have hflash := writeBatch_flash s o b
  have hmax : (s.writeBatch o b).flash.maxRecord = s.flash.maxRecord := by
    rw [hflash, writeRecords_maxRecord]
  have hback := h.backed.writeBatch o hsound (fun hok => by
    rcases writeBatch_cases s o b with ⟨_, heq⟩ | ⟨hfail, _⟩ | ⟨hfail, _⟩
    · rw [heq] at hround
      change s.wIndex ≤ (s.wIndex + b.num) % 4294967296 at hround
      omega
    · rw [hok] at hfail
      cases hfail
    · rw [hok] at hfail
      cases hfail)
  obtain ⟨hist', hent', hcase⟩ := writeBatch_writer hent (fun j x hx => (hret j x hx).1) hlt o
    hsound hround
  rcases hcase with ⟨hw, hr⟩ | ⟨hw, hwr, hr⟩
  · have hnext : (s.writeBatch o b).wIndex ≤ s.wIndex + b.num := by
      rw [show (s.writeBatch o b).wIndex = ((s.writeBatch o b).writer hist').next from rfl, hw]
      exact Writer.write_next_le _ _ _ _ _
    refine ⟨hback, hflash ▸ hmount, ?_, hist', max hi (ceilTo 64 (s.wIndex + b.num)), hent', ?_, ?_⟩
    · rw [hr, hmax]
      exact Nat.le_trans (ceilTo_mono hnext) hmark
    · rw [hr, hmax]
      exact Nat.max_le.mpr ⟨hhi, hmark⟩
    · rw [hw, hmax]
      exact hret.step hstep
  · -- the device has moved on to the next sector, and nothing is live
    have hdvd : (s.writeBatch o b).wIndex % 64 = 0 := by
      rw [show (s.writeBatch o b).wIndex = ((s.writeBatch o b).writer hist').next from rfl, hw]
      exact Nat.mul_mod_left _ _
    refine ⟨hback, hflash ▸ hmount, ?_, hist', max hi (ceilTo 64 (s.wIndex + b.num)), hent', ?_, ?_⟩
    · rw [ceilTo_of_dvd (by omega) (Nat.dvd_of_mod_eq_zero hdvd), hr]
      exact Nat.le_add_right _ _
    · rw [hr, hmax]
      exact Nat.le_trans (Nat.max_le.mpr ⟨hhi, hmark⟩) (by omega)
    · rw [hw, hmax]
      exact (hret.step hstep).step (Writer.jump_step (hret.step hstep))

/-! ### Reading live records -/

/-- **The cells of committed live records are their bytes.** -/
theorem Kept.cells_eq {s : Logger} (h : s.Kept) {k : Nat} {xs : List Record} (hk : s.rIndex ≤ k)
    (hxs : ∀ i (hi : i < xs.length), (k + i, xs[i]) ∈ s.commits) :
    s.flash.cells k xs.length = recordBytes xs := by
  obtain ⟨hist, hi, hent, hle, hret⟩ := h.log
  rw [cells, recordBytes, List.flatMap_def]
  congr 1
  refine List.ext_getElem (by simp) (fun i h1 h2 => ?_)
  simp only [List.length_map, List.length_range] at h1
  rw [List.getElem_map, List.getElem_map, List.getElem_range]
  exact (hret (k + i) _ (hent _ (hxs i h1))).2 (by show hi ≤ _; omega)

/-- Every read of committed live records that reports success returns them.  A
post asks for at most 255. -/
def ReadsLive (s : Logger) : Prop :=
  ∀ (k : Nat) (xs : List Record), s.rIndex ≤ k → k + xs.length ≤ s.wIndex → xs.length ≤ 255 →
    (∀ i (hi : i < xs.length), (k + i, xs[i]) ∈ s.commits) →
    ∀ (kind : Kind) (busy : Bool × Bool) (out : List UInt8), out.length = 64 * xs.length →
      (s.flash.readData kind busy k out).1 = true →
      (s.flash.readData kind busy k out).2 = recordBytes xs

theorem Kept.readsLive {s : Logger} (h : s.Kept) : s.ReadsLive := by
  intro k xs hk hw hlen hxs kind busy out hout hok
  have hroom := h.room
  have hceil := le_ceilTo (show 0 < 64 by omega) s.wIndex
  rw [readData_eq] at hok ⊢
  rw [h.mounted.readRecords_eq hout (by omega) (partsFit_of_lt h.mounted.pos (by omega)) hok,
    h.cells_eq hk hxs]

/-! ### Commands on live records -/

/-- The commands the chip was sent between two states. -/
def sent (s s' : Logger) : List Cmd :=
  s'.flash.flash.cmds.take (s'.flash.flash.cmds.length - s.flash.flash.cmds.length)

theorem sent_eq {s s' : Logger} {new : List Cmd}
    (h : SPIFlash.Effect s.flash.flash s'.flash.flash new) : sent s s' = new := by
  simp [sent, h.cmds]

/-- The command hits the location of a record that is live. -/
def Hits (s : Logger) (c : Cmd) : Prop :=
  ∃ k x, s.rIndex ≤ k ∧ k < s.wIndex ∧ loc (k % s.flash.maxRecord) ≤ x ∧
    x < loc (k % s.flash.maxRecord) + 64 ∧ c.Covers x

/-- **A pass that has room hits no live record.** -/
theorem Kept.spares {s : Logger} (h : s.Kept) (o : WriteOutcome) {b : Batch} (hb : b.Of s)
    (hroom : s.HasRoom) (hnum : s.wIndex + s.passSize ≤ 4294967296) :
    ∀ c ∈ sent s (s.writeBatch o b), ¬ s.Hits c := by
  have hle := hb.toSound.le
  simp only [MAXMETER] at hle
  have hmark := hroom.mark h.room
  rw [← hb.size] at hnum hmark
  obtain ⟨new, heff, hwin⟩ := h.mounted.writeRecords_effect o hb.toSound.length (by omega) hnum
  have hsent : sent s (s.writeBatch o b) = new := sent_eq (by rw [writeBatch_flash]; exact heff)
  rw [hsent]
  rintro c hc ⟨k, x, hk1, hk2, hx1, hx2, hcov⟩
  exact (hwin c hc).not_covers (k := k % s.flash.maxRecord)
    (fun j hj1 hj2 => (ring_ne (by omega) (by omega)).symm) hx1 hx2 hcov

/-- **A pass that has no room hits a live record**, unless the chip is too busy
to erase. -/
theorem Kept.overruns {s : Logger} (h : s.Kept) (hlap : 128 ≤ s.flash.maxRecord)
    {o : WriteOutcome} (ho : ∀ i, o.erase i ≠ .busy) {b : Batch} (hb : b.Of s)
    (hroom : ¬ s.HasRoom) (hnum : s.wIndex + s.passSize ≤ 4294967296) :
    ∃ c ∈ sent s (s.writeBatch o b), s.Hits c := by
  have hle := hb.toSound.le
  simp only [MAXMETER] at hle
  have hspan := h.backed.spans.1
  have hkept := h.room
  have hceil := le_ceilTo (show 0 < 64 by omega) s.wIndex
  simp only [HasRoom, not_forall, Nat.not_le] at hroom
  obtain ⟨i, hi, hdvd, hfar⟩ := hroom
  rw [← hb.size] at hnum hi
  obtain ⟨new, hnew, hmem⟩ := h.mounted.eraseLoop_sends ho hnum hi hdvd
  obtain ⟨new', hnew', _⟩ := h.mounted.program_effect o s.wIndex hb.toSound.length (by omega)
  have hsent : sent s (s.writeBatch o b) = new' ++ new :=
    sent_eq (by rw [writeBatch_flash]; exact hnew.trans hnew')
  rw [hsent]
  refine ⟨_, List.mem_append_right _ hmem, ?_⟩
  -- the sector is that of the indices one lap back, and one of them is live
  obtain ⟨q, hq⟩ := h.mounted.sectors
  obtain ⟨d, hd⟩ := hdvd
  have hsector := h.mounted.loc_sector (s := s.wIndex + i - s.flash.maxRecord)
    (j := max s.rIndex (s.wIndex + i - s.flash.maxRecord)) (by omega) (by omega)
  have hlapback : (s.wIndex + i) % s.flash.maxRecord =
      (s.wIndex + i - s.flash.maxRecord) % s.flash.maxRecord :=
    Nat.mod_eq_sub_mod (by omega)
  refine ⟨max s.rIndex (s.wIndex + i - s.flash.maxRecord), _, by omega, by omega,
    Nat.le_refl _, by omega, ?_⟩
  rw [hsector, hlapback]
  simp only [Cmd.Covers]
  omega

end Logger

end EnresLogger
