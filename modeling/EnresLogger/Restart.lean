import EnresLogger.Append
import EnresLogger.Crash

/-!
# Appending after a reset

On a chip that works a pass commits its records when the ring is `Ready` at
`wIndex` (`Mounted.append`).  `Appendable` is the invariant that keeps it so: the
ring is ready at the stored index.  A pass gives it back, a post and a move of
the indices to 0 do not touch it, and a reset before the first program leaves
the sector of `wIndex` as it was.

A reset behind the first program and before `setWIndex` is another matter: the
records are in the flash, `wIndex` is what it was.  Where it starts a sector the
next pass erases them.  Where it does not, every later pass finds its range
written and is refused.  `Unbroken` leaves these resets out: `append_ready` is
the run, `not_append_ready` the one that shows why.
-/

namespace EnresLogger

open Lib SPIFlashMeter

namespace Logger

/-- The chip is one the logger supports, and the ring is ready at `w`. -/
structure ReadyAt (s : Logger) (w : Nat) : Prop where
  mounted : s.flash.Mounted
  lap : 128 ≤ s.flash.maxRecord
  ready : s.flash.Ready w
  lt : w < 4294967296

/-- The state between two tasks. -/
structure Appendable (s : Logger) : Prop where
  nv : s.nv = ⟨0x55, s.wIndex, s.rIndex⟩
  at_w : s.ReadyAt s.wIndex

theorem ready_zero (m : SPIFlashMeter) : m.Ready 0 := Or.inl rfl

theorem ReadyAt.zero {s : Logger} {w : Nat} (h : s.ReadyAt w) : s.ReadyAt 0 :=
  ⟨h.mounted, h.lap, ready_zero _, by decide⟩

theorem ReadyAt.congr {s s' : Logger} {w : Nat} (h : s.ReadyAt w) (hflash : s'.flash = s.flash) :
    s'.ReadyAt w :=
  ⟨hflash ▸ h.mounted, hflash ▸ h.lap, hflash ▸ h.ready, h.lt⟩

theorem ReadyAt.setup {s : Logger} (sd : SDConfig) (hmark : s.nv.mark = 0x55)
    (h : s.ReadyAt s.nv.w) : (s.setup sd).Appendable := by
  obtain ⟨_, _, _, _, _, heq⟩ := setup_of_mark sd hmark
  rw [heq]
  refine ⟨?_, h.congr rfl⟩
  show s.nv = ⟨0x55, s.nv.w, s.nv.r⟩
  rw [← hmark]

theorem Appendable.setup {s : Logger} (h : s.Appendable) (sd : SDConfig) :
    (s.setup sd).Appendable := by
  have hat := h.at_w
  rw [show s.wIndex = s.nv.w by rw [h.nv]] at hat
  exact ReadyAt.setup sd (by rw [h.nv]) hat

theorem Appendable.start {s : Logger} (h : s.Appendable) : s.start.Appendable :=
  ⟨h.nv, h.at_w.congr rfl⟩

theorem Appendable.prepared {s s₁ : Logger} (h : s.Appendable) (hp : Prepared s s₁) :
    s₁.Appendable := by
  obtain ⟨md, fd, wBuff, rfl⟩ := hp
  exact ⟨h.nv, h.at_w.congr rfl⟩

/-! ### A pass -/

/-- The write of a batch on a chip that works, from a ready index. -/
theorem ReadyAt.append {s : Logger} (h : s.ReadyAt s.wIndex) {b : Batch} (hb : b.Sound)
    (hw : s.wIndex + b.num ≤ 4294967296) :
    (s.flash.writeData b.kind .healthy s.wIndex b.data).1 = true ∧
      { s with flash := (s.flash.writeData b.kind .healthy s.wIndex b.data).2 }.ReadyAt
        ((s.wIndex + b.num) % 4294967296) := by
  have hnum := hb.le
  simp only [MAXMETER] at hnum
  rw [writeData_eq]
  obtain ⟨hok, hready⟩ := h.mounted.append hb.length (by omega) hw h.lap h.ready
  refine ⟨hok, h.mounted.writeRecords_mounted .healthy hb.length (by omega) hw, ?_, ?_,
    Nat.mod_lt _ (by decide)⟩
  · simp only [writeRecords_maxRecord]
    exact h.lap
  · rcases Nat.eq_or_lt_of_le hw with heq | hlt
    · rw [heq, Nat.mod_self]
      exact ready_zero _
    · rw [Nat.mod_eq_of_lt hlt]
      exact hready

/-- **A pass on a chip that works commits its records.** -/
theorem writeBatch_of_ready {s : Logger} (h : s.ReadyAt s.wIndex) {b : Batch} (hb : b.Sound)
    (hw : s.wIndex + b.num ≤ 4294967296) :
    s.writeBatch .healthy b = setWIndex { s with
      flash := (s.flash.writeData b.kind .healthy s.wIndex b.data).2
      wIndex := (s.wIndex + b.num) % 4294967296, fErrorCnt := 0
      commits := s.commits ++
        b.records.mapIdx fun i x => ((s.wIndex + i) % 4294967296, x) } := by
  obtain ⟨hok, _⟩ := h.append hb hw
  rcases writeBatch_cases s .healthy b with ⟨_, heq⟩ | ⟨hfail, _⟩ | ⟨hfail, _⟩
  · exact heq
  · rw [hok] at hfail
    cases hfail
  · rw [hok] at hfail
    cases hfail

theorem Appendable.writeBatch {s : Logger} (h : s.Appendable) {b : Batch} (hb : b.Sound)
    (hw : s.wIndex + b.num ≤ 4294967296) : (s.writeBatch .healthy b).Appendable := by
  obtain ⟨_, hat⟩ := h.at_w.append hb hw
  rw [writeBatch_of_ready h.at_w hb hw]
  refine ⟨?_, hat.congr rfl⟩
  simp only [setWIndex, store, h.nv, NVRAM.write]

theorem Appendable.posted {s s' : Logger} (h : s.Appendable) (hp : Posted s s') :
    s'.Appendable := by
  obtain ⟨rBuff, posts, rfl | ⟨num, hnum, rfl⟩⟩ := hp
  · exact ⟨h.nv, h.at_w.congr rfl⟩
  · refine ⟨?_, h.at_w.congr rfl⟩
    simp only [Logger.advance, setRIndex, store, h.nv, NVRAM.write]

theorem Appendable.resetIndex {s : Logger} (h : s.Appendable) : s.resetIndex.Appendable := by
  refine ⟨?_, h.at_w.zero.congr rfl⟩
  simp only [Logger.resetIndex, setRIndex, setWIndex, store, h.nv, NVRAM.write]

/-! ### Resets -/

/-- The chip works in the pass of this step. -/
def OnHealthy : Label → Prop
  | .log p => p.outcome = .healthy
  | .cutLog p _ _ => p.outcome = .healthy
  | _ => True

/-- No reset falls between the first program of a pass and its `setWIndex`,
unless the pass starts a sector or has no record, and no pass goes round. -/
def Unbroken (s : Logger) : Label → Prop
  | .log _ => s.wIndex + s.passSize ≤ 4294967296
  | .cutLog _ cut _ => s.wIndex + s.passSize ≤ 4294967296 ∧
      match cut with
      | .erasing _ => True
      | .programming _ => s.wIndex % 64 = 0 ∨ s.passSize = 0
      | .storing k => k = 0 → s.wIndex % 64 = 0 ∨ s.passSize = 0
  | _ => True

/-- A cut of the first boot that stores the mark alone leaves an index that is
ready. -/
def UnbrokenBoot (s₀ : Logger) (k : Nat) : Prop := k = 1 → s₀.flash.Ready s₀.nv.w

theorem Appendable.cut_write {s : Logger} (h : s.Appendable) (sd : SDConfig)
    (flash : SPIFlashMeter) (commits : List (Nat × Record)) {fErrorCnt : Nat} {w : Nat}
    {stores : List Store}
    (hflash : ({ s with flash } : Logger).ReadyAt s.wIndex) :
    (({ s with flash, commits, fErrorCnt, wIndex := w, stores } : Logger).setup sd).Appendable := by
  refine ReadyAt.setup sd (by simp only [h.nv]) ?_
  simp only [h.nv]
  exact hflash.congr rfl

theorem Appendable.cutBatch {s : Logger} (h : s.Appendable) (hstores : s.stores = []) {b : Batch}
    (hb : b.Sound) (hw : s.wIndex + b.num ≤ 4294967296) {cut : Cut}
    (hcut : match cut with
      | .erasing _ => True
      | .programming _ => s.wIndex % 64 = 0 ∨ b.num = 0
      | .storing k => k = 0 → s.wIndex % 64 = 0 ∨ b.num = 0) (sd : SDConfig) :
    ((s.cutBatch .healthy b cut).setup sd).Appendable := by
  have hat := h.at_w
  have hnum := hb.le
  simp only [MAXMETER] at hnum
  cases cut with
  | erasing o =>
    refine h.cut_write sd _ s.commits ?_
    exact ⟨hat.mounted.eraseLoop_mounted o _ _, hat.lap,
      hat.mounted.ready_eraseLoop o (by omega) hw hat.lap hat.ready, hat.lt⟩
  | programming o =>
    refine h.cut_write sd _ s.commits ?_
    rw [writeData_eq]
    refine ⟨hat.mounted.writeRecords_mounted o hb.length (by omega) hw,
      by simp only [writeRecords_maxRecord]; exact hat.lap, ?_, hat.lt⟩
    rcases hcut with h0 | h0
    · exact Or.inl h0
    · exact hat.mounted.ready_writeRecords_zero o (by rw [hb.length, h0])
        (by rw [h0] at hw; exact hw) hat.ready
  | storing k =>
    obtain ⟨_, hat'⟩ := hat.append hb hw
    rw [Logger.cutBatch, writeBatch_of_ready hat hb hw]
    cases k with
    | zero =>
      -- the records are in the flash, `wIndex` is the old one
      refine h.cut_write sd _ _ ⟨hat'.mounted, hat'.lap, ?_, hat.lt⟩
      rcases hcut rfl with h0 | h0
      · exact Or.inl h0
      · have := hat'.ready
        rw [h0, Nat.add_zero, Nat.mod_eq_of_lt hat.lt] at this
        exact this
    | succ k =>
      have hnv : (s.powerCut (setWIndex { s with
          flash := (s.flash.writeData b.kind .healthy s.wIndex b.data).2
          wIndex := (s.wIndex + b.num) % 4294967296, fErrorCnt := 0
          commits := s.commits ++
            b.records.mapIdx fun i x => ((s.wIndex + i) % 4294967296, x) }) (k + 1)).nv =
            ⟨0x55, (s.wIndex + b.num) % 4294967296, s.rIndex⟩ := by
        simp only [powerCut, setWIndex, store, hstores, List.nil_append,
          List.take_succ_cons, List.take_nil, List.foldl_cons, List.foldl_nil, h.nv,
          NVRAM.write]
      refine ReadyAt.setup sd (by rw [hnv]) ?_
      rw [hnv]
      exact hat'.congr rfl

theorem Appendable.next {fmt : Format} {s s' : Logger} {l : Label} (h : s.Appendable)
    (hnext : Logger.next fmt l s = some s') (hhealthy : OnHealthy l) (hl : Unbroken s l) :
    s'.Appendable := by
  cases l with
  | log p =>
    obtain ⟨s₁, hprep, rfl | ⟨b, hb, rfl⟩⟩ := logTask_cases hnext
    · exact h.start.prepared hprep
    · have hs₁ := h.start.prepared hprep
      obtain ⟨md, fd, wBuff, rfl⟩ := hprep
      rw [show p.outcome = .healthy from hhealthy]
      exact hs₁.writeBatch hb.toSound (by rw [hb.size]; exact hl)
  | post net => exact h.start.posted (postTask_posted hnext)
  | server wifi httpCode restart sd =>
    rcases server_cases hnext with rfl | rfl | rfl
    · exact h.start
    · exact h.start.setup sd
    · exact h.start.resetIndex.setup sd
  | restart sd =>
    cases hnext
    exact h.setup sd
  | cutLog p cut sd =>
    obtain ⟨s₁, hprep, rfl | ⟨b, _, hb, rfl⟩⟩ := cutLog_cases hnext
    · exact (h.start.prepared hprep).setup sd
    · have hs₁ := h.start.prepared hprep
      obtain ⟨md, fd, wBuff, rfl⟩ := hprep
      rw [show p.outcome = .healthy from hhealthy]
      refine hs₁.cutBatch rfl hb.toSound ?_ ?_ sd
      · rw [hb.size]
        exact hl.1
      · rw [hb.size]
        exact hl.2
  | cutPost net k sd =>
    obtain ⟨s₁, htask, hnext⟩ := Option.bind_eq_some_iff.mp hnext
    cases hnext
    have hp := postTask_posted htask
    have hflash : (s.powerCut s₁ k).flash = s.flash := hp.flash
    rcases powerCut_posted h.nv hp k with hnv | ⟨num, _, hnv⟩
    · refine ReadyAt.setup sd (by rw [hnv, h.nv]) ?_
      rw [hnv, h.nv]
      exact h.at_w.congr hflash
    · refine ReadyAt.setup sd (by rw [hnv]) ?_
      rw [hnv]
      exact h.at_w.congr hflash
  | cutReset k sd =>
    cases hnext
    have hnv := powerCut_resetIndex h.nv k
    refine ReadyAt.setup sd (by rw [hnv]) ?_
    rw [hnv]
    exact h.at_w.zero.congr rfl

theorem appendable_of_fresh {s : Logger} (hfresh : s.nv.mark ≠ 0x55) (hm : s.flash.Mounted)
    (hlap : 128 ≤ s.flash.maxRecord) (sd : SDConfig) : (s.setup sd).Appendable := by
  obtain ⟨_, _, _, _, _, heq⟩ := setup_of_no_mark sd hfresh
  rw [heq]
  exact ⟨rfl, hm, hlap, ready_zero _, show 0 < 4294967296 by decide⟩

theorem appendable_of_boot {s₀ s₁ : Logger} (hfresh : s₀.nv.mark ≠ 0x55)
    (hword : s₀.nv.w < 4294967296) (hm : s₀.flash.Mounted) (hlap : 128 ≤ s₀.flash.maxRecord)
    (hboot : Boot (UnbrokenBoot s₀) s₀ s₁) : s₁.Appendable := by
  cases hboot with
  | whole sd => exact appendable_of_fresh hfresh hm hlap sd
  | cut k sd sd' hk =>
    obtain ⟨_, _, _, _, _, heq⟩ := setup_of_no_mark sd hfresh
    match k with
    | 0 =>
      -- nothing was stored, and the second boot starts over
      have hfresh' : (s₀.powerCut (s₀.setup sd) 0).nv.mark ≠ 0x55 := hfresh
      have hflash : (s₀.powerCut (s₀.setup sd) 0).flash = s₀.flash := by
        rw [powerCut, heq]
      exact appendable_of_fresh hfresh' (hflash ▸ hm) (hflash ▸ hlap) sd'
    | 1 =>
      refine ReadyAt.setup sd' ?_ ?_ <;>
        simp only [powerCut, heq, List.take_succ_cons, List.take_zero, List.foldl_cons,
          List.foldl_nil, NVRAM.write]
      exact ⟨hm, hlap, hk rfl, hword⟩
    | 2 =>
      refine ReadyAt.setup sd' ?_ ?_ <;>
        simp only [powerCut, heq, List.take_succ_cons, List.take_zero, List.foldl_cons,
          List.foldl_nil, NVRAM.write]
      exact ⟨hm, hlap, ready_zero _, by decide⟩
    | k + 3 =>
      refine ReadyAt.setup sd' ?_ ?_ <;>
        simp only [powerCut, heq, List.take_succ_cons, List.take_nil, List.foldl_cons,
          List.foldl_nil, NVRAM.write]
      exact ⟨hm, hlap, ready_zero _, by decide⟩

/-- Every pass that has a batch to write commits it. -/
def CommitsNext (s : Logger) : Prop :=
  ∀ p s₁ b, p.outcome = .healthy → s.wIndex + s.passSize ≤ 4294967296 →
    s.start.batch p = some (s₁, some b) → ∃ s', s.start.logTask p = some s' ∧
      s'.commits = s.commits ++ b.records.mapIdx fun i x => ((s.wIndex + i) % 4294967296, x)

theorem Appendable.commitsNext {s : Logger} (h : s.Appendable) : s.CommitsNext := by
  intro p s₁ b hp hw hbatch
  obtain ⟨hprep, hspec⟩ := batch_spec hbatch
  have hb := hspec b rfl
  have hs₁ := h.start.prepared hprep
  refine ⟨s₁.writeBatch p.outcome b, by rw [logTask_eq, hbatch]; rfl, ?_⟩
  obtain ⟨md, fd, wBuff, rfl⟩ := hprep
  rw [hp, writeBatch_of_ready hs₁.at_w hb.toSound (by rw [hb.size]; exact hw)]
  rfl

/-- **On a chip that works the ring is ready at `wIndex` and every pass
commits**, in every run whose resets leave no pass half done. -/
theorem append_ready {fmt : Format} {s₀ s₁ s : Logger} (hfresh : s₀.nv.mark ≠ 0x55)
    (hword : s₀.nv.w < 4294967296) (hm : s₀.flash.Mounted) (hlap : 128 ≤ s₀.flash.maxRecord)
    (hboot : Boot (UnbrokenBoot s₀) s₀ s₁)
    (hrun : Reach fmt (fun s l _ => OnHealthy l ∧ Unbroken s l) s₁ s) :
    s.flash.Ready s.wIndex ∧ s.CommitsNext := by
  have h := hrun.invariant Appendable (appendable_of_boot hfresh hword hm hlap hboot)
    (fun _ _ _ h hnext hl => h.next hnext hl.1 hl.2)
  exact ⟨h.at_w.ready, h.commitsNext⟩

theorem newDevice_mounted (w r : Nat) : (newDevice w r).flash.Mounted :=
  mounted_begin (f := blankChip 65536) (by decide) (by decide) (by decide)

/-- A reset inside the first pass, which starts a sector. -/
theorem append_ready_first :
    ∃ s, next .zero (.cutLog (sensorPass .healthy) (.storing 0) (.plain 2 0 1))
        ((newDevice 5 9).setup (.plain 2 0 1)) = some s ∧
      s.flash.Ready s.wIndex ∧ s.CommitsNext :=
  ⟨_, rfl, @append_ready .zero (newDevice 5 9) _ _ (by decide) (by decide)
    (newDevice_mounted 5 9) (by decide) (.whole (.plain 2 0 1))
    (.step (l := .cutLog (sensorPass .healthy) (.storing 0) (.plain 2 0 1)) .refl rfl
      ⟨rfl, by decide, fun _ => Or.inl rfl⟩)⟩

/-- The statement for one device, with resets anywhere. -/
def AppendReady (s₀ : Logger) : Prop :=
  ∀ fmt s₁ s, Boot (UnbrokenBoot s₀) s₀ s₁ → Reach fmt (fun _ l _ => OnHealthy l) s₁ s →
    s.flash.Ready s.wIndex ∧ s.CommitsNext

/-- One record is logged; the next one is written, and then the device is reset
before it has stored `wIndex`. -/
def cutSecond : List Label :=
  [.log (sensorPass .healthy), .cutLog (sensorPass .healthy) (.storing 0) (.plain 2 0 1)]

/-- **A reset between the write and `setWIndex` ends the logging**: the ring is
not ready at `wIndex`, and on a chip that works the next pass is refused. -/
theorem not_append_ready :
    ¬ AppendReady (newDevice 0 0) ∧
      (((newDevice 0 0).setup (.plain 2 0 1)).run .zero
        (cutSecond ++ [.log (sensorPass .healthy)])).map
          (fun s => (s.wIndex, s.fErrorCnt)) = some (1, 1) := by
  -- the state behind the reset, and the pass after it
  have hrun : ((((newDevice 0 0).setup (.plain 2 0 1)).run .zero cutSecond).bind fun s =>
      (next .zero (.log (sensorPass .healthy)) s).map fun s' =>
        (decide (s.flash.Ready s.wIndex), s'.wIndex, s'.fErrorCnt)) = some (false, 1, 1) := by
    decide +kernel
  obtain ⟨s, hs, hlast⟩ := Option.bind_eq_some_iff.mp hrun
  obtain ⟨s', hnext, heq⟩ := Option.map_eq_some_iff.mp hlast
  obtain ⟨hready, hresult⟩ := Prod.mk.inj heq
  have hall : ((newDevice 0 0).setup (.plain 2 0 1)).run .zero
      (cutSecond ++ [.log (sensorPass .healthy)]) = some s' :=
    (run_append hs).trans (run_cons hnext)
  have hhealthy : ∀ l ∈ cutSecond, ∀ _ _ : Logger, OnHealthy l := by
    intro l hl
    simp only [cutSecond, List.mem_cons, List.not_mem_nil, or_false] at hl
    rcases hl with rfl | rfl <;> exact fun _ _ => rfl
  refine ⟨fun h => ?_, ?_⟩
  · have := h .zero _ s (.whole (.plain 2 0 1)) (Reach.refl.run hhealthy hs)
    exact of_decide_eq_false hready this.1
  · rw [hall]
    exact congrArg some hresult

end Logger

end EnresLogger
