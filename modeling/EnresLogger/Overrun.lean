import EnresLogger.Live

/-!
# Overrunning the reader

A run of logging passes, posts and restarts from both indices at 0 keeps every
live record, and no pass hits one, as long as each pass has room: `live_kept`.

The code makes no such check.  `overrun` fills a chip of 64 KiB with no post in
between: the pass at index 896 erases the sector of the records 0 to 63.
-/

namespace EnresLogger

open Lib SPIFlashMeter

namespace Logger

/-- A device with an empty ring. -/
structure Fresh (s : Logger) : Prop where
  nv : s.nv = ⟨0x55, 0, 0⟩
  wIndex : s.wIndex = 0
  rIndex : s.rIndex = 0
  commits : s.commits = []
  posts : s.posts = []
  mounted : s.flash.Mounted

theorem Fresh.kept {s : Logger} (h : s.Fresh) : s.Kept := by
  refine ⟨⟨?_, ?_, ?_⟩, h.mounted, ?_, fun _ => none, 0, ?_, Nat.zero_le _, ?_⟩
  · rw [h.nv, h.wIndex, h.rIndex]
  · rw [h.wIndex, h.rIndex]
    exact Spans.refl _ 0
  · rw [h.wIndex]
    decide
  · rw [h.wIndex]
    exact Nat.zero_le _
  · intro e he
    rw [h.commits] at he
    cases he
  · exact RingLog.retains_of_empty (fun _ => rfl)

/-- A logging pass whose indices are below `2^32`, a post, or a restart between
two tasks, which may bring another configuration. -/
def Ordinary (s : Logger) (l : Label) (s' : Logger) : Prop :=
  match l with
  | .log _ => s.wIndex + s.passSize ≤ 4294967296 ∧ s.wIndex ≤ s'.wIndex
  | .post _ => True
  | .restart _ => True
  | _ => False

/-- A pass needs room. -/
def Roomy (s : Logger) (l : Label) (s' : Logger) : Prop :=
  s.Ordinary l s' ∧ ∀ p, l = .log p → s.HasRoom

theorem log_cases {fmt : Format} {s s' : Logger} {p : Pass}
    (hnext : next fmt (.log p) s = some s') :
    ∃ s₁, Prepared s.start s₁ ∧
      (s' = s₁ ∨ ∃ b : Batch, b.Of s₁ ∧ s' = s₁.writeBatch p.outcome b) := by
  obtain ⟨s₁, hprep, hcase⟩ := logTask_cases hnext
  refine ⟨s₁, hprep, ?_⟩
  obtain ⟨md, fd, wBuff, rfl⟩ := hprep
  rcases hcase with rfl | ⟨b, hb, rfl⟩
  · exact Or.inl rfl
  · exact Or.inr ⟨b, ⟨hb.toSound, hb.kindOf, hb.size⟩, rfl⟩

theorem Kept.next {fmt : Format} {s s' : Logger} {l : Label} (h : s.Kept)
    (hnext : Logger.next fmt l s = some s') (hl : Roomy s l s') : s'.Kept := by
  obtain ⟨hord, hroom⟩ := hl
  cases l with
  | log p =>
    obtain ⟨s₁, hprep, hcase⟩ := log_cases hnext
    have hs₁ := h.start.prepared hprep
    obtain ⟨md, fd, wBuff, rfl⟩ := hprep
    rcases hcase with rfl | ⟨b, hb, rfl⟩
    · exact hs₁
    · exact hs₁.writeBatch p.outcome hb (hroom p rfl) hord.1 hord.2
  | post net => exact h.start.posted (postTask_posted hnext)
  | restart sd =>
    cases hnext
    exact h.setup sd
  | server => exact hord.elim
  | cutLog => exact hord.elim
  | cutPost => exact hord.elim
  | cutReset => exact hord.elim

theorem Kept.log_spares {fmt : Format} {s s' : Logger} {p : Pass} (h : s.Kept)
    (hnext : Logger.next fmt (.log p) s = some s') (hl : Roomy s (.log p) s') :
    ∀ c ∈ sent s s', ¬ s.Hits c := by
  obtain ⟨hord, hroom⟩ := hl
  obtain ⟨s₁, hprep, hcase⟩ := log_cases hnext
  have hs₁ := h.start.prepared hprep
  obtain ⟨md, fd, wBuff, rfl⟩ := hprep
  rcases hcase with rfl | ⟨b, hb, rfl⟩
  · have hsent : sent s { s.start with md, fd, wBuff } = [] := sent_eq (.refl s.flash.flash)
    rw [hsent]
    exact fun _ hc => absurd hc List.not_mem_nil
  · exact hs₁.spares p.outcome hb (hroom p rfl) hord.1

/-- **What is still to be posted is never overwritten**, in every run whose
passes have room: each live index was committed, every read of live records
returns what was committed, and no pass sends a command that hits one. -/
theorem live_kept {fmt : Format} {s₀ s : Logger} (h₀ : s₀.Fresh)
    (hrun : Reach fmt Roomy s₀ s) :
    Spans s.commits s.rIndex s.wIndex ∧ s.ReadsLive ∧
      ∀ p s', next fmt (.log p) s = some s' → Roomy s (.log p) s' → ∀ c ∈ sent s s', ¬ s.Hits c := by
  have h := hrun.invariant Kept h₀.kept (fun _ _ _ h hnext hl => h.next hnext hl)
  exact ⟨h.backed.spans, h.readsLive, fun p s' hnext hl => h.log_spares hnext hl⟩

/-- The new device after its first boot. -/
def booted : Logger := (newDevice 0 0).setup (.plain 2 0 1)

theorem booted_fresh : booted.Fresh :=
  ⟨rfl, rfl, rfl, rfl, rfl, newDevice_mounted 0 0⟩

/-- Two records are logged and the first one is posted. -/
theorem live_kept_posted :
    ∃ s, booted.run .zero [.log (sensorPass .healthy), .log (sensorPass .healthy),
        .post ⟨true, (false, false), fun _ => 200⟩] = some s ∧
      s.rIndex = 1 ∧ s.wIndex = 2 ∧ Spans s.commits s.rIndex s.wIndex ∧ s.ReadsLive ∧
      ∀ p s', next .zero (.log p) s = some s' → Roomy s (.log p) s' →
        ∀ c ∈ sent s s', ¬ s.Hits c := by
  have hrun : ((next .zero (.log (sensorPass .healthy)) booted).bind fun s₁ =>
      (next .zero (.log (sensorPass .healthy)) s₁).bind fun s₂ =>
      (next .zero (.post ⟨true, (false, false), fun _ => 200⟩) s₂).map fun s =>
        ((s₁.wIndex, s₁.passSize, s₁.rIndex, s₁.flash.maxRecord), s₂.wIndex, s.rIndex,
          s.wIndex)) = some ((1, 1, 0, 896), 2, 1, 2) := by
    decide +kernel
  obtain ⟨s₁, h₁, hrun⟩ := Option.bind_eq_some_iff.mp hrun
  obtain ⟨s₂, h₂, hrun⟩ := Option.bind_eq_some_iff.mp hrun
  obtain ⟨s, h₃, heq⟩ := Option.map_eq_some_iff.mp hrun
  simp only [Prod.mk.injEq] at heq
  obtain ⟨⟨hw₁, hsize, hr₁, hmax⟩, hw₂, hr, hw⟩ := heq
  have hroom : booted.HasRoom := fun i hi _ => by
    have hi' : i < 1 := hi
    show 0 + i + 64 ≤ 0 + 896
    omega
  have hroom₁ : s₁.HasRoom := fun i hi _ => by
    rw [hsize] at hi
    rw [hw₁, hr₁, hmax]
    omega
  have hfirst : Roomy booted (.log (sensorPass .healthy)) s₁ :=
    ⟨⟨show 0 + 1 ≤ 4294967296 by decide, by rw [hw₁]; decide⟩, fun _ _ => hroom⟩
  have hsecond : Roomy s₁ (.log (sensorPass .healthy)) s₂ :=
    ⟨⟨by rw [hw₁, hsize]; decide, by rw [hw₁, hw₂]; decide⟩, fun _ _ => hroom₁⟩
  have hpost : Roomy s₂ (.post ⟨true, (false, false), fun _ => 200⟩) s :=
    ⟨trivial, fun _ h => absurd h (by simp)⟩
  refine ⟨s, ?_, hr, hw, live_kept booted_fresh
    (((Reach.refl.step h₁ hfirst).step h₂ hsecond).step h₃ hpost)⟩
  rw [run_cons h₁, run_cons h₂, run_cons h₃]
  rfl

/-! ### No room -/

theorem sensorBatch_isSome (fpu : Fpu) (now : UInt32) (s : Logger) :
    ∃ s₁ b, s.sensorBatch fpu now = some (s₁, b) := by
  obtain ⟨c, hc, hold⟩ := fillSensor_holds fpu s.sd.cfgS now s.wBuff
  simp only [sensorBatch, hc, get_of_holds hold (k := RECSIZESENSOR) rfl, Option.bind_eq_bind,
    Option.bind_some, Option.pure_def]
  exact ⟨_, _, rfl⟩

/-- **A pass on a chip that works logs its batch.** -/
theorem Appendable.next_pass {s s₁ : Logger} (h : s.Appendable) (fmt : Format) {p : Pass}
    (hp : p.outcome = .healthy) {b : Batch} (hbatch : s.start.batch p = some (s₁, some b))
    (hw : s.wIndex + s.passSize < 4294967296) :
    ∃ s', Logger.next fmt (.log p) s = some s' ∧ s'.Appendable ∧
      s'.wIndex = s.wIndex + s.passSize ∧ s'.rIndex = s.rIndex ∧ s'.sd = s.sd ∧
      s'.flash.maxRecord = s.flash.maxRecord := by
  obtain ⟨hprep, hspec⟩ := batch_spec hbatch
  have hb := hspec b rfl
  have happ := h.start.prepared hprep
  obtain ⟨md, fd, wBuff, rfl⟩ := hprep
  have hnum : b.num = s.passSize := hb.size
  have hroom : s.wIndex + b.num ≤ 4294967296 := by omega
  have heq := writeBatch_of_ready happ.at_w hb.toSound hroom
  refine ⟨_, by rw [Logger.next, logTask_eq, hbatch, hp]; rfl, happ.writeBatch hb.toSound hroom, ?_⟩
  rw [writeBatch_flash, writeRecords_maxRecord]
  rw [heq]
  refine ⟨?_, rfl, rfl, rfl⟩
  show (s.wIndex + b.num) % 4294967296 = s.wIndex + s.passSize
  rw [hnum, Nat.mod_eq_of_lt hw]

theorem Appendable.next_sensorPass {s : Logger} (h : s.Appendable) (htype : s.sd.cfgG.type = 2)
    (hw : s.wIndex + 1 < 4294967296) :
    ∃ s', Logger.next .zero (.log (sensorPass .healthy)) s = some s' ∧ s'.Appendable ∧
      s'.wIndex = s.wIndex + 1 ∧ s'.rIndex = s.rIndex ∧ s'.sd = s.sd ∧
      s'.flash.maxRecord = s.flash.maxRecord := by
  obtain ⟨s₁, b, hb⟩ := sensorBatch_isSome (sensorPass .healthy).fpu (sensorPass .healthy).now
    s.start
  have hbatch : s.start.batch (sensorPass .healthy) = some (s₁, some b) := by
    rw [batch]
    simp only [show s.start.sd.cfgG.type = 2 from htype, hb]
    rfl
  have hsize : s.passSize = 1 := by
    rw [Logger.passSize, htype]
    rfl
  have := h.next_pass .zero rfl hbatch (by omega)
  rw [hsize] at this
  exact this

/-- What the filling device is after `k` passes. -/
structure Filled (k : Nat) (s : Logger) : Prop where
  run : Reach .zero Ordinary booted s
  kept : s.Kept
  appendable : s.Appendable
  wIndex : s.wIndex = k
  rIndex : s.rIndex = 0
  type : s.sd.cfgG.type = 2
  max : s.flash.maxRecord = 896

theorem Filled.passSize {k : Nat} {s : Logger} (h : Filled k s) : s.passSize = 1 := by
  rw [Logger.passSize, h.type]
  rfl

/-- A chip that works takes a record at a time, up to the last one. -/
theorem exists_filled : ∀ k ≤ 896, ∃ s, Filled k s := by
  intro k
  induction k with
  | zero =>
    exact fun _ => ⟨booted, .refl, booted_fresh.kept,
      appendable_of_fresh (by decide) (newDevice_mounted 0 0) (by decide) _, rfl, rfl, rfl, rfl⟩
  | succ k ih =>
    intro hk
    obtain ⟨s, hs⟩ := ih (by omega)
    obtain ⟨s', hnext, happ, hw, hr, hsd, hmax⟩ := hs.appendable.next_sensorPass hs.type
      (by rw [hs.wIndex]; omega)
    have hroom : s.HasRoom := by
      intro i hi hdvd
      rw [hs.wIndex] at hdvd ⊢
      rw [hs.passSize] at hi
      rw [hs.rIndex, hs.max]
      omega
    have hord : Ordinary s (.log (sensorPass .healthy)) s' :=
      ⟨by rw [hs.wIndex, hs.passSize]; omega, by omega⟩
    exact ⟨s', hs.run.step hnext hord, hs.kept.next hnext ⟨hord, fun _ _ => hroom⟩, happ,
      by rw [hw, hs.wIndex], by rw [hr, hs.rIndex], by rw [hsd, hs.type], by rw [hmax, hs.max]⟩

/-- The statement for one device, with passes of any number and no post. -/
def NeverOverwritten (s₀ : Logger) : Prop :=
  ∀ fmt s p s', Reach fmt Ordinary s₀ s → next fmt (.log p) s = some s' →
    s.Ordinary (.log p) s' → ∀ c ∈ sent s s', ¬ s.Hits c

/-- A pass that has no room and goes on hits a live record, if the chip erases. -/
theorem Kept.log_overruns {fmt : Format} {s s' : Logger} {p : Pass} (h : s.Kept)
    (hlap : 128 ≤ s.flash.maxRecord) (hp : ∀ i, p.outcome.erase i ≠ .busy)
    (hnext : Logger.next fmt (.log p) s = some s') (hw : s'.wIndex ≠ s.wIndex)
    (hnum : s.wIndex + s.passSize ≤ 4294967296) (hroom : ¬ s.HasRoom) :
    ∃ c ∈ sent s s', s.Hits c := by
  obtain ⟨s₁, hprep, hcase⟩ := log_cases hnext
  have hs₁ := h.start.prepared hprep
  obtain ⟨md, fd, wBuff, rfl⟩ := hprep
  rcases hcase with rfl | ⟨b, hb, rfl⟩
  · exact absurd rfl hw
  · exact hs₁.overruns hlap hp hb hroom hnum

/-- **A ring that no post empties is overwritten**: the pass at 896 erases the
sector of record 0, which has not been posted. -/
theorem overrun : ¬ NeverOverwritten booted := by
  intro h
  obtain ⟨s, hs⟩ := exists_filled 896 (by omega)
  obtain ⟨s', hnext, _, hw, _⟩ := hs.appendable.next_sensorPass hs.type
    (by rw [hs.wIndex]; decide)
  have hnum : s.wIndex + s.passSize ≤ 4294967296 := by
    rw [hs.wIndex, hs.passSize]
    decide
  have hroom : ¬ s.HasRoom := by
    intro hroom
    have := hroom 0 (by rw [hs.passSize]; decide) (by rw [hs.wIndex]; decide)
    rw [hs.wIndex, hs.rIndex, hs.max] at this
    omega
  obtain ⟨c, hc, hhit⟩ := hs.kept.log_overruns (by rw [hs.max]; decide)
    (fun _ hbusy => by cases hbusy) hnext (by omega) hnum hroom
  exact h .zero s _ s' hs.run hnext ⟨hnum, by omega⟩ c hc hhit

end Logger

end EnresLogger
