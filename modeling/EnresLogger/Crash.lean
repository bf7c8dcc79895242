import EnresLogger.Device

/-!
# The indices after a reset

`Spans commits r w` is what the indices stand for: every index from `r` up to
`w` has been committed.  `Backed` is the invariant between two tasks: the
indices span, and the NVRAM holds the mark and the same two words.

A single store keeps `Spans` in a logging pass and in a post.  Three places make
two stores that only together keep it: the move to the next sector (`r` before
`w`), the reset of the indices (`w` before `r`), and the first boot, which
writes the mark before the words it vouches for.  `Safe` and `SafeBoot` say that
no reset falls where this shows, and that no pass carries `wIndex` round to 0.
`crash_consistent` is the run, `not_crash_consistent` one run for each place.
-/

namespace EnresLogger

open Lib

namespace Logger

/-! ### Spans -/

/-- Every index from `r` up to `w` is committed. -/
def Spans (commits : List (Nat × Record)) (r w : Nat) : Prop :=
  r ≤ w ∧ ∀ i, r ≤ i → i < w → ∃ x, (i, x) ∈ commits

theorem Spans.refl (commits : List (Nat × Record)) (r : Nat) : Spans commits r r :=
  ⟨Nat.le_refl r, fun _ h1 h2 => absurd h1 (Nat.not_le.mpr h2)⟩

theorem Spans.of_append {commits new : List (Nat × Record)} {r w : Nat}
    (h : Spans commits r w) : Spans (commits ++ new) r w := by
  refine ⟨h.1, fun i h1 h2 => ?_⟩
  obtain ⟨x, hx⟩ := h.2 i h1 h2
  exact ⟨x, List.mem_append_left _ hx⟩

theorem Spans.commit {commits : List (Nat × Record)} {r w : Nat} (h : Spans commits r w)
    (records : List Record) (hw : w + records.length < 4294967296) :
    Spans (commits ++ records.mapIdx fun i x => ((w + i) % 4294967296, x)) r
      (w + records.length) := by
  refine ⟨Nat.le_trans h.1 (Nat.le_add_right _ _), fun i h1 h2 => ?_⟩
  rcases Nat.lt_or_ge i w with hi | hi
  · exact h.of_append.2 i h1 hi
  · have hk : i - w < records.length := by omega
    refine ⟨records[i - w], List.mem_append_right _ ?_⟩
    rw [List.mem_mapIdx]
    refine ⟨i - w, hk, ?_⟩
    rw [Nat.add_sub_cancel' hi, Nat.mod_eq_of_lt (by omega)]

theorem Spans.advance {commits : List (Nat × Record)} {r w n : Nat} (h : Spans commits r w)
    (hn : r + n ≤ w) : Spans commits (r + n) w :=
  ⟨hn, fun i h1 h2 => h.2 i (by omega) h2⟩

/-! ### What a boot finds -/

/-- The state between two tasks. -/
structure Backed (s : Logger) : Prop where
  nv : s.nv = ⟨0x55, s.wIndex, s.rIndex⟩
  spans : Spans s.commits s.rIndex s.wIndex
  lt : s.wIndex < 4294967296

/-- What a boot needs to find. -/
structure Bootable (s : Logger) : Prop where
  mark : s.nv.mark = 0x55
  spans : Spans s.commits s.nv.r s.nv.w
  lt : s.nv.w < 4294967296

theorem setup_of_mark {s : Logger} (sd : SDConfig) (h : s.nv.mark = 0x55) :
    ∃ md fd wBuff rBuff fErrorCnt, s.setup sd = { s with
      sd, md, fd, wBuff, rBuff, fErrorCnt, stores := [], wIndex := s.nv.w, rIndex := s.nv.r } :=
  ⟨_, _, _, _, _, if_neg (fun hne => hne h)⟩

theorem setup_of_no_mark {s : Logger} (sd : SDConfig) (h : s.nv.mark ≠ 0x55) :
    ∃ md fd wBuff rBuff fErrorCnt, s.setup sd = { s with
      sd, md, fd, wBuff, rBuff, fErrorCnt, commits := [], wIndex := 0, rIndex := 0
      nv := ⟨0x55, 0, 0⟩, stores := [.mark, .w 0, .r 0] } :=
  ⟨_, _, _, _, _, if_pos h⟩

theorem Bootable.setup {s : Logger} (h : s.Bootable) (sd : SDConfig) : (s.setup sd).Backed := by
  obtain ⟨_, _, _, _, _, heq⟩ := setup_of_mark sd h.mark
  rw [heq]
  refine ⟨?_, h.spans, h.lt⟩
  show s.nv = ⟨0x55, s.nv.w, s.nv.r⟩
  rw [← h.mark]

theorem Backed.bootable {s : Logger} (h : s.Backed) : s.Bootable := by
  obtain ⟨hnv, hspans, hlt⟩ := h
  refine ⟨?_, ?_, ?_⟩ <;> rw [hnv] <;> assumption

theorem Backed.start {s : Logger} (h : s.Backed) : s.start.Backed := ⟨h.nv, h.spans, h.lt⟩

theorem Backed.prepared {s s₁ : Logger} (h : s.Backed) (hp : Prepared s s₁) : s₁.Backed := by
  obtain ⟨md, fd, wBuff, rfl⟩ := hp
  exact ⟨h.nv, h.spans, h.lt⟩

/-! ### Tasks -/

theorem Backed.writeBatch {s : Logger} (h : s.Backed) (o : WriteOutcome) {b : Batch}
    (hb : b.Sound)
    (hw : (s.flash.writeData b.kind o s.wIndex b.data).1 = true →
      s.wIndex + b.num < 4294967296) : (s.writeBatch o b).Backed := by
  obtain ⟨hnv, hspans, hlt⟩ := h
  rcases writeBatch_cases s o b with ⟨hok, heq⟩ | ⟨_, _, heq⟩ | ⟨_, _, heq⟩
  · have hw := hw hok
    rw [heq]
    refine ⟨?_, ?_, Nat.mod_lt _ (by decide)⟩
    · simp only [setWIndex, store, hnv, NVRAM.write]
    · simp only [setWIndex, store]
      rw [Nat.mod_eq_of_lt hw, hb.num]
      exact hspans.commit b.records (by rw [← hb.num]; exact hw)
  · rw [heq]
    exact ⟨hnv, hspans, hlt⟩
  · rw [heq]
    refine ⟨?_, Spans.refl _ _, Nat.mod_lt _ (by decide)⟩
    simp only [setWIndex, setRIndex, store, hnv, NVRAM.write]

theorem Backed.posted {s s' : Logger} (h : s.Backed) (hp : Posted s s') : s'.Backed := by
  obtain ⟨hnv, hspans, hlt⟩ := h
  obtain ⟨rBuff, posts, rfl | ⟨num, hnum, rfl⟩⟩ := hp
  · exact ⟨hnv, hspans, hlt⟩
  · have hmod : (s.rIndex + num) % 4294967296 = s.rIndex + num := Nat.mod_eq_of_lt (by omega)
    refine ⟨?_, ?_, hlt⟩
    · simp only [Logger.advance, setRIndex, store, hnv, NVRAM.write]
    · simp only [Logger.advance, setRIndex, store, hmod]
      exact hspans.advance hnum

theorem Backed.resetIndex {s : Logger} (h : s.Backed) : s.resetIndex.Backed := by
  refine ⟨?_, Spans.refl _ 0, by simp only [Logger.resetIndex, setRIndex, setWIndex, store]; decide⟩
  simp only [Logger.resetIndex, setRIndex, setWIndex, store, h.nv, NVRAM.write]

/-! ### Resets -/

/-- The write of this pass fails and moves on to the next sector. -/
def Skips (p : Pass) (s : Logger) : Prop :=
  ∃ s₁ b, s.start.batch p = some (s₁, some b) ∧
    (s₁.flash.writeData b.kind p.outcome s₁.wIndex b.data).1 = false ∧ s₁.AtEscape

/-- The resets and passes after which the indices can be relied on. -/
def Safe (s : Logger) : Label → Prop
  | .log _ => s.wIndex + s.passSize < 4294967296
  | .cutLog p (.storing k) _ =>
      s.wIndex + s.passSize < 4294967296 ∧ (k = 1 → ¬ s.Skips p)
  | .cutReset k _ => k = 0 → s.rIndex = 0
  | _ => True

/-- A first boot cut after `k` stores does no harm. -/
def SafeBoot (nv : NVRAM) (k : Nat) : Prop :=
  (k = 1 → nv.w = nv.r) ∧ (k = 2 → nv.r = 0)

/-- The words that a cut between the stores of a write leaves: the old indices,
the new ones, or two equal ones. -/
theorem powerCut_writeBatch {s : Logger} (hnv : s.nv = ⟨0x55, s.wIndex, s.rIndex⟩)
    (hstores : s.stores = []) (o : WriteOutcome) (b : Batch) (k : Nat)
    (hskip : k = 1 → ¬ ((s.flash.writeData b.kind o s.wIndex b.data).1 = false ∧ s.AtEscape)) :
    let nv := (s.powerCut (s.writeBatch o b) k).nv
    nv = s.nv ∨
      ((s.flash.writeData b.kind o s.wIndex b.data).1 = true ∧
        nv = ⟨0x55, (s.wIndex + b.num) % 4294967296, s.rIndex⟩) ∨
      (nv.mark = 0x55 ∧ nv.w = nv.r ∧ nv.w < 4294967296) := by
  intro nv
  have hcut : nv = ((s.writeBatch o b).stores.take k).foldl NVRAM.write s.nv := rfl
  rcases writeBatch_cases s o b with ⟨hok, heq⟩ | ⟨_, _, heq⟩ | ⟨hfail, hesc, heq⟩
  · rw [heq] at hcut
    cases k with
    | zero => exact Or.inl hcut
    | succ k =>
      refine Or.inr (Or.inl ⟨hok, ?_⟩)
      rw [hcut]
      simp only [setWIndex, store, hstores, List.nil_append, List.take_succ_cons, List.take_nil,
        List.foldl_cons, List.foldl_nil, hnv, NVRAM.write]
  · -- a refused write stores nothing
    rw [heq] at hcut
    simp only [hstores, List.take_nil, List.foldl_nil] at hcut
    exact Or.inl hcut
  · rw [heq] at hcut
    match k with
    | 0 => exact Or.inl hcut
    | 1 => exact absurd ⟨hfail, hesc⟩ (hskip rfl)
    | k + 2 =>
      refine Or.inr (Or.inr ?_)
      rw [hcut]
      simp only [setWIndex, setRIndex, store, hstores, List.nil_append, List.cons_append,
        List.take_succ_cons, List.take_nil, List.foldl_cons, List.foldl_nil, hnv, NVRAM.write]
      exact ⟨trivial, trivial, Nat.mod_lt _ (by decide)⟩

/-- The words that a cut in a post leaves: `rIndex` is as it was, or behind what
was sent. -/
theorem powerCut_posted {s s₁ : Logger} (hnv : s.nv = ⟨0x55, s.wIndex, s.rIndex⟩)
    (hp : Posted s.start s₁) (k : Nat) :
    (s.powerCut s₁ k).nv = s.nv ∨ ∃ num, s.rIndex + num ≤ s.wIndex ∧
      (s.powerCut s₁ k).nv = ⟨0x55, s.wIndex, (s.rIndex + num) % 4294967296⟩ := by
  obtain ⟨rBuff, posts, rfl | ⟨num, hnum, rfl⟩⟩ := hp
  · left
    simp only [powerCut, Logger.start, List.take_nil, List.foldl_nil]
  · cases k with
    | zero => exact Or.inl rfl
    | succ k =>
      refine Or.inr ⟨num, hnum, ?_⟩
      simp only [powerCut, Logger.start, Logger.advance, setRIndex, store, List.nil_append,
        List.take_succ_cons, List.take_nil, List.foldl_cons, List.foldl_nil, hnv, NVRAM.write]

theorem powerCut_resetIndex {s : Logger} (hnv : s.nv = ⟨0x55, s.wIndex, s.rIndex⟩) (k : Nat) :
    (s.powerCut s.start.resetIndex (k + 1)).nv = ⟨0x55, 0, if k = 0 then s.rIndex else 0⟩ := by
  cases k with
  | zero =>
    simp only [powerCut, Logger.resetIndex, Logger.start, setRIndex, setWIndex, store,
      List.nil_append, List.cons_append, List.take_succ_cons, List.take_zero, List.foldl_cons,
      List.foldl_nil, hnv, NVRAM.write, if_true]
  | succ k =>
    simp only [powerCut, Logger.resetIndex, Logger.start, setRIndex, setWIndex, store,
      List.nil_append, List.cons_append, List.take_succ_cons, List.take_nil, List.foldl_cons,
      List.foldl_nil, hnv, NVRAM.write, Nat.succ_ne_zero, if_false]

theorem Backed.cut_writeBatch {s : Logger} (h : s.Backed) (hstores : s.stores = [])
    (o : WriteOutcome) {b : Batch} (hb : b.Sound) (hw : s.wIndex + b.num < 4294967296) (k : Nat)
    (hskip : k = 1 → ¬ ((s.flash.writeData b.kind o s.wIndex b.data).1 = false ∧ s.AtEscape)) :
    (s.powerCut (s.writeBatch o b) k).Bootable := by
  have hcommits : (s.powerCut (s.writeBatch o b) k).commits = (s.writeBatch o b).commits := rfl
  rcases powerCut_writeBatch h.nv hstores o b k hskip with hnv | ⟨hok, hnv⟩ | ⟨hmark, heq, hlt⟩
  · -- the records may be in the flash, `wIndex` does not count them yet
    refine ⟨by rw [hnv]; exact h.bootable.mark, ?_, by rw [hnv]; exact h.bootable.lt⟩
    rw [hcommits, hnv, h.nv]
    rcases writeBatch_cases s o b with ⟨_, heq⟩ | ⟨_, _, heq⟩ | ⟨_, _, heq⟩
    · rw [heq]
      exact h.spans.of_append
    · rw [heq]
      exact h.spans
    · rw [heq]
      exact h.spans
  · rw [Nat.mod_eq_of_lt hw] at hnv
    refine ⟨by rw [hnv], ?_, by rw [hnv]; exact hw⟩
    rw [hcommits, hnv, hb.num]
    rcases writeBatch_cases s o b with ⟨_, heq⟩ | ⟨hfail, _⟩ | ⟨hfail, _⟩
    · rw [heq]
      exact h.spans.commit b.records (by rw [← hb.num]; exact hw)
    · exact absurd (hok.symm.trans hfail) (by decide)
    · exact absurd (hok.symm.trans hfail) (by decide)
  · refine ⟨hmark, ?_, hlt⟩
    rw [heq]
    exact Spans.refl _ _

theorem Backed.cutBatch {s : Logger} (h : s.Backed) (hstores : s.stores = []) (o : WriteOutcome)
    {b : Batch} (hb : b.Sound) {cut : Cut}
    (hw : ∀ k, cut = .storing k → s.wIndex + b.num < 4294967296)
    (hskip : cut = .storing 1 →
      ¬ ((s.flash.writeData b.kind o s.wIndex b.data).1 = false ∧ s.AtEscape)) :
    (s.cutBatch o b cut).Bootable := by
  cases cut with
  | erasing => exact ⟨h.bootable.mark, h.bootable.spans, h.bootable.lt⟩
  | programming => exact ⟨h.bootable.mark, h.bootable.spans, h.bootable.lt⟩
  | storing k =>
    exact h.cut_writeBatch hstores o hb (hw k rfl) k fun hk => hskip (by rw [hk])

theorem Backed.cutPost {s s₁ : Logger} (h : s.Backed) (hp : Posted s.start s₁) (k : Nat) :
    (s.powerCut s₁ k).Bootable := by
  have hcommits : (s.powerCut s₁ k).commits = s.commits := hp.commits
  rcases powerCut_posted h.nv hp k with hnv | ⟨num, hnum, hnv⟩
  · refine ⟨by rw [hnv]; exact h.bootable.mark, ?_, by rw [hnv]; exact h.bootable.lt⟩
    rw [hcommits, hnv]
    exact h.bootable.spans
  · have hlt := h.lt
    rw [Nat.mod_eq_of_lt (by omega)] at hnv
    refine ⟨by rw [hnv], ?_, by rw [hnv]; exact hlt⟩
    rw [hcommits, hnv]
    exact h.spans.advance hnum

theorem Backed.cutReset {s : Logger} (h : s.Backed) {k : Nat} (hsafe : k = 0 → s.rIndex = 0) :
    (s.powerCut s.start.resetIndex (k + 1)).Bootable := by
  have hnv := powerCut_resetIndex h.nv k
  rw [show (if k = 0 then s.rIndex else 0) = 0 by split <;> simp_all] at hnv
  refine ⟨by rw [hnv], ?_, by rw [hnv]; decide⟩
  rw [hnv]
  exact Spans.refl _ 0

theorem Backed.next {fmt : Format} {s s' : Logger} {l : Label} (h : s.Backed)
    (hnext : Logger.next fmt l s = some s') (hsafe : Safe s l) : s'.Backed := by
  cases l with
  | log p =>
    obtain ⟨s₁, hprep, rfl | ⟨b, hb, rfl⟩⟩ := logTask_cases hnext
    · exact h.start.prepared hprep
    · have hs₁ := h.start.prepared hprep
      obtain ⟨md, fd, wBuff, rfl⟩ := hprep
      exact hs₁.writeBatch p.outcome hb.toSound (fun _ => by rw [hb.size]; exact hsafe)
  | post net => exact h.start.posted (postTask_posted hnext)
  | server wifi httpCode restart sd =>
    rcases server_cases hnext with rfl | rfl | rfl
    · exact h.start
    · exact h.start.bootable.setup sd
    · exact h.start.resetIndex.bootable.setup sd
  | restart sd =>
    cases hnext
    exact h.bootable.setup sd
  | cutLog p cut sd =>
    obtain ⟨s₁, hprep, rfl | ⟨b, hbatch, hb, rfl⟩⟩ := cutLog_cases hnext
    · exact (h.start.prepared hprep).bootable.setup sd
    · have hs₁ := h.start.prepared hprep
      have hskip : cut = .storing 1 → ¬ ((s₁.flash.writeData b.kind p.outcome s₁.wIndex b.data).1 =
          false ∧ s₁.AtEscape) := by
        rintro rfl hskip
        exact hsafe.2 rfl ⟨s₁, b, hbatch, hskip⟩
      obtain ⟨md, fd, wBuff, rfl⟩ := hprep
      refine (hs₁.cutBatch rfl p.outcome hb.toSound ?_ hskip).setup sd
      rintro k rfl
      rw [hb.size]
      exact hsafe.1
  | cutPost net k sd =>
    obtain ⟨s₁, htask, hnext⟩ := Option.bind_eq_some_iff.mp hnext
    cases hnext
    exact (h.cutPost (postTask_posted htask) k).setup sd
  | cutReset k sd =>
    cases hnext
    exact (h.cutReset hsafe).setup sd

/-- **The first boot.** -/
theorem backed_of_boot {s₀ s₁ : Logger} (hfresh : s₀.nv.mark ≠ 0x55)
    (hword : s₀.nv.w < 4294967296) (hboot : Boot (SafeBoot s₀.nv) s₀ s₁) : s₁.Backed := by
  cases hboot with
  | whole sd =>
    obtain ⟨_, _, _, _, _, heq⟩ := setup_of_no_mark sd hfresh
    rw [heq]
    exact ⟨rfl, Spans.refl _ 0, show 0 < 4294967296 by decide⟩
  | cut k sd sd' hsafe =>
    obtain ⟨_, _, _, _, _, heq⟩ := setup_of_no_mark sd hfresh
    match k with
    | 0 =>
      -- nothing was stored, and the second boot starts over
      have hfresh' : (s₀.powerCut (s₀.setup sd) 0).nv.mark ≠ 0x55 := hfresh
      obtain ⟨_, _, _, _, _, heq'⟩ := setup_of_no_mark sd' hfresh'
      rw [heq']
      exact ⟨rfl, Spans.refl _ 0, show 0 < 4294967296 by decide⟩
    | 1 =>
      have hwr := hsafe.1 rfl
      refine Bootable.setup ⟨?_, ?_, ?_⟩ sd' <;>
        simp only [powerCut, heq, List.take_succ_cons, List.take_zero, List.foldl_cons,
          List.foldl_nil, NVRAM.write]
      · rw [hwr]
        exact Spans.refl _ _
      · exact hword
    | 2 =>
      have hr := hsafe.2 rfl
      refine Bootable.setup ⟨?_, ?_, ?_⟩ sd' <;>
        simp only [powerCut, heq, List.take_succ_cons, List.take_zero, List.foldl_cons,
          List.foldl_nil, NVRAM.write]
      · rw [hr]
        exact Spans.refl _ 0
      · decide
    | k + 3 =>
      refine Bootable.setup ⟨?_, ?_, ?_⟩ sd' <;>
        simp only [powerCut, heq, List.take_succ_cons, List.take_nil, List.foldl_cons,
          List.foldl_nil, NVRAM.write]
      · exact Spans.refl _ 0
      · decide

/-- **After every boot the indices stand for committed records**, in every run
whose resets fall where `Safe` allows. -/
theorem crash_consistent {fmt : Format} {s₀ s₁ s : Logger} (hfresh : s₀.nv.mark ≠ 0x55)
    (hword : s₀.nv.w < 4294967296) (hboot : Boot (SafeBoot s₀.nv) s₀ s₁)
    (hrun : Reach fmt (fun s l _ => Safe s l) s₁ s) : Spans s.commits s.rIndex s.wIndex :=
  (hrun.invariant Backed (backed_of_boot hfresh hword hboot)
    (fun _ _ _ h hnext hsafe => h.next hnext hsafe)).spans

/-- One sensor pass, on a chip that does what `o` says. -/
def sensorPass (o : WriteOutcome) : Pass := ⟨0, .null, fun _ => .zeros, o⟩

/-- A new device whose RAM holds the words `w` and `r`. -/
def newDevice (w r : Nat) : Logger := factory (blankChip 65536) (.plain 2 0 1) ⟨0, w, r⟩

/-- A record is logged, and the pass that logs the next one is cut before its store: the
first one is still to be posted. -/
theorem crash_consistent_cutLog :
    ∃ s₁ s, next .zero (.log (sensorPass .healthy)) ((newDevice 5 9).setup (.plain 2 0 1)) =
        some s₁ ∧
      next .zero (.cutLog (sensorPass .healthy) (.storing 0) (.plain 2 0 1)) s₁ = some s ∧
      s.wIndex = 1 ∧ s.rIndex = 0 ∧ Spans s.commits s.rIndex s.wIndex := by
  have hrun : ((next .zero (.log (sensorPass .healthy))
      ((newDevice 5 9).setup (.plain 2 0 1))).bind fun s₁ =>
      (next .zero (.cutLog (sensorPass .healthy) (.storing 0) (.plain 2 0 1)) s₁).map fun s =>
        (s₁.wIndex + s₁.passSize, s.wIndex, s.rIndex)) = some (2, 1, 0) := by
    decide +kernel
  obtain ⟨s₁, hlog, hrun⟩ := Option.bind_eq_some_iff.mp hrun
  obtain ⟨s, hcut, heq⟩ := Option.map_eq_some_iff.mp hrun
  obtain ⟨hsize, hw, hr⟩ : s₁.wIndex + s₁.passSize = 2 ∧ s.wIndex = 1 ∧ s.rIndex = 0 := by
    simpa using heq
  have hfirst : Safe ((newDevice 5 9).setup (.plain 2 0 1)) (.log (sensorPass .healthy)) := by
    show 0 + 1 < 4294967296
    decide
  have hsecond : Safe s₁ (.cutLog (sensorPass .healthy) (.storing 0) (.plain 2 0 1)) :=
    ⟨by rw [hsize]; decide, fun h => absurd h (by decide)⟩
  exact ⟨s₁, s, hlog, hcut, hw, hr, @crash_consistent .zero (newDevice 5 9) _ _ (by decide)
    (by decide) (.whole (.plain 2 0 1)) (.step (.step .refl hlog hfirst) hcut hsecond)⟩

/-- The statement for one device, with resets anywhere. -/
def CrashConsistent (s₀ : Logger) : Prop :=
  ∀ fmt s₁ s, Boot (fun _ => True) s₀ s₁ → Reach fmt (fun _ _ _ => True) s₁ s →
    Spans s.commits s.rIndex s.wIndex

/-- Three passes on a chip that does not answer; the third is cut between its
two stores. -/
def cutSkip : List Label :=
  [.log (sensorPass .dead), .log (sensorPass .dead),
    .cutLog (sensorPass .dead) (.storing 1) (.plain 2 0 1)]

/-- One record is logged and posted; then the reset of the indices is cut. -/
def cutServer : List Label :=
  [.log (sensorPass .healthy), .post ⟨true, (false, false), fun _ => 200⟩,
    .cutReset 0 (.plain 2 0 1)]

theorem not_spans_of_run {w r w' r' : Nat} {ls : List Label}
    (hrun : (((newDevice w r).setup (.plain 2 0 1)).run .zero ls).map
      (fun s => (s.wIndex, s.rIndex)) = some (w', r')) (hlt : w' < r') :
    ¬ CrashConsistent (newDevice w r) := by
  intro h
  obtain ⟨s, hs, heq⟩ := Option.map_eq_some_iff.mp hrun
  cases heq
  have hspans := h .zero _ s (.whole (.plain 2 0 1)) (Reach.refl.run (fun _ _ _ _ => trivial) hs)
  exact absurd hspans.1 (Nat.not_le.mpr hlt)

/-- **Between two stores the indices can come apart**: in a move to the next
sector and in the reset of the indices of a device with a clean RAM, and in the
first boot on a RAM that holds two odd words. -/
theorem not_crash_consistent :
    (((newDevice 0 0).setup (.plain 2 0 1)).run .zero cutSkip).map
        (fun s => (s.wIndex, s.rIndex)) = some (0, 64) ∧
      (((newDevice 0 0).setup (.plain 2 0 1)).run .zero cutServer).map
        (fun s => (s.wIndex, s.rIndex)) = some (0, 1) ∧
      ¬ CrashConsistent (newDevice 0 0) ∧ ¬ CrashConsistent (newDevice 5 9) := by
  have hskip : (((newDevice 0 0).setup (.plain 2 0 1)).run .zero cutSkip).map
      (fun s => (s.wIndex, s.rIndex)) = some (0, 64) := by decide +kernel
  refine ⟨hskip, by decide +kernel, not_spans_of_run hskip (by decide), fun h => ?_⟩
  have hspans := h .zero _ _ (.cut 1 (.plain 2 0 1) (.plain 2 0 1) trivial) .refl
  exact absurd hspans.1 (by decide)

end Logger

end EnresLogger
