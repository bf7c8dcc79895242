import EnresLogger.Progress

/-!
# The backlog is delivered

`delivered_once` says that what has been sent are the committed records, in order;
it does not say that anything is sent.  Here: a record that is committed at some
moment has been sent when enough posts have gone through since, whatever passes and
whatever posts that do not go through come in between.

`Later n` is such a stretch of a run, with at least `n` posts that met a clear
network.  Each of these moves `rIndex` by a whole group or up to `wIndex`
(`postTask_clear`), no other step moves it back, and so it gets to where `wIndex` was
in `⌈backlog / limit⌉` of them: `Later.rIndex_ge`.
-/

namespace EnresLogger

open Lib

/-- WiFi is up, the chip can be read and the server answers 200. -/
structure Network.Clear (net : Network) : Prop where
  wifi : net.wifi = true
  busy : net.busy = (false, false)
  httpCode : ∀ i, net.httpCode i = 200

namespace Logger

/-- The most records a post task sends. -/
def postLimit (g : ConfigGlobal) : Nat := if g.batch = 0 then MAXPOST else g.batch.toNat

/-- A configuration whose post task does send: not the single-post mode of a type that has no
function for it. -/
structure CanPost (g : ConfigGlobal) : Prop where
  kind : ∃ kind, kindOf g.type = some kind
  mode : g.batch ≠ 0 ∨ g.type = 1

theorem numPost_eq (s : Logger) : s.numPost = min (s.wIndex - s.rIndex) (postLimit s.sd.cfgG) :=
  rfl

theorem postLimit_le {g : ConfigGlobal} (h : g.batch.toNat ≤ MAXMETER) : postLimit g ≤ MAXMETER := by
  rw [postLimit]
  split
  · decide
  · exact h

/-! ### A clear post -/

theorem postTask_idle {s : Logger} (h : ¬ s.rIndex < s.wIndex) (fmt : Format) (net : Network) :
    s.postTask fmt net = some s := by
  have hidle : ∀ single batch : Nat → Logger → Option Logger,
      readFlashToPost single batch net s = some s := by
    intro single batch
    rw [readFlashToPost_eq, if_neg fun hgo => h hgo.2]
  rw [postTask]
  split
  · exact hidle _ _
  · exact hidle _ _
  · exact hidle _ _
  · rfl

/-- **A clear post sends a whole group, or all there is.** -/
theorem postTask_clear {s : Logger} (h : CanPost s.sd.cfgG) (fmt : Format) {net : Network}
    (hnet : net.Clear) (hnum : s.numPost ≤ MAXMETER) (hle : s.rIndex ≤ s.wIndex)
    (hw : s.wIndex < 4294967296) :
    ∃ s', s.postTask fmt net = some s' ∧ s'.rIndex = s.rIndex + s.numPost := by
  obtain ⟨kind, hkind⟩ := h.kind
  rcases Nat.lt_or_eq_of_le hle with hlt | heq
  · obtain ⟨rBuff, hread⟩ := s.readRecords_idle kind hnum
    rw [← hnet.busy] at hread
    by_cases hzero : s.sd.cfgG.batch = 0
    · have htype := h.mode.resolve_left (not_not_intro hzero)
      rw [htype] at hkind
      cases hkind
      rw [postTask_single ⟨htype, hzero⟩, if_pos ⟨hnet.wifi, hlt⟩]
      obtain ⟨s', hpost, hsends⟩ : ∃ s', s.flashMeterToPost fmt net s.numPost = some s' ∧ _ :=
        flashMeterToPost_sends hread hw hlt hnum (fun i _ => hnet.httpCode i) hzero
      exact ⟨s', hpost, hsends.index⟩
    · obtain ⟨s', hpost, hsends⟩ : ∃ s', s.postTask fmt net = some s' ∧ _ :=
        postTask_batch_sends hkind hread hw hlt hnum hnet.wifi (hnet.httpCode 0) hzero
      exact ⟨s', hpost, hsends.index⟩
  · -- nothing is queued
    have hzero : s.numPost = 0 := by
      have := s.numPost_le
      omega
    exact ⟨s, postTask_idle (Nat.not_lt.mpr (Nat.le_of_eq heq.symm)) fmt net, by rw [hzero]; rfl⟩

/-! ### A stretch of a run -/

/-- What follows `s` in a run, with `n` clear posts counted. -/
inductive Later (fmt : Format) (s : Logger) : Nat → Logger → Prop
  | refl : Later fmt s 0 s
  | step {n : Nat} {s' s'' : Logger} {l : Label} :
      Later fmt s n s' → next fmt l s' = some s'' → Backlogged s' l s'' → Later fmt s n s''
  | clear {n : Nat} {s' s'' : Logger} {net : Network} :
      Later fmt s n s' → net.Clear → next fmt (.post net) s' = some s'' →
        Backlogged s' (.post net) s'' → Later fmt s (n + 1) s''

/-- A step of such a stretch: the indices do not go back, and what is committed stays. -/
structure Grows (s s' : Logger) : Prop where
  sd : s'.sd = s.sd
  wIndex : s.wIndex ≤ s'.wIndex
  rIndex : s.rIndex ≤ s'.rIndex
  commits : s.commits <+: s'.commits

theorem Grows.refl (s : Logger) : s.Grows s := ⟨rfl, Nat.le_refl _, Nat.le_refl _, List.prefix_rfl⟩

theorem Grows.trans {s s' s'' : Logger} (h : s.Grows s') (h' : s'.Grows s'') : s.Grows s'' :=
  ⟨h'.sd.trans h.sd, Nat.le_trans h.wIndex h'.wIndex, Nat.le_trans h.rIndex h'.rIndex,
    h.commits.trans h'.commits⟩

theorem Grows.of_start {s s' : Logger} (h : s.start.Grows s') : s.Grows s' :=
  ⟨h.sd, h.wIndex, h.rIndex, h.commits⟩

theorem Posted.wIndex {s s' : Logger} (h : Posted s s') : s'.wIndex = s.wIndex := by
  obtain ⟨rBuff, posts, rfl | ⟨num, _, rfl⟩⟩ := h <;> rfl

theorem Posted.grows {s s' : Logger} (h : Posted s s') (hw : s.wIndex < 4294967296) :
    s.Grows s' := by
  refine ⟨h.sd, Nat.le_of_eq h.wIndex.symm, ?_, ⟨[], by rw [List.append_nil, h.commits]⟩⟩
  obtain ⟨rBuff, posts, rfl | ⟨num, hnum, rfl⟩⟩ := h
  · exact Nat.le_refl _
  · show s.rIndex ≤ (s.rIndex + num) % 4294967296
    rw [Nat.mod_eq_of_lt (by omega)]
    exact Nat.le_add_right _ _

theorem writeBatch_grows {s : Logger} (hle : s.rIndex ≤ s.wIndex) {o : WriteOutcome} {b : Batch}
    (hround : s.wIndex ≤ (s.writeBatch o b).wIndex) : s.Grows (s.writeBatch o b) := by
  refine ⟨writeBatch_sd s o b, hround, ?_, ?_⟩
  · rcases writeBatch_cases s o b with ⟨_, heq⟩ | ⟨_, _, heq⟩ | ⟨_, _, heq⟩
    · exact Nat.le_of_eq (congrArg rIndex heq).symm
    · exact Nat.le_of_eq (congrArg rIndex heq).symm
    · -- both indices go on to the next sector
      rw [heq] at hround ⊢
      exact Nat.le_trans hle hround
  · rcases writeBatch_cases s o b with ⟨_, heq⟩ | ⟨_, _, heq⟩ | ⟨_, _, heq⟩
    · rw [heq]
      exact List.prefix_append _ _
    · exact ⟨[], (List.append_nil _).trans (congrArg Logger.commits heq).symm⟩
    · exact ⟨[], (List.append_nil _).trans (congrArg Logger.commits heq).symm⟩

theorem Backlogged.grows {fmt : Format} {s s' : Logger} {l : Label} (h : Backlogged s l s')
    (hback : s.Backed) (hnext : next fmt l s = some s') : s.Grows s' := by
  obtain ⟨_, h⟩ := h
  cases l with
  | log p =>
    obtain ⟨s₁, ⟨md, fd, wBuff, rfl⟩, rfl | ⟨b, _, rfl⟩⟩ := log_cases hnext
    · exact ⟨rfl, Nat.le_refl _, Nat.le_refl _, List.prefix_rfl⟩
    · obtain ⟨hsd, hw, hr, hc⟩ := writeBatch_grows (s := { s.start with md, fd, wBuff })
        hback.spans.1 h.2
      exact ⟨hsd, hw, hr, hc⟩
  | post net => exact ((postTask_posted hnext).grows hback.lt).of_start
  | restart => exact h.elim
  | server => exact h.elim
  | cutLog => exact h.elim
  | cutPost => exact h.elim
  | cutReset => exact h.elim

theorem BatchMode.canPost {s : Logger} (h : s.BatchMode) : CanPost s.sd.cfgG := by
  refine ⟨?_, Or.inl h.pos⟩
  rcases h.type with htype | htype <;> rw [htype] <;> exact ⟨_, rfl⟩

theorem BatchMode.of_sd {s s' : Logger} (h : s.BatchMode) (hsd : s'.sd = s.sd) : s'.BatchMode :=
  ⟨by rw [hsd]; exact h.type, by rw [hsd]; exact h.pos⟩

/-- **Clear posts bring `rIndex` to where `wIndex` was**, whatever comes in between. -/
theorem Later.rIndex_ge {fmt : Format} {sd : SDConfig} {s s' : Logger} {n : Nat}
    (hrun : Later fmt s n s') (h : Delivers fmt sd s) (hmode : s.BatchMode)
    (hbatch : s.sd.cfgG.batch.toNat ≤ MAXMETER) :
    Delivers fmt sd s' ∧ s.Grows s' ∧
      min s.wIndex (s.rIndex + n * s.sd.cfgG.batch.toNat) ≤ s'.rIndex := by
  induction hrun with
  | refl =>
    refine ⟨h, .refl s, ?_⟩
    rw [Nat.zero_mul]
    exact Nat.min_le_right _ _
  | @step n s' s'' l _ hnext hl ih =>
    obtain ⟨hdel, hgrow, hge⟩ := ih
    have hgrow' := hl.grows hdel.kept.backed hnext
    exact ⟨hdel.next (hmode.of_sd hgrow.sd) hnext hl, hgrow.trans hgrow',
      Nat.le_trans hge hgrow'.rIndex⟩
  | @clear n s' s'' net _ hnet hnext hl ih =>
    obtain ⟨hdel, hgrow, hge⟩ := ih
    have hmode' := hmode.of_sd hgrow.sd
    have hgrow' := hl.grows hdel.kept.backed hnext
    refine ⟨hdel.next hmode' hnext hl, hgrow.trans hgrow', ?_⟩
    have hbatch' : s'.sd.cfgG.batch.toNat ≤ MAXMETER := by rw [hgrow.sd]; exact hbatch
    have hle := hdel.kept.backed.spans.1
    have hmax : s'.start.numPost ≤ MAXMETER :=
      Nat.le_trans (Nat.min_le_right _ _) (postLimit_le hbatch')
    obtain ⟨s₁, hpost, hindex⟩ := postTask_clear (s := s'.start) hmode'.canPost fmt hnet hmax hle
      hdel.kept.backed.lt
    cases hpost.symm.trans hnext
    have hlimit : postLimit s'.sd.cfgG = s.sd.cfgG.batch.toNat := by
      rw [postLimit, if_neg hmode'.pos, hgrow.sd]
    have hnum : s'.start.numPost = min (s'.wIndex - s'.rIndex) s.sd.cfgG.batch.toNat := by
      rw [← hlimit]
      rfl
    have hw := hgrow.wIndex
    rw [hindex, hnum, Nat.succ_mul]
    show _ ≤ s'.rIndex + _
    omega

/-! ### Delivery -/

/-- **Every committed record is delivered.**  When `⌈backlog / batch⌉` clear posts have been
made since, the payloads answered with 200 are those of groups of records, and the
groups one after the other begin with all records that were committed then. -/
theorem delivered_all {fmt : Format} {s₀ s s' : Logger} {n : Nat} (h₀ : s₀.Fresh)
    (hmode : s₀.BatchMode) (hbatch : s₀.sd.cfgG.batch.toNat ≤ MAXMETER)
    (hrun : Reach fmt Backlogged s₀ s) (hlater : Later fmt s n s')
    (hn : s.wIndex - s.rIndex ≤ n * s₀.sd.cfgG.batch.toNat) :
    ∃ groups : List (List Record),
      s'.answered.map (·.playload) = groups.map (payloadText fmt (layoutOf s₀.sd.cfgG.type)) ∧
        s.commits.map (·.2) <+: groups.flatten := by
  have h := hrun.invariant (Delivers fmt s₀.sd) (h₀.delivers fmt)
    (fun s l s' h hnext hl => h.next (hmode.of_sd h.sd_eq) hnext hl)
  obtain ⟨hdel, hgrow, hge⟩ := hlater.rIndex_ge h (hmode.of_sd h.sd_eq)
    (by rw [h.sd_eq]; exact hbatch)
  obtain ⟨_, hq₀⟩ := h.spools
  obtain ⟨q, hq⟩ := hdel.spools
  obtain ⟨groups, hpay, hflat⟩ := hq.delivered
  refine ⟨groups, hpay, ?_⟩
  rw [hflat]
  refine List.IsPrefix.map _ ?_
  obtain ⟨rest, hrest⟩ := hgrow.commits
  rw [← hrest, List.filter_append]
  have hall : s.commits.filter (·.1 < s'.rIndex) = s.commits := by
    rw [List.filter_eq_self]
    intro e he
    have hlt := hq₀.commits_lt h.kept.backed.spans.1 e he
    have hle := h.kept.backed.spans.1
    rw [h.sd_eq] at hge
    exact decide_eq_true (show e.1 < s'.rIndex by omega)
  rw [hall]
  exact List.prefix_append _ _

/-- Two records are logged, and one clear post delivers both. -/
theorem delivered_all_first :
    ∃ s s', twoMeters.run .zero [.log (sensorPass .healthy)] = some s ∧
      s.run .zero [.post ⟨true, (false, false), fun _ => 200⟩] = some s' ∧
      s.commits.length = 2 ∧ ∃ groups : List (List Record),
        s'.answered.map (·.playload) = groups.map (payloadText .zero meterLayout) ∧
          s.commits.map (·.2) <+: groups.flatten := by
  have hrun : ((next .zero (.log (sensorPass .healthy)) twoMeters).bind fun s₁ =>
      (next .zero (.post ⟨true, (false, false), fun _ => 200⟩) s₁).map fun _ =>
        (s₁.wIndex, s₁.rIndex, s₁.flash.maxRecord, s₁.commits.length)) = some (2, 0, 896, 2) := by
    decide +kernel
  obtain ⟨s₁, h₁, hrun⟩ := Option.bind_eq_some_iff.mp hrun
  obtain ⟨s₂, hnext, heq⟩ := Option.map_eq_some_iff.mp hrun
  obtain ⟨hw, hr, hmax, hlen⟩ : s₁.wIndex = 2 ∧ s₁.rIndex = 0 ∧ s₁.flash.maxRecord = 896 ∧
      s₁.commits.length = 2 := by
    simpa using heq
  have hsd : twoMeters.sd = .plain 1 2 3 := rfl
  have hmode : twoMeters.BatchMode := ⟨Or.inl (by rw [hsd]; rfl), by rw [hsd]; decide⟩
  have hstep₁ : Backlogged twoMeters (.log (sensorPass .healthy)) s₁ :=
    ⟨show 0 + 84 ≤ 0 + 896 by decide, show 0 + 2 ≤ 4294967296 by decide, Nat.zero_le s₁.wIndex⟩
  have hstep₂ : Backlogged s₁ (.post ⟨true, (false, false), fun _ => 200⟩) s₂ :=
    ⟨by rw [hw, hr, hmax]; decide, trivial⟩
  have h := delivered_all twoMeters_fresh hmode (by rw [hsd]; decide) (Reach.refl.step h₁ hstep₁)
    (Later.refl.clear ⟨rfl, rfl, fun _ => rfl⟩ hnext hstep₂)
    (show s₁.wIndex - s₁.rIndex ≤ (0 + 1) * twoMeters.sd.cfgG.batch.toNat by
      rw [hw, hr, hsd]
      decide)
  rw [hsd] at h
  exact ⟨s₁, s₂, run_cons h₁, run_cons hnext, hlen, h⟩

end Logger

end EnresLogger
