import EnresLogger.Cadence

/-!
# The life of the device

`loop` is not a step of the device but up to four of them: a pass and a post, if their
windows are open, the check with the server and the routine restart.  `Clock.labels` is the
list, and `loop_labels` says that an iteration is the run of these labels, up to the list of
stores, which a task of its own begins anew.

A life is what happens from the first boot on: iterations, the restarts that end some of
them, and failures of the power at any time.  `Life.device_run`: it is a run of the device.
-/

namespace EnresLogger

open Lib

namespace Logger

/-! ### Stores made before -/

/-- The same state, when the stores `xs` were made before. -/
def behind (xs : List Store) (s : Logger) : Logger := { s with stores := xs ++ s.stores }

theorem bind_map {α β γ : Type} {x : Option α} {f : α → Option β} {g : α → Option γ} {h : β → γ}
    (hfg : ∀ a, g a = (f a).map h) : x.bind g = (x.bind f).map h := by
  cases x with
  | none => rfl
  | some a => exact hfg a

theorem map_bind_map {α α' β γ : Type} {x : Option α} {k : α → α'} {f : α → Option β}
    {g : α' → Option γ} {h : β → γ} (hfg : ∀ a, g (k a) = (f a).map h) :
    (x.map k).bind g = (x.bind f).map h := by
  cases x with
  | none => rfl
  | some a => exact hfg a

theorem start_behind (s : Logger) : s.start.behind s.stores = s := by
  rw [behind, start, List.append_nil]

theorem store_behind (xs : List Store) (s : Logger) (x : Store) :
    (s.behind xs).store x = (s.store x).behind xs := by
  simp only [store, behind, List.append_assoc]

theorem advance_behind (xs : List Store) (s : Logger) (num : Nat) :
    (s.behind xs).advance num = (s.advance num).behind xs :=
  store_behind xs { s with rIndex := (s.rIndex + num) % 4294967296 } _

theorem resetIndex_behind (xs : List Store) (s : Logger) :
    (s.behind xs).resetIndex = s.resetIndex.behind xs := by
  have h := store_behind xs { s with wIndex := 0, rIndex := 0, commits := [] } (.w 0)
  show ((behind xs { s with wIndex := 0, rIndex := 0, commits := [] }).store (.w 0)).store
    (.r 0) = _
  rw [h, store_behind]
  rfl

theorem afterWrite_behind (xs : List Store) (s : Logger) (ok : Bool) (b : Batch) :
    (s.behind xs).afterWrite ok b = (s.afterWrite ok b).behind xs := by
  cases ok with
  | true =>
    exact store_behind xs { s with
      wIndex := (s.wIndex + b.num) % 4294967296, fErrorCnt := 0
      commits := s.commits ++ b.records.mapIdx fun i x => ((s.wIndex + i) % 4294967296, x) } _
  | false =>
    have hesc : (s.behind xs).AtEscape ↔ s.AtEscape := Iff.rfl
    rw [afterWrite, afterWrite, if_neg Bool.false_ne_true, if_neg Bool.false_ne_true]
    by_cases h : s.AtEscape
    · -- two stores
      have h' := hesc.mpr h
      rw [AtEscape] at h h'
      rw [if_pos h, if_pos h']
      let w := (s.wIndex / 64 + 1) * 64 % 4294967296
      let s₁ := { s with fErrorCnt := 0, wIndex := w, rIndex := w }
      show ((s₁.behind xs).store (.r w)).store (.w w) = ((s₁.store (.r w)).store (.w w)).behind xs
      rw [store_behind, store_behind]
    · have h' := fun hb => h (hesc.mp hb)
      rw [AtEscape] at h h'
      rw [if_neg h, if_neg h']
      rfl

theorem writeBatch_behind (xs : List Store) (s : Logger) (o : WriteOutcome) (b : Batch) :
    (s.behind xs).writeBatch o b = (s.writeBatch o b).behind xs :=
  afterWrite_behind xs { s with flash := (s.flash.writeData b.kind o s.wIndex b.data).2 } _ b

theorem meterBatch_behind (xs : List Store) (s : Logger) :
    (s.behind xs).meterBatch = s.meterBatch.map fun r => (r.1.behind xs, r.2) := by
  rw [meterBatch, meterBatch]
  exact bind_map fun _ => bind_map fun _ => rfl

theorem sensorBatch_behind (xs : List Store) (fpu : Fpu) (now : UInt32) (s : Logger) :
    (s.behind xs).sensorBatch fpu now =
      (s.sensorBatch fpu now).map fun r => (r.1.behind xs, r.2) := by
  rw [sensorBatch, sensorBatch]
  exact bind_map fun _ => bind_map fun _ => rfl

theorem flowBatch_behind (xs : List Store) (s : Logger) :
    (s.behind xs).flowBatch = s.flowBatch.map fun r => (r.1.behind xs, r.2) := by
  rw [flowBatch, flowBatch]
  exact bind_map fun _ => bind_map fun _ => rfl

theorem ReadMeterToFlash_Task_behind (xs : List Store) (p : Pass) (s : Logger) :
    (s.behind xs).ReadMeterToFlash_Task p = (s.ReadMeterToFlash_Task p).map (behind xs) := by
  refine bind_map (x := s.readMeters p) ?_
  rintro ⟨ok, md⟩
  cases ok with
  | false => rfl
  | true =>
    show (behind xs { s with md }).meterToFlash p.outcome = _
    rw [meterToFlash, meterBatch_behind]
    refine map_bind_map ?_
    rintro ⟨s, b⟩
    exact congrArg some (writeBatch_behind xs s _ b)

theorem ReadSensorToFlash_Task_behind (xs : List Store) (p : Pass) (s : Logger) :
    (s.behind xs).ReadSensorToFlash_Task p = (s.ReadSensorToFlash_Task p).map (behind xs) := by
  rw [ReadSensorToFlash_Task, ReadSensorToFlash_Task, SensorToFlash, SensorToFlash,
    sensorBatch_behind]
  refine map_bind_map ?_
  rintro ⟨s, b⟩
  exact congrArg some (writeBatch_behind xs s _ b)

theorem ReadFlowToFlash_Task_behind (xs : List Store) (p : Pass) (s : Logger) :
    (s.behind xs).ReadFlowToFlash_Task p = (s.ReadFlowToFlash_Task p).map (behind xs) := by
  let r := readFlowData p.fpu (p.bus 0) s.fd s.sd.cfgF.id p.now s.sd.cfgF.adjust
  show (if r.1 = 0 then (behind xs { s with fd := r.2 }).flowToFlash p.outcome
    else some (behind xs { s with fd := r.2 })) =
      (if r.1 = 0 then flowToFlash p.outcome { s with fd := r.2 }
        else some { s with fd := r.2 }).map (behind xs)
  split
  · rw [flowToFlash, flowToFlash, flowBatch_behind]
    refine map_bind_map ?_
    rintro ⟨s, b⟩
    exact congrArg some (writeBatch_behind xs s _ b)
  · rfl

/-- A pass does not look at the stores made before. -/
theorem logTask_behind (xs : List Store) (p : Pass) (s : Logger) :
    (s.behind xs).logTask p = (s.logTask p).map (behind xs) := by
  rw [logTask, logTask, show (s.behind xs).sd = s.sd from rfl, ReadMeterToFlash_Task_behind,
    ReadSensorToFlash_Task_behind, ReadFlowToFlash_Task_behind]
  generalize s.sd.cfgG.type = type
  split <;> rfl

theorem readRecords_behind (xs : List Store) (s : Logger) (kind : Kind) (busy : Bool × Bool)
    (num : Nat) : (s.behind xs).readRecords kind busy num =
      (s.readRecords kind busy num).map fun r => (r.1, r.2.behind xs) :=
  bind_map fun _ => bind_map fun _ => rfl

theorem postBatch_behind (xs : List Store) (s : Logger) (kind : Kind) (num : Nat)
    (path playload : String) (httpCode : UInt16) :
    (s.behind xs).postBatch kind num path playload httpCode =
      (s.postBatch kind num path playload httpCode).behind xs := by
  rw [postBatch, postBatch]
  split
  · rfl
  · exact advance_behind xs { s with posts := s.posts ++ [_] } num

theorem flashToBatchPost_behind (xs : List Store) (fmt : Format) (kind : Kind) (l : Layout)
    (path : String) (net : Network) (num : Nat) (s : Logger) :
    (s.behind xs).flashToBatchPost fmt kind l path net num =
      (s.flashToBatchPost fmt kind l path net num).map (behind xs) := by
  rw [flashToBatchPost, readRecords_behind]
  refine map_bind_map ?_
  rintro ⟨ok, s⟩
  cases ok with
  | false => rfl
  | true => exact bind_map fun _ => congrArg some (postBatch_behind xs s kind num path _ _)

theorem flashSensorToBatchPost_behind (xs : List Store) (fmt : Format) (net : Network) (num : Nat)
    (s : Logger) : (s.behind xs).flashSensorToBatchPost fmt net num =
      (s.flashSensorToBatchPost fmt net num).map (behind xs) := by
  rw [flashSensorToBatchPost, readRecords_behind]
  refine map_bind_map ?_
  rintro ⟨ok, s⟩
  cases ok with
  | false => rfl
  | true => exact bind_map fun _ => congrArg some (postBatch_behind xs s .sensor num _ _ _)

theorem singlePosts_behind (xs : List Store) (fmt : Format) (net : Network) (num k i index : Nat)
    (s : Logger) : (s.behind xs).singlePosts fmt net num k i index =
      (s.singlePosts fmt net num k i index).map (behind xs) := by
  induction k generalizing i index s with
  | zero => exact congrArg some (advance_behind xs s num)
  | succ k ih =>
    rw [singlePosts, singlePosts]
    refine bind_map fun xid => bind_map fun mdt => bind_map fun st => ?_
    dsimp only
    split
    · rfl
    · exact ih _ _ { s with posts := s.posts ++ [_] }

theorem flashMeterToPost_behind (xs : List Store) (fmt : Format) (net : Network) (num : Nat)
    (s : Logger) : (s.behind xs).flashMeterToPost fmt net num =
      (s.flashMeterToPost fmt net num).map (behind xs) := by
  rw [flashMeterToPost, readRecords_behind]
  refine map_bind_map ?_
  rintro ⟨ok, s⟩
  cases ok with
  | false => rfl
  | true => exact singlePosts_behind xs fmt net num num 0 0 s

theorem readFlashToPost_behind (xs : List Store) {single batch : Nat → Logger → Option Logger}
    (hsingle : ∀ num s, single num (behind xs s) = (single num s).map (behind xs))
    (hbatch : ∀ num s, batch num (behind xs s) = (batch num s).map (behind xs)) (net : Network)
    (s : Logger) : readFlashToPost single batch net (s.behind xs) =
      (readFlashToPost single batch net s).map (behind xs) := by
  rw [readFlashToPost_eq, readFlashToPost_eq]
  show (if net.wifi ∧ s.rIndex < s.wIndex then
    (if s.sd.cfgG.batch = 0 then single else batch) s.numPost (s.behind xs)
      else some (s.behind xs)) = _
  split
  · split
    · exact hsingle _ s
    · exact hbatch _ s
  · rfl

theorem postTask_behind (xs : List Store) (fmt : Format) (net : Network) (s : Logger) :
    (s.behind xs).postTask fmt net = (s.postTask fmt net).map (behind xs) := by
  have hmeter : (s.behind xs).ReadFlashMeterToPost_Task fmt net =
      (s.ReadFlashMeterToPost_Task fmt net).map (behind xs) := by
    rw [ReadFlashMeterToPost_Task]
    apply readFlashToPost_behind
    · exact fun num s => flashMeterToPost_behind xs fmt net num s
    · exact fun num s => flashToBatchPost_behind xs fmt .meter meterLayout _ net num s
  have hsensor : (s.behind xs).ReadFlashSensorToPost_Task fmt net =
      (s.ReadFlashSensorToPost_Task fmt net).map (behind xs) := by
    rw [ReadFlashSensorToPost_Task]
    apply readFlashToPost_behind
    · exact fun _ _ => rfl
    · exact fun num s => flashSensorToBatchPost_behind xs fmt net num s
  have hflow : (s.behind xs).ReadFlashFlowToPost_Task fmt net =
      (s.ReadFlashFlowToPost_Task fmt net).map (behind xs) := by
    rw [ReadFlashFlowToPost_Task]
    apply readFlashToPost_behind
    · exact fun _ _ => rfl
    · exact fun num s => flashToBatchPost_behind xs fmt .flow flowLayout _ net num s
  rw [postTask, postTask, show (s.behind xs).sd = s.sd from rfl, hmeter, hsensor, hflow]
  generalize s.sd.cfgG.type = type
  split <;> rfl

theorem serverChkTask_behind (xs : List Store) (wifi : Bool) (httpCode : UInt16) (restart : UInt8)
    (s : Logger) : (s.behind xs).serverChkTask wifi httpCode restart =
      ((s.serverChkTask wifi httpCode restart).1,
        (s.serverChkTask wifi httpCode restart).2.behind xs) := by
  rw [serverChkTask, serverChkTask, resetIndex_behind]
  split
  · split
    · rfl
    · split
      · rfl
      · split <;> rfl
  · rfl

theorem next_start (fmt : Format) (l : Label) (s : Logger) :
    next fmt l s.start = next fmt l s := by
  cases l <;> rfl

/-- A run does not look at the stores made before it. -/
theorem run_same {fmt : Format} {ls : List Label} {s r s' : Logger} (h : s.start = r.start)
    (hrun : s.run fmt ls = some s') : ∃ r', r.run fmt ls = some r' ∧ r'.start = s'.start := by
  cases ls with
  | nil =>
    cases hrun
    exact ⟨r, rfl, h.symm⟩
  | cons l ls =>
    refine ⟨s', ?_, rfl⟩
    rw [run, List.foldlM_cons] at hrun ⊢
    rw [← next_start, ← h, next_start]
    exact hrun

theorem run_append_same {fmt : Format} {ls ls' : List Label} {s s₁ r r' : Logger}
    (h₁ : s.run fmt ls = some s₁) (hsame : r.start = s₁.start) (h₂ : r.run fmt ls' = some r') :
    ∃ s', s.run fmt (ls ++ ls') = some s' ∧ s'.start = r'.start := by
  rw [run_append h₁]
  exact run_same hsame h₂

theorem logTask_label {fmt : Format} {p : Pass} {s s' : Logger} (h : s.logTask p = some s') :
    ∃ s₁, next fmt (.log p) s = some s₁ ∧ s₁.start = s'.start := by
  rw [← s.start_behind, logTask_behind, Option.map_eq_some_iff] at h
  obtain ⟨s₁, h₁, rfl⟩ := h
  exact ⟨s₁, h₁, rfl⟩

theorem postTask_label {fmt : Format} {net : Network} {s s' : Logger}
    (h : s.postTask fmt net = some s') :
    ∃ s₁, next fmt (.post net) s = some s₁ ∧ s₁.start = s'.start := by
  rw [← s.start_behind, postTask_behind, Option.map_eq_some_iff] at h
  obtain ⟨s₁, h₁, rfl⟩ := h
  exact ⟨s₁, h₁, rfl⟩

theorem serverChkTask_label (fmt : Format) (wifi : Bool) (httpCode : UInt16) (restart : UInt8)
    (sd : SDConfig) (s : Logger) :
    ∃ s₁, next fmt (.server wifi httpCode restart sd) s = some s₁ ∧
      s₁.start = (if (s.serverChkTask wifi httpCode restart).1 then
        (s.serverChkTask wifi httpCode restart).2.setup sd
          else (s.serverChkTask wifi httpCode restart).2).start := by
  have h := serverChkTask_behind s.stores wifi httpCode restart s.start
  rw [start_behind] at h
  refine ⟨_, rfl, ?_⟩
  rw [h]
  dsimp only
  split <;> rfl

end Logger

/-! ### The labels of an iteration -/

namespace Clock

/-- What an iteration does to the device; `sd` is what `setup` finds after a restart. -/
def labels (g : ConfigGlobal) (t : Turn) (answered : Bool) (sd : SDConfig) (c : Clock) :
    List Logger.Label :=
  let c₁ := c.adjust t
  let c₂ := if c₁.ReadWindow g t then c₁.afterRead g t answered else c₁
  let r := c₂.checkServer g t
  (if c₁.ReadWindow g t then [.log t.pass] else []) ++
    ((if c₂.PostWindow g t then [.post t.net] else []) ++
      ((if SERVER_CHK_INT < t.serverMillis.1 - c₂.serverMillisChk ∧ g.log_use = 1 then
        [.server t.wifi t.httpCode t.restart sd] else []) ++
          if r.1 = false ∧ (r.2.checkRst t).1 = true then [.restart sd] else []))

end Clock

namespace Main

theorem readTask_log {t : Turn} {m m' : Main} (h : m.readTask t = some m') :
    m.logger.logTask t.pass = some m'.logger := by
  rw [← readTask_logger, h]
  rfl

theorem readStep_label (fmt : Format) {t : Turn} {m m' : Main} (h : m.readStep t = some m') :
    ∃ s, m.logger.run fmt (if m.clock.ReadWindow m.logger.sd.cfgG t then [.log t.pass] else []) =
      some s ∧ s.start = m'.logger.start := by
  rw [readStep] at h
  split at h
  · rename_i hw
    obtain ⟨s, hnext, hsame⟩ : ∃ s, Logger.next fmt (.log t.pass) m.logger = some s ∧ _ :=
      Logger.logTask_label (readTask_log h)
    rw [if_pos hw]
    exact ⟨s, Logger.run_cons hnext, hsame⟩
  · rename_i hw
    cases h
    rw [if_neg hw]
    exact ⟨_, rfl, rfl⟩

theorem postStep_label {fmt : Format} {t : Turn} {m m' : Main} {post : Bool}
    (h : m.postStep fmt t = some (post, m')) :
    ∃ s, m.logger.run fmt (if m.clock.PostWindow m.logger.sd.cfgG t then [.post t.net] else []) =
      some s ∧ s.start = m'.logger.start := by
  rw [postStep] at h
  split at h
  · rename_i hw
    obtain ⟨logger, hpost, h⟩ := Option.bind_eq_some_iff.mp h
    cases h
    obtain ⟨s, hnext, hsame⟩ := Logger.postTask_label hpost
    rw [if_pos hw]
    exact ⟨s, Logger.run_cons hnext, hsame⟩
  · rename_i hw
    cases h
    rw [if_neg hw]
    exact ⟨_, rfl, rfl⟩

/-- The device behind a check that may end in `ESP.restart`. -/
def after (sd : SDConfig) (r : Bool × Main) : Logger :=
  if r.1 then r.2.logger.setup sd else r.2.logger

theorem serverChk_label (fmt : Format) (t : Turn) (sd : SDConfig) (m : Main) :
    ∃ s, m.logger.run fmt (if SERVER_CHK_INT < t.serverMillis.1 - m.clock.serverMillisChk ∧
        m.logger.sd.cfgG.log_use = 1 then [.server t.wifi t.httpCode t.restart sd] else []) =
      some s ∧ s.start = (after sd (m.serverChk t)).start := by
  rw [serverChk]
  by_cases hdue : SERVER_CHK_INT < t.serverMillis.1 - m.clock.serverMillisChk
  · by_cases huse : m.logger.sd.cfgG.log_use = 1
    · obtain ⟨s, hnext, hsame⟩ :=
        Logger.serverChkTask_label fmt t.wifi t.httpCode t.restart sd m.logger
      rw [if_pos ⟨hdue, huse⟩, if_pos hdue, if_pos huse]
      exact ⟨s, Logger.run_cons hnext, hsame⟩
    · rw [if_neg fun h => huse h.2, if_pos hdue, if_neg huse]
      exact ⟨_, rfl, rfl⟩
  · rw [if_neg fun h => hdue h.1, if_neg hdue]
    exact ⟨_, rfl, rfl⟩

/-- **An iteration is the run of its labels.** -/
theorem loop_labels {fmt : Format} {t : Turn} {m m' : Main} {o : Seen}
    (h : m.loop fmt t = some (m', o)) (sd : SDConfig) :
    ∃ s, m.logger.run fmt
        (m.clock.labels m.logger.sd.cfgG t (m.logger.busAnswers t.pass) sd) = some s ∧
      s.start = (after sd (o.restart, m')).start := by
  obtain ⟨m₁, hread, h⟩ := Option.bind_eq_some_iff.mp h
  obtain ⟨⟨post, m₂⟩, hpost, h⟩ := Option.bind_eq_some_iff.mp h
  obtain ⟨hsd₁, hclock₁⟩ := readStep_spec hread
  obtain ⟨hsd₂, hclock₂, _⟩ := postStep_spec hpost
  obtain ⟨hsd₃, hclock₃⟩ := m₂.serverChk_spec t
  obtain ⟨hlogger, hclock₄⟩ := (m₂.serverChk t).2.rstChk_spec t
  obtain ⟨s₁, hrun₁, hsame₁⟩ := readStep_label fmt hread
  obtain ⟨s₂, hrun₂, hsame₂⟩ := postStep_label hpost
  obtain ⟨s₃, hrun₃, hsame₃⟩ := serverChk_label fmt t sd m₂
  dsimp only at hclock₁ hsd₁ hrun₁ h
  rw [hsd₂, hsd₁, hclock₂] at hclock₃ hrun₃
  rw [hsd₁] at hrun₂
  rw [Clock.labels, ← hclock₁, hclock₃, hclock₄]
  -- the routine restart, if it comes to that
  have hrst : ∃ s₄, (after sd (m₂.serverChk t)).run fmt
      (if (m₂.serverChk t).1 = false ∧ ((m₂.serverChk t).2.rstChk t).1 = true then [.restart sd]
        else []) = some s₄ ∧ s₄.start = (after sd (o.restart, m')).start := by
    cases hflag : (m₂.serverChk t).1 with
    | true =>
      rw [hflag] at h
      cases h
      refine ⟨_, rfl, ?_⟩
      show _ = (after sd (m₂.serverChk t)).start
      rfl
    | false =>
      rw [hflag] at h
      cases h
      have hafter : after sd (m₂.serverChk t) = (m₂.serverChk t).2.logger := by
        rw [after, hflag]
        rfl
      rw [hafter]
      cases hrst : ((m₂.serverChk t).2.rstChk t).1 with
      | true =>
        refine ⟨_, rfl, ?_⟩
        show _ = (after sd ((m₂.serverChk t).2.rstChk t)).start
        rw [after, hrst, hlogger]
        rfl
      | false =>
        refine ⟨_, rfl, ?_⟩
        show _ = (after sd ((m₂.serverChk t).2.rstChk t)).start
        rw [after, hrst, hlogger]
        rfl
  obtain ⟨s₄, hrun₄, hsame₄⟩ := hrst
  obtain ⟨r₃, hr₃, hs₃⟩ := Logger.run_append_same hrun₃ hsame₃.symm hrun₄
  obtain ⟨r₂, hr₂, hs₂⟩ := Logger.run_append_same hrun₂ hsame₂.symm hr₃
  obtain ⟨r₁, hr₁, hs₁⟩ := Logger.run_append_same hrun₁ hsame₁.symm hr₂
  exact ⟨r₁, hr₁, hs₁.trans (hs₂.trans (hs₃.trans hsame₄))⟩

end Main

/-! ### Lives -/

namespace Logger

/-- Every step of the run is allowed. -/
def Allowed (fmt : Format) (ok : Logger → Label → Logger → Prop) : List Label → Logger → Prop
  | [], _ => True
  | l :: ls, s => ∀ s', next fmt l s = some s' → ok s l s' ∧ Allowed fmt ok ls s'

/-- What is allowed does not depend on the stores made before. -/
def Storeless (ok : Logger → Label → Logger → Prop) : Prop :=
  ∀ s r l s' r', s.start = r.start → s'.start = r'.start → ok s l s' → ok r l r'

/-- A failure of the power where the labels `ls` are still to come: before the first one, or
inside it. -/
inductive Fails : List Label → Label → Prop
  | before (ls : List Label) (sd : SDConfig) : Fails ls (.restart sd)
  | log (p : Pass) (ls : List Label) (cut : Cut) (sd : SDConfig) :
      Fails (.log p :: ls) (.cutLog p cut sd)
  | post (net : Network) (ls : List Label) (k : Nat) (sd : SDConfig) :
      Fails (.post net :: ls) (.cutPost net k sd)
  | reset (ls : List Label) (sd : SDConfig) (k : Nat) (sd' : SDConfig) :
      Fails (.server true 200 2 sd :: ls) (.cutReset k sd')

theorem Reach.same {fmt : Format} {ok : Logger → Label → Logger → Prop} (hok : Storeless ok)
    {s₀ r s s' : Logger} {l : Label} (h : Reach fmt ok s₀ r) (hsame : r.start = s.start)
    (hnext : next fmt l s = some s') (hl : ok s l s') : Reach fmt ok s₀ s' := by
  rw [← next_start, ← hsame, next_start] at hnext
  exact h.step hnext (hok _ _ _ _ _ hsame.symm rfl hl)

theorem Reach.allowed {fmt : Format} {ok : Logger → Label → Logger → Prop} (hok : Storeless ok)
    {s₀ r s s' : Logger} {ls : List Label} (h : Reach fmt ok s₀ r) (hsame : r.start = s.start)
    (hall : Allowed fmt ok ls s) (hrun : s.run fmt ls = some s') :
    ∃ r', Reach fmt ok s₀ r' ∧ r'.start = s'.start := by
  induction ls generalizing r s with
  | nil =>
    cases hrun
    exact ⟨r, h, hsame⟩
  | cons l ls ih =>
    rw [Logger.run, List.foldlM_cons] at hrun
    obtain ⟨s₁, hnext, hrun⟩ := Option.bind_eq_some_iff.mp hrun
    obtain ⟨hl, hall⟩ := hall s₁ hnext
    exact ih (h.same hok hsame hnext hl) rfl hall hrun

end Logger

/-- The clock variables at a boot. -/
def Clock.boot : Clock := ⟨0, false, 0, 0⟩

namespace Main

/-- The labels of the iteration that `t` makes of `m`. -/
def labels (t : Turn) (sd : SDConfig) (m : Main) : List Logger.Label :=
  m.clock.labels m.logger.sd.cfgG t (m.logger.busAnswers t.pass) sd

/-- The life of a device, from `s₀`, which is what `setup` left at the first boot. -/
inductive Life (fmt : Format) (ok : Logger → Logger.Label → Logger → Prop) (s₀ : Logger) :
    Main → Prop
  | boot : Life fmt ok s₀ ⟨s₀, .boot⟩
  | loop {m m' : Main} {t : Turn} {post : Bool} (sd : SDConfig) :
      Life fmt ok s₀ m → m.loop fmt t = some (m', ⟨post, false⟩) →
      Logger.Allowed fmt ok (m.labels t sd) m.logger → Life fmt ok s₀ m'
  | restart {m m' : Main} {t : Turn} {post : Bool} (sd : SDConfig) :
      Life fmt ok s₀ m → m.loop fmt t = some (m', ⟨post, true⟩) →
      Logger.Allowed fmt ok (m.labels t sd) m.logger →
      Life fmt ok s₀ ⟨m'.logger.setup sd, .boot⟩
  | power {m : Main} {t : Turn} {sd : SDConfig} {ls₁ ls₂ : List Logger.Label} {l : Logger.Label}
      {s s' : Logger} :
      Life fmt ok s₀ m → m.labels t sd = ls₁ ++ ls₂ → m.logger.run fmt ls₁ = some s →
      Logger.Allowed fmt ok ls₁ m.logger → Logger.Fails ls₂ l → Logger.next fmt l s = some s' →
      ok s l s' → Life fmt ok s₀ ⟨s', .boot⟩

/-- **A life is a run of the device**, with the iterations of `loop` taken apart. -/
theorem Life.device_run {fmt : Format} {ok : Logger → Logger.Label → Logger → Prop}
    (hok : Logger.Storeless ok) {s₀ : Logger} {m : Main} (h : Life fmt ok s₀ m) :
    ∃ s, Logger.Reach fmt ok s₀ s ∧ s.start = m.logger.start := by
  induction h with
  | boot => exact ⟨s₀, .refl, rfl⟩
  | loop sd _ hloop hall ih =>
    obtain ⟨r, hr, hsame⟩ := ih
    obtain ⟨s, hrun, hs⟩ := loop_labels hloop sd
    obtain ⟨r', hr', hsame'⟩ := hr.allowed hok hsame hall hrun
    exact ⟨r', hr', hsame'.trans hs⟩
  | restart sd _ hloop hall ih =>
    obtain ⟨r, hr, hsame⟩ := ih
    obtain ⟨s, hrun, hs⟩ := loop_labels hloop sd
    obtain ⟨r', hr', hsame'⟩ := hr.allowed hok hsame hall hrun
    exact ⟨r', hr', hsame'.trans hs⟩
  | power _ _ hrun hall _ hnext hl ih =>
    obtain ⟨r, hr, hsame⟩ := ih
    obtain ⟨r₁, hr₁, hsame₁⟩ := hr.allowed hok hsame hall hrun
    exact ⟨_, hr₁.same hok hsame₁ hnext hl, rfl⟩

/-- A new device with two meters. -/
def newMain : Main := ⟨Logger.twoMeters, .boot⟩

theorem safe_start (s : Logger) (l : Logger.Label) : s.start.Safe l ↔ s.Safe l := by
  cases l with
  | cutLog p cut sd => cases cut <;> exact Iff.rfl
  | _ => exact Iff.rfl

theorem safe_storeless : Logger.Storeless fun s l _ => s.Safe l := by
  intro s r l s' r' hsame _ hsafe
  rw [← safe_start, ← hsame, safe_start]
  exact hsafe

/-- The labels of an iteration are a pass, if its window is open, and labels that are safe
anywhere. -/
theorem labels_cons (t : Turn) (sd : SDConfig) (m : Main) :
    ∃ ls, m.labels t sd = (if (m.clock.adjust t).ReadWindow m.logger.sd.cfgG t then [.log t.pass]
        else []) ++ ls ∧ ∀ l ∈ ls, ∀ s : Logger, s.Safe l := by
  have hmem : ∀ {P : Prop} [Decidable P] {a l : Logger.Label},
      l ∈ (if P then [a] else []) → l = a := by
    intro P _ a l hl
    split at hl
    · exact List.mem_singleton.mp hl
    · cases hl
  refine ⟨_, rfl, fun l hl s => ?_⟩
  rcases List.mem_append.mp hl with hl | hl
  · obtain rfl := hmem hl
    trivial
  · rcases List.mem_append.mp hl with hl | hl
    · obtain rfl := hmem hl
      trivial
    · obtain rfl := hmem hl
      trivial

theorem labels_safe {fmt : Format} {m : Main} (h : m.logger.wIndex + m.logger.passSize < 4294967296)
    (t : Turn) (sd : SDConfig) :
    Logger.Allowed fmt (fun s l _ => s.Safe l) (m.labels t sd) m.logger := by
  have hrest : ∀ ls : List Logger.Label, (∀ l ∈ ls, ∀ s : Logger, s.Safe l) →
      ∀ s, Logger.Allowed fmt (fun s l _ => s.Safe l) ls s := by
    intro ls
    induction ls with
    | nil => exact fun _ _ => trivial
    | cons l ls ih =>
      exact fun hall s s' _ => ⟨hall l List.mem_cons_self s,
        ih (fun l hl => hall l (List.mem_cons_of_mem _ hl)) s'⟩
  obtain ⟨ls, hls, hsafe⟩ := labels_cons t sd m
  rw [hls]
  split
  · exact fun s' _ => ⟨h, hrest ls hsafe s'⟩
  · exact hrest ls hsafe m.logger

/-- An iteration with the network down. -/
def offline : Turn :=
  { minute fun _ => .zeros with net := ⟨false, (false, false), fun _ => 0⟩ }

/-- The iteration in which the routine restart comes. -/
def lastTurn : Turn := { atTime 115 offline with rstMillis := (RST_CHK_INT + 1, 0) }

/-- The life of a device that logs two records, restarts before they are posted, and loses
power in the middle of its next pass. -/
theorem Life.device_run_failing : ∃ m,
    Life .zero (fun s l _ => s.Safe l) Logger.twoMeters m ∧
      m.logger.wIndex = 2 ∧ m.logger.rIndex = 0 ∧
      ∃ s, Logger.Reach .zero (fun s l _ => s.Safe l) Logger.twoMeters s ∧
        s.start = m.logger.start := by
  let sd := SDConfig.plain 1 2 3
  have hrun : ((newMain.loop .zero offline).bind fun x => (x.1.loop .zero lastTurn).bind fun y =>
      (Logger.next .zero (.cutLog offline.pass (.storing 0) sd) (y.1.logger.setup sd)).map fun s =>
        ((x.2, x.1.logger.wIndex + x.1.logger.passSize),
          (y.2, (y.1.logger.setup sd).wIndex + (y.1.logger.setup sd).passSize),
          s.wIndex, s.rIndex)) = some ((⟨true, false⟩, 4), (⟨false, true⟩, 4), 2, 0) := by
    decide +kernel
  obtain ⟨⟨m₁, o₁⟩, h₁, hrun⟩ := Option.bind_eq_some_iff.mp hrun
  obtain ⟨⟨m₂, o₂⟩, h₂, hrun⟩ := Option.bind_eq_some_iff.mp hrun
  obtain ⟨s, h₃, heq⟩ := Option.map_eq_some_iff.mp hrun
  simp only [Prod.mk.injEq] at heq
  obtain ⟨⟨rfl, hw₁⟩, ⟨rfl, hw₂⟩, hw, hr⟩ := heq
  have hfirst : Life .zero (fun s l _ => s.Safe l) Logger.twoMeters m₁ :=
    .loop sd .boot h₁ (labels_safe (by decide) offline sd)
  have hsecond := Life.restart sd hfirst h₂ (labels_safe (by rw [hw₁]; decide) lastTurn sd)
  -- the clock of a boot opens the reading window
  have hwindow : (Clock.boot.adjust offline).ReadWindow sd.cfgG offline := by decide
  obtain ⟨ls, hls, _⟩ := labels_cons offline sd ⟨m₂.logger.setup sd, .boot⟩
  rw [if_pos (by rw [Logger.setup_sd]; exact hwindow)] at hls
  have hcut : (m₂.logger.setup sd).Safe (.cutLog offline.pass (.storing 0) sd) :=
    ⟨by rw [hw₂]; decide, fun h => absurd h (by decide)⟩
  have h := hsecond.power (show _ = [] ++ _ from hls) rfl trivial
    (.log offline.pass ls (.storing 0) sd) h₃ hcut
  exact ⟨_, h, hw, hr, h.device_run safe_storeless⟩

end Main

/-! ### Delivery by the loop -/

namespace Logger

theorem Delivers.same {fmt : Format} {sd : SDConfig} {s r : Logger} (h : Delivers fmt sd s)
    (hsame : s.start = r.start) : Delivers fmt sd r := by
  rw [← r.start_behind, ← hsame]
  obtain ⟨hsd, hkept, q, hq⟩ := h
  exact ⟨hsd, ⟨⟨hkept.backed.nv, hkept.backed.spans, hkept.backed.lt⟩, hkept.mounted, hkept.room,
    hkept.log⟩, q, hq.commits, hq.sorted, hq.sent, hq.queued, hq.answered, hq.fits⟩

theorem logTask_room {p : Pass} {s s' : Logger} (h : s.logTask p = some s')
    (hroom : s.wIndex + 105 ≤ s.rIndex + s.flash.maxRecord) (hw : s.wIndex + 255 < 4294967296) :
    s.wIndex ≤ s'.wIndex ∧ s'.wIndex + 84 ≤ s'.rIndex + s'.flash.maxRecord := by
  obtain ⟨s₁, ⟨md, fd, wBuff, rfl⟩, rfl | ⟨b, hb, rfl⟩⟩ := logTask_cases h
  · exact ⟨Nat.le_refl _, Nat.le_trans (Nat.add_le_add_left (by decide) _) hroom⟩
  · have hnum : b.num ≤ 21 := hb.toSound.le
    have hmax : (writeBatch { s with md, fd, wBuff } p.outcome b).flash.maxRecord =
        s.flash.maxRecord := by
      rw [writeBatch_flash]
      exact SPIFlashMeter.writeRecords_maxRecord ..
    rw [hmax]
    rcases writeBatch_cases { s with md, fd, wBuff } p.outcome b with
      ⟨_, heq⟩ | ⟨_, _, heq⟩ | ⟨_, hesc, heq⟩
    · rw [heq]
      show s.wIndex ≤ (s.wIndex + b.num) % 4294967296 ∧
        (s.wIndex + b.num) % 4294967296 + 84 ≤ s.rIndex + s.flash.maxRecord
      omega
    · rw [heq]
      show s.wIndex ≤ s.wIndex ∧ s.wIndex + 84 ≤ s.rIndex + s.flash.maxRecord
      omega
    · -- both indices go on, and there is no backlog
      obtain ⟨_, hnone⟩ := hesc
      rw [heq]
      show s.wIndex ≤ (s.wIndex / 64 + 1) * 64 % 4294967296 ∧
        (s.wIndex / 64 + 1) * 64 % 4294967296 + 84 ≤
          (s.wIndex / 64 + 1) * 64 % 4294967296 + s.flash.maxRecord
      replace hnone : s.wIndex = s.rIndex := hnone
      omega

end Logger

namespace Main

/-- The backlog leaves the ring room for a pass and the next one. -/
structure Roomy (s : Logger) : Prop where
  backlog : s.wIndex + 105 ≤ s.rIndex + s.flash.maxRecord
  lt : s.wIndex + 255 < 4294967296

theorem serverChk_stays {t : Turn} {m : Main} (h : (m.serverChk t).1 = false) :
    (m.serverChk t).2.logger = m.logger := by
  by_cases hdue : SERVER_CHK_INT < t.serverMillis.1 - m.clock.serverMillisChk
  · by_cases huse : m.logger.sd.cfgG.log_use = 1
    · rw [serverChk, if_pos hdue] at h ⊢
      dsimp only at h ⊢
      rw [if_pos huse] at h ⊢
      exact Logger.serverChkTask_stays h
    · rw [serverChk, if_pos hdue]
      dsimp only
      rw [if_neg huse]
  · rw [serverChk, if_neg hdue]

/-- **An iteration delivers** what its post sends, once and in order. -/
theorem loop_delivers {fmt : Format} {sd : SDConfig} {t : Turn} {m m' : Main} {o : Seen}
    (hloop : m.loop fmt t = some (m', o)) (ho : o.restart = false)
    (h : Logger.Delivers fmt sd m.logger) (hmode : m.logger.BatchMode) (hroom : Roomy m.logger) :
    Logger.Delivers fmt sd m'.logger := by
  obtain ⟨m₁, hread, hloop⟩ := Option.bind_eq_some_iff.mp hloop
  obtain ⟨⟨post', m₂⟩, hpost, hloop⟩ := Option.bind_eq_some_iff.mp hloop
  have h₁ : Logger.Delivers fmt sd m₁.logger ∧
      m₁.logger.wIndex + 84 ≤ m₁.logger.rIndex + m₁.logger.flash.maxRecord := by
    rw [readStep] at hread
    split at hread
    · have hlog := readTask_log hread
      obtain ⟨s, hnext, hsame⟩ : ∃ s, Logger.next fmt (.log t.pass) m.logger = some s ∧ _ :=
        Logger.logTask_label hlog
      obtain ⟨hge, hafter⟩ := Logger.logTask_room hlog hroom.backlog hroom.lt
      have hwIndex : s.start.wIndex = m₁.logger.wIndex := by rw [hsame]; rfl
      have hsize := m.logger.passSize_le
      have hlt := hroom.lt
      have hback := hroom.backlog
      refine ⟨Logger.Delivers.same (h.next hmode hnext ⟨by omega, by omega, ?_⟩) hsame, hafter⟩
      exact Nat.le_trans hge (Nat.le_of_eq hwIndex.symm)
    · cases hread
      exact ⟨h, Nat.le_trans (Nat.add_le_add_left (by decide) _) hroom.backlog⟩
  have h₂ : Logger.Delivers fmt sd m₂.logger := by
    rw [postStep] at hpost
    split at hpost
    · obtain ⟨logger, htask, hpost⟩ := Option.bind_eq_some_iff.mp hpost
      cases hpost
      obtain ⟨s, hnext, hsame⟩ := Logger.postTask_label htask
      refine Logger.Delivers.same (h₁.1.next ?_ hnext ⟨h₁.2, trivial⟩) hsame
      exact hmode.of_sd (readStep_spec hread).1
    · cases hpost
      exact h₁.1
  -- no restart, and so the checks leave the device alone
  dsimp only at hloop
  cases hflag : (m₂.serverChk t).1 with
  | true =>
    rw [hflag] at hloop
    cases hloop
    exact absurd (hflag.symm.trans ho) (by decide)
  | false =>
    rw [hflag] at hloop
    cases hloop
    show Logger.Delivers fmt sd ((m₂.serverChk t).2.rstChk t).2.logger
    rw [((m₂.serverChk t).2.rstChk_spec t).1, serverChk_stays hflag]
    exact h₂

/-- **The loop delivers exactly once and in order**, whatever the bus, the chip, the network,
the clock and the server do. -/
theorem loop_delivered {fmt : Format} {ts : List Turn} {m : Main}
    {vs : List (Visit Main Turn Seen)} (hvs : (machine fmt).run ts m = some vs)
    (h₀ : m.logger.Fresh) (hmode : m.logger.BatchMode)
    (hroom : ∀ v ∈ vs, Roomy v.state.logger) :
    ∀ v ∈ vs, ∃ groups : List (List Record),
      v.state.logger.answered.map (·.playload) =
          groups.map (payloadText fmt (Logger.layoutOf m.logger.sd.cfgG.type)) ∧
        groups.flatten =
          (v.state.logger.commits.filter (·.1 < v.state.logger.rIndex)).map (·.2) := by
  have hall := Machine.run_invariant (m := machine fmt)
    (I := fun n => Logger.Delivers fmt m.logger.sd n.logger) (G := fun v => Roomy v.state.logger)
    ?_ (h₀.delivers fmt) hvs hroom
  · intro v hv
    obtain ⟨q, hq⟩ := (hall v hv).spools
    exact hq.delivered
  · intro n n' t o h hroom hloop ho
    exact loop_delivers hloop ho h (hmode.of_sd h.sd_eq) hroom

/-- **With the network clear the server has everything**: at the beginning of every iteration
it has acknowledged all that was ever committed, once and in order. -/
theorem loop_delivered_all {fmt : Format} {ts : List Turn} {m : Main}
    {vs : List (Visit Main Turn Seen)} (hvs : (machine fmt).run ts m = some vs)
    (h₀ : m.logger.Fresh) (hmode : m.logger.BatchMode)
    (hint : POSTSAVETIME < m.logger.sd.cfgG.interval.toNat)
    (hbatch : m.logger.passSize ≤ m.logger.sd.cfgG.batch.toNat)
    (hclear : ∀ t ∈ ts, t.net.Clear)
    (hroom : ∀ v ∈ vs, Roomy v.state.logger) :
    ∀ v ∈ vs, ∃ groups : List (List Record),
      v.state.logger.answered.map (·.playload) =
          groups.map (payloadText fmt (Logger.layoutOf m.logger.sd.cfgG.type)) ∧
        groups.flatten = v.state.logger.commits.map (·.2) := by
  have hpost : Logger.CanPost m.logger.sd.cfgG := hmode.canPost
  have hlimit : Logger.postLimit m.logger.sd.cfgG = m.logger.sd.cfgG.batch.toNat :=
    if_neg hmode.pos
  have hall := Machine.run_invariant (m := machine fmt)
    (I := fun n => Logger.Delivers fmt m.logger.sd n.logger ∧
      n.logger.rIndex = n.logger.wIndex)
    (G := fun v => Roomy v.state.logger ∧ v.input.net.Clear)
    ?_ ⟨h₀.delivers fmt, by rw [h₀.rIndex, h₀.wIndex]⟩ hvs
    fun v hv => ⟨hroom v hv, hclear _ (Machine.run_inputs hvs v hv)⟩
  · intro v hv
    obtain ⟨hdel, hposted⟩ := hall v hv
    obtain ⟨q, hq⟩ := hdel.spools
    obtain ⟨groups, hpay, hflat⟩ := hq.delivered
    refine ⟨groups, hpay, ?_⟩
    rw [hflat, List.filter_eq_self.mpr]
    intro e he
    have hlt := hq.commits_lt hdel.kept.backed.spans.1 e he
    rw [← hposted] at hlt
    exact decide_eq_true hlt
  · rintro n n' t o ⟨h, hposted⟩ ⟨hroom, hnet⟩ hloop ho
    refine ⟨loop_delivers hloop ho h (hmode.of_sd h.sd_eq) hroom, loop_posted hloop ?_ ?_ ?_ hnet
      hposted ?_⟩
    · rw [h.sd_eq]
      exact hpost
    · rw [h.sd_eq]
      exact hint
    · rw [h.sd_eq, hlimit, Logger.passSize, h.sd_eq]
      exact hbatch
    · have hsize := n.logger.passSize_le
      have hlt : n.logger.wIndex + 255 < 4294967296 := hroom.lt
      omega

theorem newMain_run : ∃ vs,
    (machine .zero).run [minute fun _ => .zeros, minute fun _ => .zeros] newMain = some vs ∧
      vs.map (·.state.logger.commits.length) = [0, 2] ∧ ∀ v ∈ vs, Roomy v.state.logger := by
  have hrun : ((machine .zero).run [minute fun _ => .zeros, minute fun _ => .zeros] newMain).map
      (fun vs => vs.map fun v => (v.state.logger.wIndex, v.state.logger.rIndex,
        v.state.logger.flash.maxRecord, v.state.logger.commits.length)) =
        some [(0, 0, 896, 0), (2, 2, 896, 2)] := by
    decide +kernel
  obtain ⟨vs, hvs, heq⟩ := Option.map_eq_some_iff.mp hrun
  refine ⟨vs, hvs, ?_, fun v hv => ?_⟩
  · have := congrArg (List.map (·.2.2.2)) heq
    rw [List.map_map] at this
    exact this
  · have hmem := List.mem_map_of_mem (f := fun v : Visit Main Turn Seen => (v.state.logger.wIndex,
      v.state.logger.rIndex, v.state.logger.flash.maxRecord, v.state.logger.commits.length)) hv
    rw [heq] at hmem
    have hall : ∀ x ∈ [(0, 0, 896, 0), (2, 2, 896, 2)],
        x.1 + 105 ≤ x.2.1 + x.2.2.1 ∧ x.1 + 255 < 4294967296 := by decide
    exact ⟨(hall _ hmem).1, (hall _ hmem).2⟩

theorem newMain_sd : newMain.logger.sd = .plain 1 2 3 := rfl

theorem newMain_batchMode : newMain.logger.BatchMode :=
  ⟨Or.inl (by rw [newMain_sd]; rfl), by rw [newMain_sd]; decide⟩

theorem loop_delivered_two : ∃ vs,
    (machine .zero).run [minute fun _ => .zeros, minute fun _ => .zeros] newMain = some vs ∧
      vs.map (·.state.logger.commits.length) = [0, 2] ∧
      ∀ v ∈ vs, ∃ groups : List (List Record),
        v.state.logger.answered.map (·.playload) = groups.map (payloadText .zero meterLayout) ∧
          groups.flatten =
            (v.state.logger.commits.filter (·.1 < v.state.logger.rIndex)).map (·.2) := by
  obtain ⟨vs, hvs, hlen, hroom⟩ := newMain_run
  have h := loop_delivered hvs Logger.twoMeters_fresh newMain_batchMode hroom
  rw [newMain_sd] at h
  exact ⟨vs, hvs, hlen, h⟩

theorem loop_delivered_all_two : ∃ vs,
    (machine .zero).run [minute fun _ => .zeros, minute fun _ => .zeros] newMain = some vs ∧
      vs.map (·.state.logger.commits.length) = [0, 2] ∧
      ∀ v ∈ vs, ∃ groups : List (List Record),
        v.state.logger.answered.map (·.playload) = groups.map (payloadText .zero meterLayout) ∧
          groups.flatten = v.state.logger.commits.map (·.2) := by
  obtain ⟨vs, hvs, hlen, hroom⟩ := newMain_run
  have hclear : ∀ t ∈ [minute fun _ => .zeros, minute fun _ => .zeros], t.net.Clear := by
    intro t ht
    obtain rfl : t = minute fun _ => .zeros := by simpa using ht
    exact ⟨rfl, rfl, fun _ => rfl⟩
  have h := loop_delivered_all hvs Logger.twoMeters_fresh newMain_batchMode (by decide) (by decide)
    hclear hroom
  rw [newMain_sd] at h
  exact ⟨vs, hvs, hlen, h⟩

end Main

end EnresLogger
