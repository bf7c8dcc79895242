import EnresLogger.Drain
import EnresLogger.Windows

/-!
# What the loop keeps up

Two properties of the runs of `loop`, whatever it meets.

`cadence`: with a clock that is set and does not go back, two records are never taken
less than `interval` seconds apart, and when no reading fails the next one is taken
before `interval` and the longest iteration have passed.  The invariant is on the clock
variables alone: `lastTime` is the time of the last record, and at the end of an
iteration it is less than `interval` old (`Clock.tick_lastTime`).

`keeps_up`: with the network clear, and batches that go into one post, every iteration
ends with nothing to post.  An iteration that logs has its posting window open, since
`lastTime` is then the time it is; so what it logs it also posts.
-/

namespace EnresLogger

open Lib

/-! ### One iteration -/

namespace Clock

theorem adjust_eq {t : Turn} {c : Clock} (hadj : c.tAdj = true) (hle : c.lastTime ≤ t.now) :
    c.adjust t = c := by
  have hnot : ¬ (t.update = true ∧ c.tAdj = false) := by
    rw [hadj]
    exact fun h => Bool.noConfusion h.2
  rw [adjust, if_neg hnot]
  exact if_neg (Int32.not_lt.mpr hle)

theorem tick_lastTime (g : ConfigGlobal) (t : Turn) (answered : Bool) (c : Clock) :
    (c.tick g t answered).1.lastTime =
        (if (c.adjust t).ReadWindow g t then (c.adjust t).afterRead g t answered
          else c.adjust t).lastTime ∧
      (c.tick g t answered).1.tAdj = (c.adjust t).tAdj := by
  have hread : (if (c.adjust t).ReadWindow g t then (c.adjust t).afterRead g t answered
      else c.adjust t).tAdj = (c.adjust t).tAdj := by
    split
    · rw [afterRead]
      split <;> rfl
    · rfl
  rw [tick]
  dsimp only
  generalize (if (c.adjust t).ReadWindow g t then _ else c.adjust t) = d at hread ⊢
  rw [← hread]
  have hserver : (d.checkServer g t).2.lastTime = d.lastTime ∧
      (d.checkServer g t).2.tAdj = d.tAdj := by
    rw [checkServer]
    split <;> exact ⟨rfl, rfl⟩
  split
  · exact hserver
  · rw [checkRst]
    split <;> exact hserver

end Clock

namespace Main

/-- The iteration reads, and the reading task comes to its end. -/
def Logs (t : Turn) (m : Main) : Prop :=
  (m.clock.adjust t).ReadWindow m.logger.sd.cfgG t ∧ m.logger.busAnswers t.pass = true ∧
    (Logger.kindOf m.logger.sd.cfgG.type).isSome = true

instance (t : Turn) (m : Main) : Decidable (m.Logs t) := inferInstanceAs (Decidable (_ ∧ _ ∧ _))

/-- The times at which a run takes records. -/
def logTimes (vs : List (Visit Main Turn Seen)) : List Int :=
  (vs.filter fun v => v.state.Logs v.input).map fun v => v.input.now.toInt

/-- **An iteration with the clock set and running on.** -/
theorem loop_lastTime {fmt : Format} {t : Turn} {m m' : Main} {o : Seen}
    (h : m.loop fmt t = some (m', o)) (hadj : m.clock.tAdj = true)
    (hpos : 0 ≤ m.clock.lastTime.toInt) (hle : m.clock.lastTime.toInt ≤ t.now.toInt) :
    m'.clock.tAdj = true ∧ m'.logger.sd = m.logger.sd ∧
      (m.Logs t → m'.clock.lastTime = t.now ∧
        m.clock.lastTime.toInt + m.logger.sd.cfgG.interval.toNat ≤ t.now.toInt) ∧
      (¬ m.Logs t → m'.clock.lastTime = m.clock.lastTime ∧
        ((Logger.kindOf m.logger.sd.cfgG.type).isSome = true → ¬ m.ReadFails t →
          t.now.toInt < m.clock.lastTime.toInt + m.logger.sd.cfgG.interval.toNat)) := by
  obtain ⟨htick, hsd⟩ := loop_tick h
  obtain ⟨hlast, htadj⟩ := Clock.tick_lastTime m.logger.sd.cfgG t (m.logger.busAnswers t.pass)
    m.clock
  have hadjust := Clock.adjust_eq hadj (Int32.le_iff_toInt_le.mpr hle)
  rw [htick] at hlast htadj
  have hwindow : (m.clock.adjust t).ReadWindow m.logger.sd.cfgG t ↔
      m.clock.lastTime.toInt + m.logger.sd.cfgG.interval.toNat ≤ t.now.toInt := by
    rw [hadjust, Clock.ReadWindow, Int32.toInt_sub_of_le _ _ (Int32.le_iff_toInt_le.mpr hpos)
      (Int32.le_iff_toInt_le.mpr hle)]
    omega
  refine ⟨by rw [htadj, hadjust, hadj], hsd, ?_, ?_⟩
  · rintro ⟨hw, hans, hkind⟩
    refine ⟨?_, hwindow.mp hw⟩
    rw [hlast, if_pos hw, Clock.afterRead, if_pos ⟨hans, hkind⟩]
  · intro hnot
    constructor
    · rw [hlast, hadjust]
      split
      · rename_i hw
        rw [Clock.afterRead, if_neg]
        rintro ⟨hans, hkind⟩
        exact hnot ⟨by rw [hadjust]; exact hw, hans, hkind⟩
      · rfl
    · intro hkind hfails
      by_contra hlate
      have hw := hwindow.mpr (Int.not_lt.mp hlate)
      cases hans : m.logger.busAnswers t.pass with
      | true => exact hnot ⟨hw, hans, hkind⟩
      | false => exact hfails ⟨hw, hans⟩

/-! ### The times of the records -/

theorem logTimes_cons (v : Visit Main Turn Seen) (vs : List (Visit Main Turn Seen)) :
    logTimes (v :: vs) = if v.state.Logs v.input then v.input.now.toInt :: logTimes vs
      else logTimes vs := by
  rw [logTimes, List.filter_cons]
  split
  · rename_i h
    rw [if_pos (of_decide_eq_true h)]
    rfl
  · rename_i h
    rw [if_neg fun hlogs => h (decide_eq_true hlogs)]
    rfl

/-- The run lemma: `prev` is the time of the iteration before, and `A` is what is known of
the readings. -/
theorem logTimes_chain {fmt : Format} {g : ConfigGlobal} {δ : Int} {A : Prop}
    (hkind : (Logger.kindOf g.type).isSome = true) (hint : 0 < g.interval.toNat)
    (ts : List Turn) :
    ∀ {prev : Int} {m : Main} {vs : List (Visit Main Turn Seen)}, m.logger.sd.cfgG = g →
      m.clock.tAdj = true → 0 ≤ m.clock.lastTime.toInt → m.clock.lastTime.toInt ≤ prev →
      (A → prev < m.clock.lastTime.toInt + g.interval.toNat) →
      (prev :: ts.map fun t => t.now.toInt).IsChain (fun a b => a ≤ b ∧ b ≤ a + δ) →
      (machine fmt).run ts m = some vs → (A → ∀ v ∈ vs, ¬ v.state.ReadFails v.input) →
      (m.clock.lastTime.toInt :: logTimes vs).IsChain
        (fun a b : Int => a + g.interval.toNat ≤ b ∧ (A → b < a + g.interval.toNat + δ)) := by
  induction ts with
  | nil =>
    intro prev m vs _ _ _ _ _ _ hvs _
    cases hvs
    exact .singleton _
  | cons t ts ih =>
    intro prev m vs hg hadj hpos hle hfresh hclock hvs hreads
    obtain ⟨m', o, vs', hloop, rfl, hstop, hgo⟩ := Machine.run_cons hvs
    obtain ⟨⟨hmono, hgap⟩, hclock⟩ := List.isChain_cons_cons.mp hclock
    dsimp only at hmono hgap
    have hle' := Int.le_trans hle hmono
    obtain ⟨hadj', hsd, hlogs, hidle⟩ := loop_lastTime hloop hadj hpos hle'
    have hreads' : A → ∀ v ∈ vs', ¬ v.state.ReadFails v.input :=
      fun hA v hv => hreads hA v (List.mem_cons_of_mem _ hv)
    have hg' : m'.logger.sd.cfgG = g := by rw [hsd, hg]
    rw [hg] at hlogs hidle
    -- the rest of the run, if the iteration does not restart the device
    have hrest : ∀ last : Int, m'.clock.lastTime.toInt = last → 0 ≤ last →
        last ≤ t.now.toInt → (A → t.now.toInt < last + g.interval.toNat) →
        (last :: logTimes vs').IsChain
          (fun a b : Int => a + g.interval.toNat ≤ b ∧ (A → b < a + g.interval.toNat + δ)) := by
      intro last hlast hpos' hle' hfresh'
      subst hlast
      cases ho : (machine fmt).stops o with
      | true =>
        rw [hstop ho]
        exact .singleton _
      | false => exact ih hg' hadj' hpos' hle' hfresh' hclock (hgo ho) hreads'
    rw [logTimes_cons]
    dsimp only
    by_cases hl : m.Logs t
    · obtain ⟨hlast, hdue⟩ := hlogs hl
      rw [if_pos hl]
      refine .cons_cons ⟨hdue, fun hA => ?_⟩ (hrest _ (by rw [hlast]) ?_ (Int.le_refl _) ?_)
      · have := hfresh hA
        omega
      · omega
      · intro hA
        omega
    · obtain ⟨hlast, hlate⟩ := hidle hl
      rw [if_neg hl]
      refine hrest _ (by rw [hlast]) hpos hle' fun hA => ?_
      have hfails : ¬ m.ReadFails t := hreads hA ⟨m, t, o⟩ List.mem_cons_self
      exact hlate hkind hfails

/-- **The times of the records**: in any run of the loop with a clock that is set, does not
go back, and goes on by at most `δ` from one iteration to the next, two records are at
least `interval` seconds apart, and less than `interval + δ` if no reading fails and the
run begins less than `interval` after the last record. -/
theorem cadence {fmt : Format} {m : Main} {prev δ : Int} {ts : List Turn}
    {vs : List (Visit Main Turn Seen)} (hvs : (machine fmt).run ts m = some vs)
    (hkind : (Logger.kindOf m.logger.sd.cfgG.type).isSome = true)
    (hint : 0 < m.logger.sd.cfgG.interval.toNat) (hadj : m.clock.tAdj = true)
    (hpos : 0 ≤ m.clock.lastTime.toInt) (hle : m.clock.lastTime.toInt ≤ prev)
    (hclock : (prev :: ts.map fun t => t.now.toInt).IsChain (fun a b => a ≤ b ∧ b ≤ a + δ)) :
    (m.clock.lastTime.toInt :: logTimes vs).IsChain
        (fun a b : Int => a + m.logger.sd.cfgG.interval.toNat ≤ b) ∧
      (prev < m.clock.lastTime.toInt + m.logger.sd.cfgG.interval.toNat →
        (∀ v ∈ vs, ¬ v.state.ReadFails v.input) →
          (m.clock.lastTime.toInt :: logTimes vs).IsChain
            (fun a b : Int => b < a + m.logger.sd.cfgG.interval.toNat + δ)) := by
  have h := logTimes_chain
    (A := prev < m.clock.lastTime.toInt + m.logger.sd.cfgG.interval.toNat ∧
      ∀ v ∈ vs, ¬ v.state.ReadFails v.input)
    hkind hint ts rfl hadj hpos hle And.left hclock hvs And.right
  exact ⟨h.imp fun _ _ hab => hab.1, fun hfresh hreads => h.imp fun _ _ hab =>
    hab.2 ⟨hfresh, hreads⟩⟩

/-- A device with sensors, after a boot. -/
def sensing : Main := ⟨Logger.booted, ⟨0, true, 0, 0⟩⟩

/-- The second one comes too early. -/
def secondEarly : List Turn :=
  [minute fun _ => .zeros, atTime 115 (minute fun _ => .zeros), atTime 125 (minute fun _ => .zeros)]

/-- Records 61 and 125 seconds after the last one, and an iteration between them. -/
theorem cadence_two : ∃ vs, (machine .zero).run secondEarly sensing = some vs ∧
    logTimes vs = [61, 125] ∧
    (0 :: logTimes vs).IsChain (fun a b : Int => a + 60 ≤ b) ∧
      (0 :: logTimes vs).IsChain (fun a b : Int => b < a + 60 + 54) := by
  have hrun : ((machine .zero).run secondEarly sensing).map (fun vs =>
      (logTimes vs, vs.all fun v => ¬ v.state.ReadFails v.input)) = some ([61, 125], true) := by
    decide +kernel
  obtain ⟨vs, hvs, hseen⟩ := Option.map_eq_some_iff.mp hrun
  obtain ⟨htimes, hreads⟩ := Prod.mk.inj hseen
  obtain ⟨hlower, hupper⟩ := @cadence .zero sensing 59 54 _ vs hvs rfl (by decide) rfl
    (by decide) (by decide) (by decide)
  exact ⟨vs, hvs, htimes, hlower, hupper (by decide) fun v hv =>
    of_decide_eq_true (List.all_eq_true.mp hreads v hv)⟩

end Main

/-! ### Nothing left to post -/

namespace Logger

theorem logTask_failed {p : Pass} {s s' : Logger} (hfail : s.busAnswers p = false)
    (h : s.logTask p = some s') : Prepared s s' := by
  rw [busAnswers] at hfail
  rw [logTask_eq, Option.map_eq_some_iff] at h
  obtain ⟨⟨s₁, b?⟩, hb, rfl⟩ := h
  obtain ⟨hprep, _⟩ := batch_spec hb
  rw [batch] at hb
  split at hb
  · rename_i htype
    rw [htype] at hfail
    obtain ⟨⟨ok, md⟩, hread, hb⟩ := Option.bind_eq_some_iff.mp hb
    rw [hread] at hfail
    cases ok with
    | true => cases hfail
    | false =>
      cases hb
      exact hprep
  · rename_i htype
    rw [htype] at hfail
    cases hfail
  · rename_i htype
    rw [htype] at hfail
    dsimp only at hb
    split at hb
    · rename_i hok
      rw [hok] at hfail
      cases hfail
    · cases hb
      exact hprep
  · cases hb
    exact hprep

theorem passSize_le (s : Logger) : s.passSize ≤ 255 := by
  rw [passSize]
  split
  · exact Nat.le_of_lt_succ (UInt8.toNat_lt _)
  all_goals decide

/-- What a pass leaves to be posted: nothing, or its batch. -/
theorem logTask_backlog {p : Pass} {s s' : Logger} (h : s.logTask p = some s')
    (hposted : s.rIndex = s.wIndex) (hw : s.wIndex + s.passSize < 4294967296) :
    s'.rIndex ≤ s'.wIndex ∧ s'.wIndex < 4294967296 ∧
      s'.wIndex - s'.rIndex ≤ min s.passSize MAXMETER ∧
      (s.busAnswers p = false → s'.rIndex = s'.wIndex) := by
  have hfailed : s.busAnswers p = false → s'.rIndex = s'.wIndex := by
    intro hfail
    obtain ⟨md, fd, wBuff, rfl⟩ := logTask_failed hfail h
    exact hposted
  refine (fun hall => ⟨hall.1, hall.2.1, hall.2.2, hfailed⟩ : _ ∧ _ ∧ _ → _) ?_
  obtain ⟨s₁, ⟨md, fd, wBuff, rfl⟩, rfl | ⟨b, hb, rfl⟩⟩ := logTask_cases h
  · show s.rIndex ≤ s.wIndex ∧ s.wIndex < 4294967296 ∧
      s.wIndex - s.rIndex ≤ min s.passSize MAXMETER
    omega
  · have hsize := hb.size
    have hmax := hb.le
    rcases writeBatch_cases { s with md, fd, wBuff } p.outcome b with
      ⟨_, heq⟩ | ⟨_, _, heq⟩ | ⟨_, _, heq⟩
    · rw [heq]
      show s.rIndex ≤ (s.wIndex + b.num) % 4294967296 ∧ (s.wIndex + b.num) % 4294967296 <
        4294967296 ∧ (s.wIndex + b.num) % 4294967296 - s.rIndex ≤ min s.passSize MAXMETER
      omega
    · rw [heq]
      show s.rIndex ≤ s.wIndex ∧ s.wIndex < 4294967296 ∧
        s.wIndex - s.rIndex ≤ min s.passSize MAXMETER
      omega
    · -- both indices are those of the next sector
      rw [heq]
      show (s.wIndex / 64 + 1) * 64 % 4294967296 ≤ (s.wIndex / 64 + 1) * 64 % 4294967296 ∧
        (s.wIndex / 64 + 1) * 64 % 4294967296 < 4294967296 ∧
          (s.wIndex / 64 + 1) * 64 % 4294967296 - (s.wIndex / 64 + 1) * 64 % 4294967296 ≤
            min s.passSize MAXMETER
      omega

end Logger

namespace Main

theorem readStep_backlog {t : Turn} {m m' : Main} (h : m.readStep t = some m')
    (hint : POSTSAVETIME < m.logger.sd.cfgG.interval.toNat)
    (hkind : (Logger.kindOf m.logger.sd.cfgG.type).isSome = true)
    (hposted : m.logger.rIndex = m.logger.wIndex)
    (hw : m.logger.wIndex + m.logger.passSize < 4294967296) :
    m'.logger.rIndex ≤ m'.logger.wIndex ∧ m'.logger.wIndex < 4294967296 ∧
      m'.logger.wIndex - m'.logger.rIndex ≤ min m.logger.passSize MAXMETER ∧
      (m'.logger.rIndex = m'.logger.wIndex ∨ m'.clock.PostWindow m.logger.sd.cfgG t) := by
  rw [readStep] at h
  split at h
  · have hlog : m.logger.logTask t.pass = some m'.logger := by
      rw [← readTask_logger, h]
      rfl
    obtain ⟨hle, hlt, hsize, hfail⟩ := Logger.logTask_backlog hlog hposted hw
    refine ⟨hle, hlt, hsize, ?_⟩
    cases hans : m.logger.busAnswers t.pass with
    | false => exact Or.inl (hfail hans)
    | true =>
      -- `lastTime` is the time it is
      have hclock := readTask_clock h
      rw [hans, Clock.afterRead, if_pos ⟨rfl, hkind⟩] at hclock
      refine Or.inr ?_
      rw [hclock, Clock.PostWindow, Int32.sub_self]
      show (0 : Int) < _
      omega
  · cases h
    omega

theorem serverChk_logger (t : Turn) (m : Main) :
    (m.serverChk t).2.logger = m.logger ∨ (m.serverChk t).2.logger = m.logger.resetIndex := by
  rw [serverChk]
  split
  · dsimp only
    split
    · rcases m.logger.serverChkTask_cases t.wifi t.httpCode t.restart with heq | heq | heq
      · exact Or.inl (by rw [heq])
      · exact Or.inl (by rw [heq])
      · exact Or.inr (by rw [heq])
    · exact Or.inl rfl
  · exact Or.inl rfl

/-- **An iteration with the network clear** ends with nothing to post, if it begins so. -/
theorem loop_posted {fmt : Format} {t : Turn} {m m' : Main} {o : Seen}
    (h : m.loop fmt t = some (m', o)) (hpost : Logger.CanPost m.logger.sd.cfgG)
    (hint : POSTSAVETIME < m.logger.sd.cfgG.interval.toNat)
    (hsize : m.logger.passSize ≤ Logger.postLimit m.logger.sd.cfgG) (hnet : t.net.Clear)
    (hposted : m.logger.rIndex = m.logger.wIndex)
    (hw : m.logger.wIndex + m.logger.passSize < 4294967296) :
    m'.logger.rIndex = m'.logger.wIndex := by
  obtain ⟨m₁, hread, h⟩ := Option.bind_eq_some_iff.mp h
  obtain ⟨⟨post, m₂⟩, hpostStep, h⟩ := Option.bind_eq_some_iff.mp h
  obtain ⟨hsd₁, _⟩ := readStep_spec hread
  have hkind : (Logger.kindOf m.logger.sd.cfgG.type).isSome = true := by
    obtain ⟨kind, hkind⟩ := hpost.kind
    rw [hkind]
    rfl
  obtain ⟨hle, hlt, hback, hopen⟩ := readStep_backlog hread hint hkind hposted hw
  dsimp only at hsd₁ hback hopen
  -- the posting step leaves nothing
  have h₂ : m₂.logger.rIndex = m₂.logger.wIndex := by
    rw [postStep, hsd₁] at hpostStep
    split at hpostStep
    · obtain ⟨logger, htask, hpostStep⟩ := Option.bind_eq_some_iff.mp hpostStep
      cases hpostStep
      have hnum := m₁.logger.numPost_le
      obtain ⟨s', htask', hindex⟩ := Logger.postTask_clear (s := m₁.logger)
        (by rw [hsd₁]; exact hpost) fmt hnet (by omega) hle hlt
      cases htask.symm.trans htask'
      have hlimit : m₁.logger.wIndex - m₁.logger.rIndex ≤
          Logger.postLimit m₁.logger.sd.cfgG := by
        rw [hsd₁]
        omega
      show logger.rIndex = logger.wIndex
      rw [hindex, (Logger.postTask_posted htask).wIndex, Logger.numPost_eq]
      omega
    · rename_i hclosed
      cases hpostStep
      exact hopen.resolve_right hclosed
  -- and the checks do not touch the indices, or set both to zero
  have h₃ : (m₂.serverChk t).2.logger.rIndex = (m₂.serverChk t).2.logger.wIndex := by
    rcases serverChk_logger t m₂ with heq | heq
    · rw [heq]
      exact h₂
    · rw [heq]
      rfl
  dsimp only at h
  split at h
  · cases h
    exact h₃
  · cases h
    rw [((m₂.serverChk t).2.rstChk_spec t).1]
    exact h₃

/-- **The loop keeps up**: from a state with nothing to post, and with the network clear
and each batch small enough for one post, every iteration begins, and so ends, with
nothing to post, whatever the bus, the chip and the clock do. -/
theorem keeps_up {fmt : Format} {ts : List Turn} {m : Main} {vs : List (Visit Main Turn Seen)}
    (hvs : (machine fmt).run ts m = some vs) (hpost : Logger.CanPost m.logger.sd.cfgG)
    (hint : POSTSAVETIME < m.logger.sd.cfgG.interval.toNat)
    (hsize : m.logger.passSize ≤ Logger.postLimit m.logger.sd.cfgG)
    (hclear : ∀ t ∈ ts, t.net.Clear) (hposted : m.logger.rIndex = m.logger.wIndex)
    (hw : ∀ v ∈ vs, v.state.logger.wIndex + v.state.logger.passSize < 4294967296) :
    ∀ v ∈ vs, v.state.logger.rIndex = v.state.logger.wIndex := by
  have hall := Machine.run_invariant (m := machine fmt)
    (I := fun n => n.logger.sd = m.logger.sd ∧ n.logger.rIndex = n.logger.wIndex)
    (G := fun v => v.input.net.Clear ∧ v.state.logger.wIndex + v.state.logger.passSize < 4294967296)
    ?_ ⟨rfl, hposted⟩ hvs fun v hv => ⟨hclear _ (Machine.run_inputs hvs v hv), hw v hv⟩
  · exact fun v hv => (hall v hv).2
  · rintro n n' t o ⟨hsd, hposted⟩ ⟨hnet, hw⟩ hloop _
    have hpass : n.logger.passSize = m.logger.passSize := by
      rw [Logger.passSize, Logger.passSize, hsd]
    refine ⟨(loop_tick hloop).2.trans hsd, loop_posted hloop ?_ ?_ ?_ hnet hposted hw⟩
    · rw [hsd]
      exact hpost
    · rw [hsd]
      exact hint
    · rw [hpass, hsd]
      exact hsize

/-- Two meters, and nothing to post. -/
def idle : Main :=
  ⟨Logger.factory (blankChip 65536) Logger.twoDts353 ⟨0x55, 0, 0⟩, ⟨0, true, 0, 0⟩⟩

/-- The iteration logs two records, and the next one begins with nothing to post. -/
theorem keeps_up_two : ∃ vs,
    (machine .zero).run [minute fun _ => .zeros, minute fun _ => .zeros] idle = some vs ∧
      vs.map (·.state.logger.wIndex) = [0, 2] ∧
      ∀ v ∈ vs, v.state.logger.rIndex = v.state.logger.wIndex := by
  have hrun : ((machine .zero).run [minute fun _ => .zeros, minute fun _ => .zeros] idle).map
      (fun vs => vs.map (·.state.logger.wIndex)) = some [0, 2] := by
    decide +kernel
  obtain ⟨vs, hvs, hw⟩ := Option.map_eq_some_iff.mp hrun
  refine ⟨vs, hvs, hw, keeps_up hvs ⟨⟨.meter, rfl⟩, Or.inr rfl⟩ (by decide) (by decide)
    (fun t ht => ?_) rfl fun v hv => ?_⟩
  · obtain rfl : t = minute fun _ => .zeros := by simpa using ht
    exact ⟨rfl, rfl, fun _ => rfl⟩
  · have hmem : v.state.logger.wIndex ∈ [0, 2] := by
      rw [← hw]
      exact List.mem_map_of_mem hv
    have hpass := v.state.logger.passSize_le
    rcases List.mem_pair.mp hmem with h | h <;> omega

end Main

end EnresLogger
