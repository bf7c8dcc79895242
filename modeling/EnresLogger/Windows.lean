import EnresLogger.Lib.Lockstep
import EnresLogger.Whole

/-!
# The two windows of the loop

`loop` reads when `interval` seconds have passed since `lastTime` and posts
while fewer than `interval - POSTSAVETIME` have.  A reading task sets `lastTime`
only when it comes to its end, and a Modbus read that fails ends it before.

`Clock.tick` is what an iteration does to the clock variables and which windows
it finds open; of the bus it sees one bit.  `loop_tick`: the loop does just that.
The two runs of `uploads_iff` are followed on `Clock` alone: they stay together
until a read of the second one fails (`Clock.tick_iff`), and in that iteration
only the first one posts.

`time_t` is a 32-bit `long`.  What sets the clock of the board is not modelled,
since its readings are inputs.
-/

namespace EnresLogger

open Lib

def POSTSAVETIME : Nat := 10
def SERVER_CHK_INT : UInt32 := 15 * 60000
def RST_CHK_INT : UInt32 := 1 * 24 * 3600000

/-- What an iteration of `loop` meets: the answer of `timeClient.update`, the
logging pass with `mktime(&timeinfo)` as its clock, the network of the post task,
`millis()` at the two checks and where they store it, and the server. -/
structure Turn where
  update : Bool
  pass : Pass
  net : Network
  serverMillis : UInt32 × UInt32
  rstMillis : UInt32 × UInt32
  wifi : Bool
  httpCode : UInt16
  restart : UInt8

/-- The variables of `loop` that are times. -/
structure Clock where
  lastTime : Int32
  tAdj : Bool
  serverMillisChk : UInt32
  rstMillisChk : UInt32
  deriving DecidableEq, Repr

structure Main where
  logger : Logger
  clock : Clock

/-- What can be seen of an iteration: whether it calls `ReadFlash*ToPost_Task`
and whether it ends in `ESP.restart`. -/
structure Seen where
  post : Bool
  restart : Bool
  deriving DecidableEq, Repr

/-- `mktime(&timeinfo)` -/
def Turn.now (t : Turn) : Int32 := t.pass.now.toInt32

/-! ### The clock variables -/

namespace Clock

/-- The loop up to the reading window. -/
def adjust (t : Turn) (c : Clock) : Clock :=
  let c := if t.update ∧ c.tAdj = false then { c with tAdj := true, lastTime := 0 } else c
  if t.now < c.lastTime then { c with lastTime := t.now } else c

/-- `mktime(&timeinfo)-lastTime >= sd.cfgG.interval` -/
def ReadWindow (g : ConfigGlobal) (t : Turn) (c : Clock) : Prop :=
  (g.interval.toNat : Int) ≤ (t.now - c.lastTime).toInt

/-- `mktime(&timeinfo)-lastTime < sd.cfgG.interval-POSTSAVETIME` -/
def PostWindow (g : ConfigGlobal) (t : Turn) (c : Clock) : Prop :=
  (t.now - c.lastTime).toInt < (g.interval.toNat : Int) - POSTSAVETIME

instance (g : ConfigGlobal) (t : Turn) (c : Clock) : Decidable (c.ReadWindow g t) :=
  inferInstanceAs (Decidable (_ ≤ _))

instance (g : ConfigGlobal) (t : Turn) (c : Clock) : Decidable (c.PostWindow g t) :=
  inferInstanceAs (Decidable (_ < _))

end Clock

/-! ### The loop -/

namespace Main

def ReadMeterToFlash_Task (t : Turn) (m : Main) : Option Main := do
  let (ok, md) ← m.logger.readMeters t.pass
  let logger := { m.logger with md }
  if ok then
    let logger ← logger.meterToFlash t.pass.outcome
    -- `meterToFlash` returns true also when the chip refuses
    return { m with logger, clock := { m.clock with lastTime := t.now } }
  else return { m with logger }

def ReadSensorToFlash_Task (t : Turn) (m : Main) : Option Main := do
  let logger ← m.logger.SensorToFlash t.pass.fpu t.pass.now t.pass.outcome
  return { m with logger, clock := { m.clock with lastTime := t.now } }

def ReadFlowToFlash_Task (t : Turn) (m : Main) : Option Main :=
  let r := readFlowData t.pass.fpu (t.pass.bus 0) m.logger.fd m.logger.sd.cfgF.id t.pass.now
    m.logger.sd.cfgF.adjust
  let logger := { m.logger with fd := r.2 }
  if r.1 = 0 then do
    let logger ← logger.flowToFlash t.pass.outcome
    return { m with logger, clock := { m.clock with lastTime := t.now } }
  else some { m with logger }

def readTask (t : Turn) (m : Main) : Option Main :=
  match m.logger.sd.cfgG.type with
  | 1 => m.ReadMeterToFlash_Task t
  | 2 => m.ReadSensorToFlash_Task t
  | 3 => m.ReadFlowToFlash_Task t
  | _ => some m

/-- The server check; the flag says that it ends in `ESP.restart`. -/
def serverChk (t : Turn) (m : Main) : Bool × Main :=
  if SERVER_CHK_INT < t.serverMillis.1 - m.clock.serverMillisChk then
    let m := { m with clock := { m.clock with serverMillisChk := t.serverMillis.2 } }
    if m.logger.sd.cfgG.log_use = 1 then
      let r := m.logger.serverChkTask t.wifi t.httpCode t.restart
      (r.1, { m with logger := r.2 })
    else (false, m)
  else (false, m)

/-- The routine restart. -/
def rstChk (t : Turn) (m : Main) : Bool × Main :=
  if RST_CHK_INT < t.rstMillis.1 - m.clock.rstMillisChk then
    (true, { m with clock := { m.clock with rstMillisChk := t.rstMillis.2 } })
  else (false, m)

/-- Read Data to Flash -/
def readStep (t : Turn) (m : Main) : Option Main :=
  if m.clock.ReadWindow m.logger.sd.cfgG t then m.readTask t else some m

/-- Read Flash to Post; the flag says that a post task is called. -/
def postStep (fmt : Format) (t : Turn) (m : Main) : Option (Bool × Main) :=
  if m.clock.PostWindow m.logger.sd.cfgG t then do
    let logger ← m.logger.postTask fmt t.net
    return ((Logger.kindOf m.logger.sd.cfgG.type).isSome, { m with logger })
  else some (false, m)

def loop (fmt : Format) (t : Turn) (m : Main) : Option (Main × Seen) := do
  let m ← { m with clock := m.clock.adjust t }.readStep t
  let (post, m) ← m.postStep fmt t
  let r := m.serverChk t
  let r := if r.1 then r else r.2.rstChk t
  return (r.2, ⟨post, r.1⟩)

/-- The iterations of `loop` until it restarts the device. -/
def machine (fmt : Format) : Machine Main Turn Seen where
  step := loop fmt
  stops := Seen.restart

end Main

/-! ### What the clock variables see of it -/

/-- The bus answers every Modbus read of the reading task. -/
def Logger.busAnswers (p : Pass) (s : Logger) : Bool :=
  match s.sd.cfgG.type with
  | 1 => (s.readMeters p).any Prod.fst
  | 3 => (readFlowData p.fpu (p.bus 0) s.fd s.sd.cfgF.id p.now s.sd.cfgF.adjust).1 == 0
  | _ => true

namespace Clock

/-- A reading task that comes to its end. -/
def afterRead (g : ConfigGlobal) (t : Turn) (answered : Bool) (c : Clock) : Clock :=
  if answered ∧ (Logger.kindOf g.type).isSome then { c with lastTime := t.now } else c

/-- The server check; the flag is the restart. -/
def checkServer (g : ConfigGlobal) (t : Turn) (c : Clock) : Bool × Clock :=
  if SERVER_CHK_INT < t.serverMillis.1 - c.serverMillisChk then
    (g.log_use == 1 && (t.wifi && (t.httpCode == 200 && (t.restart == 1 || t.restart == 2))),
      { c with serverMillisChk := t.serverMillis.2 })
  else (false, c)

/-- The routine restart. -/
def checkRst (t : Turn) (c : Clock) : Bool × Clock :=
  if RST_CHK_INT < t.rstMillis.1 - c.rstMillisChk then
    (true, { c with rstMillisChk := t.rstMillis.2 })
  else (false, c)

/-- An iteration, as far as the clock variables go. -/
def tick (g : ConfigGlobal) (t : Turn) (answered : Bool) (c : Clock) : Clock × Seen :=
  let c := c.adjust t
  let c := if c.ReadWindow g t then c.afterRead g t answered else c
  let r := c.checkServer g t
  let r := if r.1 then r else r.2.checkRst t
  (r.2, ⟨decide (c.PostWindow g t) && (Logger.kindOf g.type).isSome, r.1⟩)

end Clock

theorem Logger.serverChkTask_spec (s : Logger) (wifi : Bool) (httpCode : UInt16)
    (restart : UInt8) :
    (s.serverChkTask wifi httpCode restart).2.sd = s.sd ∧
      (s.serverChkTask wifi httpCode restart).1 =
        (wifi && (httpCode == 200 && (restart == 1 || restart == 2))) := by
  rw [serverChkTask]
  cases wifi with
  | false => exact ⟨rfl, rfl⟩
  | true =>
    by_cases hcode : httpCode = 200
    · by_cases h1 : restart = 1
      · rw [hcode, h1]
        exact ⟨rfl, rfl⟩
      · by_cases h2 : restart = 2
        · rw [hcode, h2]
          exact ⟨rfl, rfl⟩
        · simp [hcode, h1, h2]
    · simp [hcode]

namespace Main

theorem readTask_logger (t : Turn) (m : Main) :
    (m.readTask t).map Main.logger = m.logger.logTask t.pass := by
  rw [readTask]
  split
  · rename_i htype
    simp only [ReadMeterToFlash_Task, Logger.logTask, htype, Logger.ReadMeterToFlash_Task]
    cases m.logger.readMeters t.pass with
    | none => rfl
    | some r =>
      obtain ⟨ok, md⟩ := r
      cases ok with
      | false => rfl
      | true =>
        simp only [Option.bind_eq_bind, Option.bind_some, if_true]
        cases Logger.meterToFlash t.pass.outcome { m.logger with md } <;> rfl
  · rename_i htype
    simp only [ReadSensorToFlash_Task, Logger.logTask, htype, Logger.ReadSensorToFlash_Task]
    cases m.logger.SensorToFlash t.pass.fpu t.pass.now t.pass.outcome <;> rfl
  · rename_i htype
    simp only [ReadFlowToFlash_Task, Logger.logTask, htype, Logger.ReadFlowToFlash_Task]
    split
    · cases Logger.flowToFlash t.pass.outcome _ <;> rfl
    · rfl
  · rename_i h1 h2 h3
    rw [Logger.logTask_eq, Logger.batch_other h1 h2 h3]
    rfl

theorem readTask_clock {t : Turn} {m m' : Main} (h : m.readTask t = some m') :
    m'.clock = m.clock.afterRead m.logger.sd.cfgG t (m.logger.busAnswers t.pass) := by
  rw [readTask] at h
  rw [Logger.busAnswers, Clock.afterRead]
  split at h
  · rename_i htype
    simp only [htype]
    obtain ⟨⟨ok, md⟩, hread, h⟩ := Option.bind_eq_some_iff.mp h
    rw [hread]
    cases ok with
    | false =>
      cases h
      rfl
    | true =>
      obtain ⟨logger, _, h⟩ := Option.bind_eq_some_iff.mp h
      cases h
      rfl
  · rename_i htype
    simp only [htype]
    rw [ReadSensorToFlash_Task] at h
    obtain ⟨logger, _, h⟩ := Option.bind_eq_some_iff.mp h
    cases h
    rfl
  · rename_i htype
    simp only [htype]
    dsimp only [ReadFlowToFlash_Task] at h
    split at h
    · rename_i hok
      obtain ⟨logger, _, h⟩ := Option.bind_eq_some_iff.mp h
      cases h
      rw [hok]
      rfl
    · rename_i hfail
      cases h
      rw [if_neg fun hans => hfail (beq_iff_eq.mp hans.1)]
  · rename_i h1 h2 h3
    cases h
    have hkind : Logger.kindOf m.logger.sd.cfgG.type = none := by
      rw [Logger.kindOf]
      · exact h1
      · exact h2
      · exact h3
    refine (if_neg fun hans => ?_).symm
    rw [hkind] at hans
    exact Bool.false_ne_true hans.2

theorem readTask_sd {t : Turn} {m m' : Main} (h : m.readTask t = some m') :
    m'.logger.sd = m.logger.sd := by
  have hlog : m.logger.logTask t.pass = some m'.logger := by
    rw [← readTask_logger, h]
    rfl
  obtain ⟨s₁, ⟨md, fd, wBuff, rfl⟩, heq | ⟨b, _, heq⟩⟩ := Logger.logTask_cases hlog
  · rw [heq]
  · rw [heq, Logger.writeBatch_sd]

theorem readStep_spec {t : Turn} {m m' : Main} (h : m.readStep t = some m') :
    m'.logger.sd = m.logger.sd ∧ m'.clock =
      if m.clock.ReadWindow m.logger.sd.cfgG t then
        m.clock.afterRead m.logger.sd.cfgG t (m.logger.busAnswers t.pass)
      else m.clock := by
  rw [readStep] at h
  by_cases hw : m.clock.ReadWindow m.logger.sd.cfgG t
  · rw [if_pos hw] at h ⊢
    exact ⟨readTask_sd h, readTask_clock h⟩
  · rw [if_neg hw] at h ⊢
    cases h
    exact ⟨rfl, rfl⟩

theorem postStep_spec {fmt : Format} {t : Turn} {m m' : Main} {post : Bool}
    (h : m.postStep fmt t = some (post, m')) :
    m'.logger.sd = m.logger.sd ∧ m'.clock = m.clock ∧
      post = (decide (m.clock.PostWindow m.logger.sd.cfgG t) &&
        (Logger.kindOf m.logger.sd.cfgG.type).isSome) := by
  rw [postStep] at h
  by_cases hw : m.clock.PostWindow m.logger.sd.cfgG t
  · rw [if_pos hw] at h
    obtain ⟨logger, hpost, h⟩ := Option.bind_eq_some_iff.mp h
    cases h
    exact ⟨(Logger.postTask_posted hpost).sd, rfl, by rw [decide_eq_true hw, Bool.true_and]⟩
  · rw [if_neg hw] at h
    cases h
    exact ⟨rfl, rfl, by rw [decide_eq_false hw, Bool.false_and]⟩

theorem serverChk_spec (t : Turn) (m : Main) :
    (m.serverChk t).2.logger.sd = m.logger.sd ∧
      m.clock.checkServer m.logger.sd.cfgG t = ((m.serverChk t).1, (m.serverChk t).2.clock) := by
  obtain ⟨hsd, hflag⟩ := m.logger.serverChkTask_spec t.wifi t.httpCode t.restart
  rw [serverChk, Clock.checkServer]
  split
  · dsimp only
    by_cases huse : m.logger.sd.cfgG.log_use = 1
    · rw [if_pos huse, hflag, huse]
      exact ⟨hsd, rfl⟩
    · rw [if_neg huse, beq_false_of_ne huse]
      exact ⟨rfl, rfl⟩
  · exact ⟨rfl, rfl⟩

theorem rstChk_spec (t : Turn) (m : Main) :
    (m.rstChk t).2.logger = m.logger ∧
      m.clock.checkRst t = ((m.rstChk t).1, (m.rstChk t).2.clock) := by
  rw [rstChk, Clock.checkRst]
  split <;> exact ⟨rfl, rfl⟩

/-- **The loop keeps its clock** as `Clock.tick` says, and never changes the
configuration. -/
theorem loop_tick {fmt : Format} {t : Turn} {m m' : Main} {o : Seen}
    (h : m.loop fmt t = some (m', o)) :
    m.clock.tick m.logger.sd.cfgG t (m.logger.busAnswers t.pass) = (m'.clock, o) ∧
      m'.logger.sd = m.logger.sd := by
  obtain ⟨m₁, hread, h⟩ := Option.bind_eq_some_iff.mp h
  obtain ⟨⟨post, m₂⟩, hpost, h⟩ := Option.bind_eq_some_iff.mp h
  obtain ⟨hsd₁, hclock₁⟩ := readStep_spec hread
  obtain ⟨hsd₂, hclock₂, rfl⟩ := postStep_spec hpost
  obtain ⟨hsd₃, hclock₃⟩ := m₂.serverChk_spec t
  have hsd : m₂.logger.sd = m.logger.sd := hsd₂.trans hsd₁
  have hclock := hclock₂.trans hclock₁
  rw [hsd] at hclock₃ hsd₃
  rw [Clock.tick]
  dsimp only at h hclock hsd₁ ⊢
  rw [← hclock₂, hsd₁] at h
  rw [← hclock, hclock₃]
  cases hflag : (m₂.serverChk t).1 with
  | true =>
    rw [hflag] at h
    cases h
    rw [if_pos rfl, if_pos rfl, hflag]
    exact ⟨rfl, hsd₃⟩
  | false =>
    obtain ⟨hlogger, hclock₄⟩ := (m₂.serverChk t).2.rstChk_spec t
    rw [hflag] at h
    cases h
    rw [if_neg Bool.false_ne_true, if_neg Bool.false_ne_true, hclock₄]
    exact ⟨rfl, by rw [hlogger, hsd₃]⟩

end Main

/-! ### Two ticks -/

namespace Clock

/-- The variables that the checks read. -/
def SameChecks (c d : Clock) : Prop :=
  c.serverMillisChk = d.serverMillisChk ∧ c.rstMillisChk = d.rstMillisChk

theorem adjust_checks (t : Turn) (c : Clock) : (c.adjust t).SameChecks c := by
  rw [adjust]
  split <;> split <;> exact ⟨rfl, rfl⟩

theorem afterRead_checks (g : ConfigGlobal) (t : Turn) (answered : Bool) (c : Clock) :
    (c.afterRead g t answered).SameChecks c := by
  rw [afterRead]
  split <;> exact ⟨rfl, rfl⟩

/-- The restart does not depend on the bus. -/
theorem tick_checks (g : ConfigGlobal) (t : Turn) (a b : Bool) {c d : Clock}
    (h : c.SameChecks d) :
    (c.tick g t a).2.restart = (d.tick g t b).2.restart ∧
      (c.tick g t a).1.SameChecks (d.tick g t b).1 := by
  have hbefore : ∀ (a : Bool) (c : Clock), SameChecks
      (if (c.adjust t).ReadWindow g t then (c.adjust t).afterRead g t a else c.adjust t) c := by
    intro a c
    obtain ⟨hs, hr⟩ := c.adjust_checks t
    split
    · obtain ⟨hs', hr'⟩ := (c.adjust t).afterRead_checks g t a
      exact ⟨hs'.trans hs, hr'.trans hr⟩
    · exact ⟨hs, hr⟩
  obtain ⟨hcs, hcr⟩ := hbefore a c
  obtain ⟨hds, hdr⟩ := hbefore b d
  rw [tick, tick]
  dsimp only
  generalize (if (c.adjust t).ReadWindow g t then _ else c.adjust t) = c₁ at hcs hcr ⊢
  generalize (if (d.adjust t).ReadWindow g t then _ else d.adjust t) = d₁ at hds hdr ⊢
  have hs : c₁.serverMillisChk = d₁.serverMillisChk := hcs.trans (h.1.trans hds.symm)
  have hr : c₁.rstMillisChk = d₁.rstMillisChk := hcr.trans (h.2.trans hdr.symm)
  have hserver : (c₁.checkServer g t).1 = (d₁.checkServer g t).1 ∧
      (c₁.checkServer g t).2.SameChecks (d₁.checkServer g t).2 := by
    rw [checkServer, checkServer, hs]
    split
    · exact ⟨rfl, rfl, hr⟩
    · exact ⟨rfl, hs, hr⟩
  obtain ⟨hflag, hs', hr'⟩ := hserver
  rw [hflag]
  split
  · exact ⟨hflag, hs', hr'⟩
  · rw [checkRst, checkRst, hr']
    split
    · exact ⟨rfl, hs', rfl⟩
    · exact ⟨rfl, hs', hr'⟩

theorem tick_answered {g : ConfigGlobal} {t : Turn} {answered : Bool} {c : Clock}
    (h : ¬ ((c.adjust t).ReadWindow g t ∧ answered = false)) :
    c.tick g t answered = c.tick g t true := by
  cases answered with
  | true => rfl
  | false =>
    have hw : ¬ (c.adjust t).ReadWindow g t := fun hw => h ⟨hw, rfl⟩
    rw [tick, tick, if_neg hw, if_neg hw]

/-- **One iteration, twice**: with the clock variables alike, the iteration whose
reads are answered and the other one both post, unless the other has a read that
fails in the reading window. -/
theorem tick_iff {g : ConfigGlobal} (hint : POSTSAVETIME < g.interval.toNat) (t : Turn)
    (answered : Bool) (hkind : answered = false → (Logger.kindOf g.type).isSome = true)
    (c : Clock) :
    ((c.tick g t true).2.post = true → (c.tick g t answered).2.post = true) ↔
      ¬ ((c.adjust t).ReadWindow g t ∧ answered = false) := by
  constructor
  · rintro hpost ⟨hw, rfl⟩
    have hsome := hkind rfl
    -- the first iteration has read, and so it posts
    have hfirst : (c.tick g t true).2.post = true := by
      rw [tick]
      dsimp only
      rw [if_pos hw, afterRead, if_pos ⟨rfl, hsome⟩, hsome, Bool.and_true, decide_eq_true_eq,
        PostWindow, Int32.sub_self]
      show (0 : Int) < _
      omega
    -- the other one is still in its reading window
    have hsecond := hpost hfirst
    rw [tick] at hsecond
    dsimp only at hsecond
    rw [if_pos hw, afterRead, if_neg (fun h => Bool.false_ne_true h.1), hsome, Bool.and_true,
      decide_eq_true_eq, PostWindow] at hsecond
    rw [ReadWindow] at hw
    omega
  · intro h hpost
    rw [tick_answered h]
    exact hpost

end Clock

/-! ### Two runs -/

/-- The same iteration, on another bus. -/
def Turn.SameButBus (t u : Turn) : Prop :=
  ∃ bus, u = { t with pass := { t.pass with bus } }

theorem Turn.SameButBus.tick {t u : Turn} (h : t.SameButBus u) (g : ConfigGlobal)
    (answered : Bool) (c : Clock) : c.tick g u answered = c.tick g t answered := by
  obtain ⟨bus, rfl⟩ := h
  rfl

theorem Logger.busAnswers_kind {p : Pass} {s : Logger} (h : s.busAnswers p = false) :
    (Logger.kindOf s.sd.cfgG.type).isSome = true := by
  rw [Logger.busAnswers] at h
  split at h
  · rename_i htype
    rw [htype]
    rfl
  · rename_i htype
    rw [htype]
    rfl
  · cases h

namespace Main

/-- The reading window is open and one of the Modbus reads fails. -/
def ReadFails (t : Turn) (m : Main) : Prop :=
  (m.clock.adjust t).ReadWindow m.logger.sd.cfgG t ∧ m.logger.busAnswers t.pass = false

instance (t : Turn) (m : Main) : Decidable (m.ReadFails t) := inferInstanceAs (Decidable (_ ∧ _))

theorem run_length {fmt : Format} {ts us : List Turn} (hsame : List.Forall₂ Turn.SameButBus ts us)
    {m : Main} {vs ws : List (Visit Main Turn Seen)} (hvs : (machine fmt).run ts m = some vs)
    (hws : (machine fmt).run us m = some ws) : vs.length = ws.length := by
  refine List.Forall₂.length_eq (R := fun _ _ => True) ?_
  refine Machine.lockstep (m := machine fmt) (R := fun m n => m.clock.SameChecks n.clock ∧
    m.logger.sd = n.logger.sd) ?_ hsame ⟨⟨rfl, rfl⟩, rfl⟩ hvs hws
  rintro m n m' n' t u o p ⟨hchecks, hsd⟩ htu hm hn
  obtain ⟨htick, hsd'⟩ := loop_tick hm
  obtain ⟨htick', hsd''⟩ := loop_tick hn
  rw [htu.tick, ← hsd] at htick'
  obtain ⟨hrestart, hchecks'⟩ := Clock.tick_checks m.logger.sd.cfgG t
    (m.logger.busAnswers t.pass) (n.logger.busAnswers u.pass) hchecks
  rw [htick, htick'] at hrestart hchecks'
  exact ⟨⟨hchecks', by rw [hsd', hsd'', hsd]⟩, hrestart, trivial⟩

/-- With a configuration that fits, no iteration leaves the tables. -/
theorem loop_isSome {m : Main} (h : Logger.Fits m.logger.sd.cfgG) (fmt : Format) (t : Turn) :
    ∃ m' o, m.loop fmt t = some (m', o) := by
  have hread : ∃ m₁, { m with clock := m.clock.adjust t }.readStep t = some m₁ := by
    rw [readStep]
    split
    · obtain ⟨r, hr⟩ := h.logBatch t.pass
      have hlog := readTask_logger t { m with clock := m.clock.adjust t }
      rw [Logger.logTask_eq, hr] at hlog
      obtain ⟨m₁, hm₁, _⟩ := Option.map_eq_some_iff.mp hlog
      exact ⟨m₁, hm₁⟩
    · exact ⟨_, rfl⟩
  obtain ⟨m₁, hm₁⟩ := hread
  have hfits : Logger.Fits m₁.logger.sd.cfgG := by
    rw [(readStep_spec hm₁).1]
    exact h
  have hpost : ∃ r, m₁.postStep fmt t = some r := by
    rw [postStep]
    split
    · obtain ⟨logger, hlogger⟩ := hfits.postTask fmt t.net
      exact ⟨_, by rw [hlogger]; rfl⟩
    · exact ⟨_, rfl⟩
  obtain ⟨r, hr⟩ := hpost
  exact ⟨_, _, by rw [loop, hm₁, Option.bind_eq_bind, Option.bind_some, hr]; rfl⟩

theorem run_isSome {m : Main} (h : Logger.Fits m.logger.sd.cfgG) (fmt : Format)
    (ts : List Turn) : ∃ vs, (machine fmt).run ts m = some vs := by
  refine Machine.run_isSome (P := fun m => Logger.Fits m.logger.sd.cfgG) ?_ ts h
  intro t m h
  obtain ⟨m', o, hloop⟩ := loop_isSome h fmt t
  exact ⟨m', o, hloop, by rw [(loop_tick hloop).2]; exact h⟩

/-- Two meters, and a record that waits in the ring. -/
def pending : Main where
  logger := { Logger.factory (blankChip 65536) Logger.twoDts353 ⟨0x55, 0, 0⟩ with wIndex := 1 }
  clock := ⟨0, true, 0, 0⟩

/-- An iteration of a minute and a bit after the last reading. -/
def minute (bus : Nat → Bus) : Turn :=
  ⟨true, ⟨61, .null, bus, .healthy⟩, ⟨true, (false, false), fun _ => 200⟩, (0, 0), (0, 0), true,
    200, 0⟩

/-- The same iteration, at another time. -/
def atTime (now : UInt32) (t : Turn) : Turn := { t with pass := { t.pass with now } }

/-- A bus on which nobody answers. -/
def deadBus : Nat → Bus := fun _ _ _ _ _ _ => (0xE2, .replicate _ 0)

theorem run_one {fmt : Format} {t : Turn} {m : Main} {vs : List (Visit Main Turn Seen)}
    (h : (machine fmt).run [t] m = some vs) :
    vs = [⟨m, t, (m.clock.tick m.logger.sd.cfgG t (m.logger.busAnswers t.pass)).2⟩] := by
  obtain ⟨m', o, vs', hloop, rfl, hstop, hgo⟩ := Machine.run_cons h
  obtain ⟨htick, _⟩ := loop_tick hloop
  rw [htick]
  cases ho : (machine fmt).stops o with
  | true => rw [hstop ho]
  | false =>
    have hrest := hgo ho
    cases hrest
    rfl

theorem pending_answers (r : UInt16) :
    pending.logger.busAnswers (minute fun _ _ _ _ _ _ => (0, .replicate _ r)).pass = true := by
  obtain ⟨ok, md, hread, hok⟩ := Logger.readMeters_spec (s := pending.logger) (by decide)
    (minute fun _ _ _ _ _ _ => (0, .replicate _ r)).pass
  have htype : pending.logger.sd.cfgG.type = 1 := rfl
  rw [Logger.busAnswers, htype, hread, hok fun _ _ _ _ _ _ => rfl]
  rfl

/-- **Uploading and the bus**: of two runs of the loop from one state that differ
in the bus alone, the first with its reads answered, the second calls its post
task in every iteration in which the first one does if and only if it meets no
failed read in a reading window. -/
theorem uploads_iff (fmt : Format) {m : Main}
    (hint : POSTSAVETIME < m.logger.sd.cfgG.interval.toNat) {ts us : List Turn}
    (hsame : List.Forall₂ Turn.SameButBus ts us) {vs ws : List (Visit Main Turn Seen)}
    (hvs : (machine fmt).run ts m = some vs) (hws : (machine fmt).run us m = some ws)
    (hreads : ∀ v ∈ vs, ¬ v.state.ReadFails v.input) :
    (∀ (k : Nat) (v : Visit Main Turn Seen), vs[k]? = some v → v.output.post = true →
        ∃ w, ws[k]? = some w ∧ w.output.post = true) ↔
      ∀ w ∈ ws, ¬ w.state.ReadFails w.input := by
  have hlen := run_length hsame hvs hws
  have hlock : List.Forall₂ (fun v w => v.output.post = true → w.output.post = true) vs ws ↔
      List.Forall₂ (fun _ w => ¬ w.state.ReadFails w.input) vs ws := by
    refine Machine.lockstep_iff (m := machine fmt) (R := fun m n => m.clock = n.clock ∧
      m.logger.sd = n.logger.sd ∧ POSTSAVETIME < m.logger.sd.cfgG.interval.toNat)
      (G := fun v => ¬ v.state.ReadFails v.input) ?_ hsame ⟨rfl, rfl, hint⟩ hvs hws hreads
    rintro m n m' n' t u o p ⟨hclock, hsd, hint⟩ htu hm hn hG
    obtain ⟨htick, hsd'⟩ := loop_tick hm
    obtain ⟨htick', hsd''⟩ := loop_tick hn
    rw [Clock.tick_answered hG] at htick
    rw [htu.tick, ← hclock, ← hsd] at htick'
    obtain ⟨hrestart, _⟩ := Clock.tick_checks m.logger.sd.cfgG t true (n.logger.busAnswers u.pass)
      (c := m.clock) ⟨rfl, rfl⟩
    have hiff := Clock.tick_iff hint t (n.logger.busAnswers u.pass) (fun h => by
      rw [hsd]
      exact Logger.busAnswers_kind h) m.clock
    have hfails : n.ReadFails u ↔ (m.clock.adjust t).ReadWindow m.logger.sd.cfgG t ∧
        n.logger.busAnswers u.pass = false := by
      obtain ⟨bus, rfl⟩ := htu
      rw [ReadFails, ← hclock, ← hsd]
      rfl
    rw [← hfails] at hiff
    rw [htick, htick'] at hrestart hiff
    refine ⟨hrestart, hiff, fun hnot => ⟨?_, ?_, ?_⟩⟩
    · rw [hfails] at hnot
      rw [Clock.tick_answered hnot, htick] at htick'
      exact congrArg Prod.fst htick'
    · rw [hsd', hsd'', hsd]
    · rw [hsd']
      exact hint
  rw [← forall₂_imp_iff hlen, hlock, forall₂_right_iff hlen]

/-- An iteration with both meters answering, and the same one with the bus dead:
the first alone posts the record that waits. -/
theorem not_uploads :
    POSTSAVETIME < pending.logger.sd.cfgG.interval.toNat ∧
      pending.logger.rIndex < pending.logger.wIndex ∧
      (minute fun _ => .zeros).SameButBus (minute deadBus) ∧
      ∃ vs ws, (machine .zero).run [minute fun _ => .zeros] pending = some vs ∧
        (machine .zero).run [minute deadBus] pending = some ws ∧
        (∀ v ∈ vs, ¬ v.state.ReadFails v.input) ∧
        ∃ v w, vs[0]? = some v ∧ v.output.post = true ∧ ws[0]? = some w ∧
          w.output.post = false := by
  have hfits : Logger.Fits pending.logger.sd.cfgG := ⟨by decide, fun _ => by decide⟩
  obtain ⟨vs, hvs⟩ := run_isSome hfits .zero [minute fun _ => .zeros]
  obtain ⟨ws, hws⟩ := run_isSome hfits .zero [minute deadBus]
  have hzeros : pending.logger.busAnswers (minute fun _ => .zeros).pass = true :=
    pending_answers 0
  have hdead : pending.logger.busAnswers (minute deadBus).pass = false := by decide +kernel
  refine ⟨by decide, by decide, ⟨_, rfl⟩, vs, ws, hvs, hws, fun v hv => ?_, ?_⟩
  · rw [run_one hvs] at hv
    obtain rfl := List.mem_singleton.mp hv
    exact fun hfails => absurd (hzeros.symm.trans hfails.2) (by decide)
  · rw [run_one hvs, run_one hws, hzeros, hdead]
    exact ⟨_, _, rfl, by decide, rfl, by decide⟩

/-- Three iterations on one bus: the first reads and posts, the second posts, and the third
does neither. -/
def threeTurns (bus : Nat → Bus) : List Turn :=
  [minute bus, atTime 90 (minute bus), atTime 115 (minute bus)]

/-- Two runs on buses that answer differently post in the same iterations. -/
theorem uploads_two :
    ∃ vs ws, (machine .zero).run (threeTurns fun _ => .zeros) pending = some vs ∧
      (machine .zero).run (threeTurns fun _ _ _ _ _ _ => (0, .replicate _ 1)) pending = some ws ∧
      vs.map (·.output.post) = [true, true, false] ∧
      ∀ (k : Nat) (v : Visit Main Turn Seen), vs[k]? = some v → v.output.post = true →
        ∃ w, ws[k]? = some w ∧ w.output.post = true := by
  have hvs : ((machine .zero).run (threeTurns fun _ => .zeros) pending).map (fun vs =>
      (vs.map (·.output.post), vs.all fun v => ¬ v.state.ReadFails v.input)) =
      some ([true, true, false], true) := by
    decide +kernel
  have hws : ((machine .zero).run (threeTurns fun _ _ _ _ _ _ => (0, .replicate _ 1)) pending).map
      (fun ws => ws.all fun w => ¬ w.state.ReadFails w.input) = some true := by
    decide +kernel
  obtain ⟨vs, hvs, hseen⟩ := Option.map_eq_some_iff.mp hvs
  obtain ⟨ws, hws, hreads⟩ := Option.map_eq_some_iff.mp hws
  obtain ⟨hpost, hanswered⟩ := Prod.mk.inj hseen
  refine ⟨vs, ws, hvs, hws, hpost, (uploads_iff .zero (by decide) ?_ hvs hws fun v hv => ?_).mpr
    fun w hw => ?_⟩
  · exact .cons ⟨_, rfl⟩ (.cons ⟨_, rfl⟩ (.cons ⟨_, rfl⟩ .nil))
  · exact of_decide_eq_true (List.all_eq_true.mp hanswered v hv)
  · exact of_decide_eq_true (List.all_eq_true.mp hreads w hw)

end Main

end EnresLogger
