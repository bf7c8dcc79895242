import EnresLogger.Progress
import Mathlib.Order.Bounds.Defs

/-!
# The bad sector

A write that fails leaves `wIndex` where it is, and the next pass tries the same
place again.  From the third failure on, with nothing left to post, the device
moves on to the next sector.

The failures are counted in `fErrorCnt`, eight bits that go on counting while a
backlog holds the escape up.  `Attempted` is a run without a reset, next to the
list of its flash writes, and `Attempted.fErrorCnt` the invariant: the counter is
the number of writes that failed in a row at `wIndex`, modulo 256.  `movesOn_iff`
says what that leaves of the escape: a failure whose number in the row is 0, 1
or 2 modulo 256 is not taken for the third, and `not_movesOn` is the run to the
256th.
-/

namespace EnresLogger

open Lib

namespace Logger

/-! ### Attempts -/

/-- A flash write of a logging pass: `wIndex` before it, its result, and `wIndex`
after the pass. -/
structure Attempt where
  before : Nat
  ok : Bool
  after : Nat
  deriving DecidableEq, Repr

/-- The result of the flash write of a pass, when the pass comes to one. -/
def wrote (p : Pass) (s : Logger) : Option Bool := do
  let (s₁, b?) ← s.start.batch p
  let b ← b?
  return (s₁.flash.writeData b.kind p.outcome s₁.wIndex b.data).1

/-- How many of the last attempts failed at `w`, one after the other, and left
the device there. -/
def streak (h : List Attempt) (w : Nat) : Nat :=
  (h.takeWhile fun a => a = ⟨w, false, w⟩).length

/-- The runs without a reset, from a boot on, with their attempts, the last one
first. -/
inductive Attempted (fmt : Format) (s₀ : Logger) : List Attempt → Logger → Prop
  | boot (sd : SDConfig) : Attempted fmt s₀ [] (s₀.setup sd)
  | log {h : List Attempt} {s s' : Logger} {p : Pass} :
      Attempted fmt s₀ h s → next fmt (.log p) s = some s' →
      Attempted fmt s₀ (((s.wrote p).map fun ok => ⟨s.wIndex, ok, s'.wIndex⟩).toList ++ h) s'
  | post {h : List Attempt} {s s' : Logger} {net : Network} :
      Attempted fmt s₀ h s → next fmt (.post net) s = some s' → Attempted fmt s₀ h s'
  | server {h : List Attempt} {s s' : Logger} {wifi : Bool} {httpCode : UInt16} {restart : UInt8}
      {sd : SDConfig} :
      Attempted fmt s₀ h s → (s.start.serverChkTask wifi httpCode restart).1 = false →
      next fmt (.server wifi httpCode restart sd) s = some s' → Attempted fmt s₀ h s'

/-- An escape is due: the last two attempts failed where the device is now, and
nothing is left to post. -/
structure Due (h : List Attempt) (s : Logger) : Prop where
  row : 2 ≤ streak h s.wIndex
  posted : s.wIndex = s.rIndex

/-- The indices go to the first index of the next sector, and both are stored. -/
structure MovesOn (s s' : Logger) : Prop where
  wIndex : IsLeast {n | 64 ∣ n ∧ s.wIndex < n} s'.wIndex
  rIndex : s'.rIndex = s'.wIndex
  stored : s'.nv.w = s'.wIndex ∧ s'.nv.r = s'.rIndex

theorem streak_fail (h : List Attempt) (w : Nat) :
    streak (⟨w, false, w⟩ :: h) w = streak h w + 1 := by
  rw [streak, List.takeWhile_cons_of_pos (by simp), List.length_cons, streak]

theorem streak_other {a : Attempt} {w : Nat} (h : List Attempt) (ha : a ≠ ⟨w, false, w⟩) :
    streak (a :: h) w = 0 := by
  rw [streak, List.takeWhile_cons_of_neg (by simpa using ha), List.length_nil]

theorem streak_replicate (h : List Attempt) (w k : Nat) :
    streak (List.replicate k ⟨w, false, w⟩ ++ h) w = streak h w + k := by
  induction k with
  | zero => rfl
  | succ k ih => rw [List.replicate_succ, List.cons_append, streak_fail, ih, Nat.add_assoc]

/-! ### A pass -/

section Pass

variable {fmt : Format} {p : Pass} {s s' : Logger}

theorem log_wrote (hnext : next fmt (.log p) s = some s') :
    (s.wrote p = none ∧ s'.wIndex = s.wIndex ∧ s'.fErrorCnt = s.fErrorCnt) ∨
      (s.wrote p = some true ∧ s'.fErrorCnt = 0) ∨
      (s.wrote p = some false ∧ ¬ s.AtEscape ∧ s'.wIndex = s.wIndex ∧ s'.rIndex = s.rIndex ∧
        s'.fErrorCnt = (s.fErrorCnt + 1) % 256) ∨
      (s.wrote p = some false ∧ s.AtEscape ∧
        s'.wIndex = (s.wIndex / 64 + 1) * 64 % 4294967296 ∧ s'.rIndex = s'.wIndex ∧
        s'.nv.w = s'.wIndex ∧ s'.nv.r = s'.rIndex ∧ s'.fErrorCnt = 0) := by
  rw [next, logTask_eq, Option.map_eq_some_iff] at hnext
  obtain ⟨⟨s₁, b?⟩, hbatch, rfl⟩ := hnext
  obtain ⟨⟨md, fd, wBuff, rfl⟩, _⟩ := batch_spec hbatch
  cases b? with
  | none =>
    refine Or.inl ⟨?_, rfl, rfl⟩
    rw [wrote, hbatch]
    rfl
  | some b =>
    refine Or.inr ?_
    have hwrote : s.wrote p =
        some (s.flash.writeData b.kind p.outcome s.wIndex b.data).1 := by
      rw [wrote, hbatch]
      rfl
    rcases writeBatch_cases { s.start with md, fd, wBuff } p.outcome b with
      ⟨hok, heq⟩ | ⟨hfail, hat, heq⟩ | ⟨hfail, hat, heq⟩
    · refine Or.inl ⟨hwrote.trans (congrArg some hok), ?_⟩
      exact (congrArg fErrorCnt heq).trans rfl
    · refine Or.inr (Or.inl ⟨hwrote.trans (congrArg some hfail), hat, ?_⟩)
      dsimp only
      rw [heq]
      exact ⟨rfl, rfl, rfl⟩
    · refine Or.inr (Or.inr ⟨hwrote.trans (congrArg some hfail), hat, ?_⟩)
      dsimp only
      rw [heq]
      exact ⟨rfl, rfl, rfl, rfl, rfl⟩

theorem log_failed (hnext : next fmt (.log p) s = some s') (hfail : s.wrote p = some false) :
    (¬ s.AtEscape ∧ s'.wIndex = s.wIndex ∧ s'.rIndex = s.rIndex) ∨
      (s.AtEscape ∧ s'.wIndex = (s.wIndex / 64 + 1) * 64 % 4294967296 ∧
        s'.rIndex = s'.wIndex ∧ s'.nv.w = s'.wIndex ∧ s'.nv.r = s'.rIndex) := by
  rcases log_wrote hnext with ⟨hwrote, _⟩ | ⟨hwrote, _⟩ | ⟨_, hat, hw, hr, _⟩ |
    ⟨_, hat, hw, hr, hnvw, hnvr, _⟩
  · cases hfail.symm.trans hwrote
  · cases hfail.symm.trans hwrote
  · exact Or.inl ⟨hat, hw, hr⟩
  · exact Or.inr ⟨hat, hw, hr, hnvw, hnvr⟩

end Pass

/-- The sector behind `w` begins at its first index, as long as that is below
`2^32`. -/
theorem nextSector_isLeast_iff (w : Nat) :
    IsLeast {n | 64 ∣ n ∧ w < n} ((w / 64 + 1) * 64 % 4294967296) ↔ w < 4294967232 := by
  constructor
  · rintro ⟨⟨_, hlt⟩, _⟩
    omega
  · intro hw
    rw [Nat.mod_eq_of_lt (by omega)]
    refine ⟨⟨Nat.dvd_mul_left 64 _, by omega⟩, ?_⟩
    rintro n ⟨⟨q, rfl⟩, hn⟩
    omega

/-! ### The counter -/

section Run

variable {fmt : Format} {s₀ s s' : Logger} {h : List Attempt}

/-- **The counter is the row of failures, modulo 256.** -/
theorem Attempted.fErrorCnt (hrun : Attempted fmt s₀ h s) :
    s.fErrorCnt = streak h s.wIndex % 256 := by
  induction hrun with
  | boot sd =>
    rw [setup]
    split <;> rfl
  | @log h s s' p _ hnext ih =>
    rcases log_wrote hnext with ⟨hwrote, hw, hcnt⟩ | ⟨hwrote, hcnt⟩ | ⟨hwrote, _, hw, _, hcnt⟩ |
      ⟨hwrote, _, hw, _, _, _, hcnt⟩
    · rw [hwrote, hw, hcnt]
      exact ih
    · -- a success begins a new row
      rw [hwrote, hcnt]
      show 0 = streak (⟨s.wIndex, true, s'.wIndex⟩ :: h) s'.wIndex % 256
      rw [streak_other h (fun heq => Bool.noConfusion (congrArg Attempt.ok heq))]
    · rw [hwrote, hw, hcnt, ih]
      show _ = streak (⟨s.wIndex, false, s.wIndex⟩ :: h) s.wIndex % 256
      rw [streak_fail, Nat.mod_add_mod]
    · -- so does an escape, which leaves the place of the failures
      rw [hwrote, hcnt]
      show 0 = streak (⟨s.wIndex, false, s'.wIndex⟩ :: h) s'.wIndex % 256
      have hne : s.wIndex ≠ s'.wIndex := by omega
      rw [streak_other h (fun heq => hne (congrArg Attempt.before heq))]
  | post _ hnext ih =>
    obtain ⟨rBuff, posts, rfl | ⟨num, _, rfl⟩⟩ := postTask_posted hnext
    · exact ih
    · exact ih
  | server _ hstays hnext ih =>
    rw [next, if_neg (by rw [hstays]; decide), serverChkTask_stays hstays] at hnext
    cases hnext
    exact ih

/-- **The escape that is due fires** on a failure if and only if the number of
failures in the row is not 0, 1 or 2 modulo 256, and there is a next sector. -/
theorem movesOn_iff {p : Pass} (hrun : Attempted fmt s₀ h s)
    (hnext : next fmt (.log p) s = some s') (hfail : s.wrote p = some false) (hdue : Due h s) :
    MovesOn s s' ↔
      FLASH_ERROR_MAX ≤ (streak h s.wIndex + 1) % 256 ∧ s.wIndex < 4294967232 := by
  have hat : s.AtEscape ↔ FLASH_ERROR_MAX ≤ (streak h s.wIndex + 1) % 256 := by
    rw [AtEscape, hrun.fErrorCnt, Nat.mod_add_mod, and_iff_left hdue.posted]
  rw [← hat]
  rcases log_failed hnext hfail with ⟨hnot, hw, _⟩ | ⟨hskip, hw, hr, hnvw, hnvr⟩
  · refine iff_of_false (fun hmoves => ?_) (fun h => hnot h.1)
    have hlt := hmoves.wIndex.1.2
    rw [hw] at hlt
    exact Nat.lt_irrefl _ hlt
  · rw [and_iff_right hskip, ← nextSector_isLeast_iff, ← hw]
    exact ⟨fun hmoves => hmoves.wIndex, fun hleast => ⟨hleast, hr, hnvw, hnvr⟩⟩

end Run

/-! ### A chip that does not answer -/

end Logger

theorem SPIFlashMeter.writeRecords_dead (m : SPIFlashMeter) (index : Nat) (buff : List UInt8) :
    m.writeRecords .dead index buff = (false, m) := by
  have herase : ∀ n, m.eraseLoop WriteOutcome.dead.erase index n = m.flash := by
    intro n
    rw [eraseLoop]
    induction List.range n with
    | nil => rfl
    | cons i l ih =>
      rw [List.foldl_cons]
      split <;> exact ih
  rw [writeRecords]
  simp only [herase]
  split <;> rfl

namespace Logger

/-- A device with sensors, its ring and its indices. -/
structure Holds (f : SPIFlashMeter) (w r : Nat) (s : Logger) : Prop where
  sd_eq : s.sd = .plain 2 0 1
  flash : s.flash = f
  wIndex : s.wIndex = w
  rIndex : s.rIndex = r

section Dead

variable {fmt : Format} {s₀ s : Logger} {h : List Attempt} {f : SPIFlashMeter} {w r : Nat}

theorem Holds.attempt (hs : Holds f w r s) (fmt : Format) :
    s.wrote (sensorPass .dead) = some false ∧
      ∃ s', next fmt (.log (sensorPass .dead)) s = some s' ∧ s'.sd = s.sd ∧ s'.flash = s.flash := by
  obtain ⟨s₁, b, hb⟩ := sensorBatch_isSome .null 0 s.start
  have hbatch : s.start.batch (sensorPass .dead) = some (s₁, some b) := by
    have htype : s.start.sd.cfgG.type = 2 := congrArg (·.cfgG.type) hs.sd_eq
    simp only [batch, htype, sensorPass, hb, Option.bind_eq_bind, Option.bind_some,
      Option.pure_def]
  obtain ⟨⟨md, fd, wBuff, rfl⟩, _⟩ := batch_spec hbatch
  refine ⟨?_, { s.start with md, fd, wBuff }.writeBatch .dead b, ?_, writeBatch_sd _ _ _, ?_⟩
  · rw [wrote, hbatch]
    refine congrArg some ?_
    rw [SPIFlashMeter.writeData_eq]
    exact congrArg Prod.fst (SPIFlashMeter.writeRecords_dead _ _ _)
  · rw [next, logTask_eq, hbatch]
    rfl
  · rw [writeBatch_flash, SPIFlashMeter.writeRecords_dead]
    rfl

/-- Short of the escape it moves nothing. -/
theorem Holds.dead (hs : Holds f w r s) (fmt : Format) (hat : ¬ s.AtEscape) :
    s.wrote (sensorPass .dead) = some false ∧
      ∃ s', next fmt (.log (sensorPass .dead)) s = some s' ∧ Holds f w r s' := by
  obtain ⟨hwrote, s', hnext, hsd, hflash⟩ := hs.attempt fmt
  refine ⟨hwrote, s', hnext, ?_⟩
  rcases log_failed hnext hwrote with ⟨_, hw, hr⟩ | ⟨hskip, _⟩
  · exact ⟨hsd.trans hs.sd_eq, hflash.trans hs.flash, hw.trans hs.wIndex, hr.trans hs.rIndex⟩
  · exact absurd hskip hat

/-- **A row of failures** that is held up by a backlog, or too short. -/
theorem Attempted.dead (hrun : Attempted fmt s₀ h s) (hs : Holds f w r s) (k : Nat)
    (hshort : w = r → streak h w + k ≤ 2) :
    ∃ s', Attempted fmt s₀ (List.replicate k ⟨w, false, w⟩ ++ h) s' ∧ Holds f w r s' := by
  induction k with
  | zero => exact ⟨s, hrun, hs⟩
  | succ k ih =>
    obtain ⟨s₁, hrun₁, hs₁⟩ := ih fun hwr => by have := hshort hwr; omega
    have hat : ¬ s₁.AtEscape := by
      rintro ⟨hmax, hposted⟩
      rw [hs₁.wIndex, hs₁.rIndex] at hposted
      rw [hrun₁.fErrorCnt, hs₁.wIndex, streak_replicate, Nat.mod_add_mod, FLASH_ERROR_MAX] at hmax
      have := hshort hposted
      omega
    obtain ⟨hwrote, s₂, hnext, hs₂⟩ := hs₁.dead fmt hat
    refine ⟨s₂, ?_, hs₂⟩
    have hrun₂ := hrun₁.log hnext
    rw [hwrote, hs₁.wIndex, hs₂.wIndex] at hrun₂
    exact hrun₂

theorem Holds.post (hs : Holds f 1 0 s) (fmt : Format) :
    ∃ s', next fmt (.post (answers [])) s = some s' ∧ Holds f 1 1 s' := by
  have hw : s.start.wIndex = 1 := hs.wIndex
  have hr : s.start.rIndex = 0 := hs.rIndex
  have hsd : s.start.sd = .plain 2 0 1 := hs.sd_eq
  have hbatch : s.start.sd.cfgG.batch = 1 := by
    rw [hsd]
    rfl
  have hnum : s.start.numPost = 1 := by
    rw [numPost, hw, hr, hbatch]
    rfl
  obtain ⟨rBuff, hread⟩ : ∃ rBuff, s.start.readRecords .sensor (answers []).busy s.start.numPost =
      some (true, { s.start with rBuff }) := by
    rw [hnum]
    exact s.start.readRecords_idle .sensor (show 1 ≤ MAXMETER by decide)
  obtain ⟨s', hpost, hsends⟩ := @postTask_batch_sends fmt (answers []) s.start .sensor rBuff
    (by rw [hsd]; rfl) hread (by rw [hw]; decide) (by rw [hw, hr]; decide)
    (by rw [hnum]; decide) rfl rfl (by rw [hbatch]; decide)
  have hposted := postTask_posted hpost
  refine ⟨s', hpost, hposted.sd.trans hsd, hposted.flash.trans hs.flash, ?_, ?_⟩
  · obtain ⟨rBuff, posts, rfl | ⟨num, _, rfl⟩⟩ := hposted
    · exact hw
    · exact hw
  · rw [hsends.index, hr, hnum]

end Dead

/-- The third failure of a new device. -/
theorem movesOn_third :
    ∃ s s', Attempted .zero (newDevice 0 0) [⟨0, false, 0⟩, ⟨0, false, 0⟩] s ∧
      next .zero (.log (sensorPass .dead)) s = some s' ∧ MovesOn s s' := by
  have hboot : Attempted .zero (newDevice 0 0) [] booted := .boot (.plain 2 0 1)
  have hs₀ : Holds booted.flash 0 0 booted := ⟨rfl, rfl, rfl, rfl⟩
  obtain ⟨s, hrun, hs⟩ := hboot.dead hs₀ 2 (by decide)
  obtain ⟨hfail, s', hnext, _⟩ := hs.attempt .zero
  have hrow : streak (List.replicate 2 ⟨0, false, 0⟩ ++ []) s.wIndex = 2 := by
    rw [hs.wIndex, streak_replicate]
    rfl
  refine ⟨s, s', hrun, hnext, (movesOn_iff hrun hnext hfail ⟨?_, ?_⟩).mpr ⟨?_, ?_⟩⟩
  · rw [hrow]
  · rw [hs.wIndex, hs.rIndex]
  · rw [hrow]
    decide
  · rw [hs.wIndex]
    decide

/-- **The 256th failure** is not taken for the third: a record waits to be posted
while 255 writes fail, then it is posted, and the next write fails. -/
theorem not_movesOn :
    ∃ s s', Attempted .zero (newDevice 0 0)
        (List.replicate 255 ⟨1, false, 1⟩ ++ [⟨0, true, 1⟩]) s ∧
      next .zero (.log (sensorPass .dead)) s = some s' ∧
      s.wrote (sensorPass .dead) = some false ∧
      Due (List.replicate 255 ⟨1, false, 1⟩ ++ [⟨0, true, 1⟩]) s ∧
      s'.wIndex = 1 ∧ ¬ MovesOn s s' := by
  have hboot : Attempted .zero (newDevice 0 0) [] booted := .boot (.plain 2 0 1)
  have hfirst : (next .zero (.log (sensorPass .healthy)) booted).map
      (fun s => (s.wIndex, s.rIndex)) = some (1, 0) := by decide +kernel
  have hwrote : booted.wrote (sensorPass .healthy) = some true := by decide +kernel
  obtain ⟨s₁, hnext₁, heq⟩ := Option.map_eq_some_iff.mp hfirst
  obtain ⟨hw, hr⟩ := Prod.mk.inj heq
  have hrun₁ := hboot.log hnext₁
  rw [hwrote, hw] at hrun₁
  have hs₁ : Holds s₁.flash 1 0 s₁ := ⟨next_sd rfl hnext₁ trivial, rfl, hw, hr⟩
  obtain ⟨s₂, hrun₂, hs₂⟩ := hrun₁.dead hs₁ 255 (by decide)
  obtain ⟨s₃, hpost, hs₃⟩ := hs₂.post .zero
  have hrun₃ := hrun₂.post hpost
  have hcnt := hrun₃.fErrorCnt
  rw [hs₃.wIndex, streak_replicate] at hcnt
  have hat : ¬ s₃.AtEscape := by
    rintro ⟨hmax, _⟩
    rw [hcnt] at hmax
    exact absurd hmax (by decide)
  obtain ⟨hfail, s₄, hnext, hs₄⟩ := hs₃.dead .zero hat
  refine ⟨s₃, s₄, hrun₃, hnext, hfail, ⟨?_, ?_⟩, hs₄.wIndex, fun hmoves => ?_⟩
  · rw [hs₃.wIndex, streak_replicate]
    exact Nat.le_trans (by decide) (Nat.le_add_left 255 _)
  · rw [hs₃.wIndex, hs₃.rIndex]
  · have hlt := hmoves.wIndex.1.2
    rw [hs₃.wIndex, hs₄.wIndex] at hlt
    exact Nat.lt_irrefl _ hlt

end Logger

end EnresLogger
