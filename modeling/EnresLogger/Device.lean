import EnresLogger.Logger

/-!
# Runs of the device

`Label` lists what can happen next: a pass of `loop`, or a reset.  A reset can
fall between two passes, inside the flash write of a logging pass, or between
two stores to the NVRAM; then `setup` runs on what the chip and the NVRAM hold.

`logTask_cases` and `postTask_cases` say what a pass can do to the state.  All
invariants of runs are derived from them, and `Reach.invariant` is the induction.
-/

namespace EnresLogger

open Lib

namespace Logger

/-! ### The batch of a pass -/

/-- A logging pass up to the write: nothing is written when a reading failed or
the type is none of the three. -/
def batch (p : Pass) (s : Logger) : Option (Logger × Option Batch) :=
  match s.sd.cfgG.type with
  | 1 => do
      let (ok, md) ← s.readMeters p
      if ok then do
        let (s, b) ← { s with md }.meterBatch
        return (s, some b)
      else return ({ s with md }, none)
  | 2 => do
      let (s, b) ← s.sensorBatch p.fpu p.now
      return (s, some b)
  | 3 =>
      let r := readFlowData p.fpu (p.bus 0) s.fd s.sd.cfgF.id p.now s.sd.cfgF.adjust
      if r.1 = 0 then do
        let (s, b) ← { s with fd := r.2 }.flowBatch
        return (s, some b)
      else some ({ s with fd := r.2 }, none)
  | _ => some (s, none)

theorem batch_other {p : Pass} {s : Logger} (h1 : s.sd.cfgG.type = 1 → False)
    (h2 : s.sd.cfgG.type = 2 → False) (h3 : s.sd.cfgG.type = 3 → False) :
    s.batch p = some (s, none) := by
  rw [batch]
  split
  · exact (h1 ‹_›).elim
  · exact (h2 ‹_›).elim
  · exact (h3 ‹_›).elim
  · rfl

theorem logTask_eq (p : Pass) (s : Logger) :
    s.logTask p = (s.batch p).map fun x => match x.2 with
      | none => x.1
      | some b => x.1.writeBatch p.outcome b := by
  rw [logTask]
  split
  · rename_i htype
    simp only [batch, htype, ReadMeterToFlash_Task]
    cases s.readMeters p with
    | none => rfl
    | some r =>
      obtain ⟨ok, md⟩ := r
      cases ok with
      | false => rfl
      | true =>
        simp only [Option.bind_eq_bind, Option.bind_some, if_true, meterToFlash]
        cases meterBatch { s with md } <;> rfl
  · rename_i htype
    simp only [batch, htype, ReadSensorToFlash_Task, SensorToFlash]
    cases s.sensorBatch p.fpu p.now <;> rfl
  · rename_i htype
    simp only [batch, htype, ReadFlowToFlash_Task]
    split
    · rw [flowToFlash]
      cases flowBatch { s with fd := _ } <;> rfl
    · rfl
  · rename_i h1 h2 h3
    rw [batch_other h1 h2 h3]
    rfl

/-- The data of a batch is the bytes of its records. -/
structure Batch.Sound (b : Batch) : Prop where
  num : b.num = b.records.length
  le : b.num ≤ MAXMETER
  data : b.data = recordBytes b.records
  kind : ∀ x ∈ b.records, x.kind = b.kind

theorem Batch.Sound.length {b : Batch} (h : b.Sound) : b.data.length = 64 * b.num := by
  rw [h.data, recordBytes_length, h.num]

/-- What a logging pass has done to the state when it comes to the write. -/
def Prepared (s s₁ : Logger) : Prop :=
  ∃ md fd wBuff, s₁ = { s with md, fd, wBuff }

/-- A buffer that holds records hands them out. -/
theorem get_of_holds {c : Cursor 1344} {xs : List Record} (h : c.Holds (recordBytes xs)) {k : Nat}
    (hk : k = 64 * xs.length) : c.buf.get 0 k = some (recordBytes xs) := by
  have hb : c.buf.Begins ([] ++ (recordBytes xs ++ [])) := by
    rw [List.nil_append, List.append_nil]
    exact h.begins
  have := hb.get
  rw [recordBytes_length, ← hk] at this
  exact this

theorem meterBatch_spec {s s₁ : Logger} {b : Batch} (h : s.meterBatch = some (s₁, b)) :
    Prepared s s₁ ∧ b.Sound ∧ b.kind = .meter ∧ b.num = s.sd.cfgG.numMeter.toNat := by
  have hn : s.sd.cfgG.numMeter.toNat ≤ MAXMETER := by
    by_contra hn
    rw [meterBatch, fillMeters_none (Nat.lt_of_not_le hn)] at h
    cases h
  obtain ⟨c, hc, hold⟩ := fillMeters_holds hn s.sd.cfgM s.md s.wBuff
  have hlen := meterRecords_length hn s.sd.cfgM s.md
  simp only [meterBatch, hc, get_of_holds hold (k := RECSIZE * s.sd.cfgG.numMeter.toNat)
    (by rw [hlen]; rfl), Option.bind_eq_bind, Option.bind_some, Option.pure_def] at h
  cases h
  refine ⟨⟨_, _, _, rfl⟩, ⟨hlen.symm, hn, rfl, fun x hx => ?_⟩, rfl, rfl⟩
  obtain ⟨p, _, rfl⟩ := List.mem_map.mp hx
  rfl

theorem sensorBatch_spec {fpu : Fpu} {now : UInt32} {s s₁ : Logger} {b : Batch}
    (h : s.sensorBatch fpu now = some (s₁, b)) :
    Prepared s s₁ ∧ b.Sound ∧ b.kind = .sensor ∧ b.num = 1 := by
  obtain ⟨c, hc, hold⟩ := fillSensor_holds fpu s.sd.cfgS now s.wBuff
  simp only [sensorBatch, hc, get_of_holds hold (k := RECSIZESENSOR) rfl, Option.bind_eq_bind,
    Option.bind_some, Option.pure_def] at h
  cases h
  refine ⟨⟨_, _, _, rfl⟩, ⟨rfl, show 1 ≤ 21 by decide, rfl, fun x hx => ?_⟩, rfl, rfl⟩
  rw [List.mem_singleton.mp hx]
  rfl

theorem flowBatch_spec {s s₁ : Logger} {b : Batch} (h : s.flowBatch = some (s₁, b)) :
    Prepared s s₁ ∧ b.Sound ∧ b.kind = .flow ∧ b.num = 1 := by
  obtain ⟨c, hc, hold⟩ := fillFlow_holds s.sd.cfgF s.fd s.wBuff
  simp only [flowBatch, hc, get_of_holds hold (k := RECSIZE) rfl, Option.bind_eq_bind,
    Option.bind_some, Option.pure_def] at h
  cases h
  refine ⟨⟨_, _, _, rfl⟩, ⟨rfl, show 1 ≤ 21 by decide, rfl, fun x hx => ?_⟩, rfl, rfl⟩
  rw [List.mem_singleton.mp hx]
  rfl

/-- The kind of the records a type logs. -/
def kindOf (type : UInt8) : Option Kind :=
  match type with
  | 1 => some .meter
  | 2 => some .sensor
  | 3 => some .flow
  | _ => none

/-- The number of records a pass of the configured type writes. -/
def passSize (s : Logger) : Nat :=
  match s.sd.cfgG.type with
  | 1 => s.sd.cfgG.numMeter.toNat
  | 2 => 1
  | 3 => 1
  | _ => 0

/-- A batch of the configured type. -/
structure Batch.Of (s : Logger) (b : Batch) : Prop extends b.Sound where
  kindOf : kindOf s.sd.cfgG.type = some b.kind
  size : b.num = s.passSize

/-- **A pass prepares a sound batch** of the configured type. -/
theorem batch_spec {p : Pass} {s s₁ : Logger} {b? : Option Batch}
    (h : s.batch p = some (s₁, b?)) : Prepared s s₁ ∧ ∀ b, b? = some b → b.Of s := by
  rw [batch] at h
  split at h
  · rename_i htype
    obtain ⟨⟨ok, md⟩, _, h⟩ := Option.bind_eq_some_iff.mp h
    cases ok with
    | false =>
      cases h
      exact ⟨⟨_, _, _, rfl⟩, fun b hb => by cases hb⟩
    | true =>
      obtain ⟨⟨s₂, b⟩, hb, h⟩ := Option.bind_eq_some_iff.mp h
      cases h
      obtain ⟨⟨md', fd, wBuff, rfl⟩, hsound, hkind, hnum⟩ := meterBatch_spec hb
      refine ⟨⟨_, _, _, rfl⟩, fun b' hb' => ?_⟩
      cases hb'
      exact ⟨hsound, by rw [htype, hkind]; rfl, by rw [hnum, passSize, htype]; rfl⟩
  · rename_i htype
    obtain ⟨⟨s₂, b⟩, hb, h⟩ := Option.bind_eq_some_iff.mp h
    cases h
    obtain ⟨hprep, hsound, hkind, hnum⟩ := sensorBatch_spec hb
    refine ⟨hprep, fun b' hb' => ?_⟩
    cases hb'
    exact ⟨hsound, by rw [htype, hkind]; rfl, by rw [hnum, passSize, htype]; rfl⟩
  · rename_i htype
    dsimp only at h
    split at h
    · obtain ⟨⟨s₂, b⟩, hb, h⟩ := Option.bind_eq_some_iff.mp h
      cases h
      obtain ⟨⟨md', fd, wBuff, rfl⟩, hsound, hkind, hnum⟩ := flowBatch_spec hb
      refine ⟨⟨_, _, _, rfl⟩, fun b' hb' => ?_⟩
      cases hb'
      exact ⟨hsound, by rw [htype, hkind]; rfl, by rw [hnum, passSize, htype]; rfl⟩
    · cases h
      exact ⟨⟨_, _, _, rfl⟩, fun b hb => by cases hb⟩
  · cases h
    exact ⟨⟨_, _, _, rfl⟩, fun b hb => by cases hb⟩

/-! ### What a pass can do -/

/-- The third failure in a row, or a later one, with nothing left to post. -/
def AtEscape (s : Logger) : Prop :=
  FLASH_ERROR_MAX ≤ (s.fErrorCnt + 1) % 256 ∧ s.wIndex = s.rIndex

/-- The write of a batch: the indices go on, stay, or jump. -/
theorem writeBatch_cases (s : Logger) (o : WriteOutcome) (b : Batch) :
    let r := s.flash.writeData b.kind o s.wIndex b.data
    (r.1 = true ∧ s.writeBatch o b = { s with
        flash := r.2, wIndex := (s.wIndex + b.num) % 4294967296, fErrorCnt := 0
        commits := s.commits ++
          b.records.mapIdx fun i x => ((s.wIndex + i) % 4294967296, x) }.setWIndex) ∨
      (r.1 = false ∧ ¬ s.AtEscape ∧
        s.writeBatch o b = { s with flash := r.2, fErrorCnt := (s.fErrorCnt + 1) % 256 }) ∨
      (r.1 = false ∧ s.AtEscape ∧ s.writeBatch o b =
        ({ s with
          flash := r.2, fErrorCnt := 0
          wIndex := (s.wIndex / 64 + 1) * 64 % 4294967296
          rIndex := (s.wIndex / 64 + 1) * 64 % 4294967296 }.setRIndex).setWIndex) := by
  intro r
  cases hok : r.1 with
  | true =>
    refine Or.inl ⟨rfl, ?_⟩
    rw [writeBatch, afterWrite, if_pos hok]
  | false =>
    refine Or.inr ?_
    rw [writeBatch, afterWrite, if_neg (by rw [hok]; decide)]
    by_cases hskip : s.AtEscape
    · exact Or.inr ⟨rfl, hskip, if_pos hskip⟩
    · exact Or.inl ⟨rfl, hskip, if_neg hskip⟩

theorem writeBatch_sd (s : Logger) (o : WriteOutcome) (b : Batch) :
    (s.writeBatch o b).sd = s.sd := by
  rcases writeBatch_cases s o b with ⟨_, heq⟩ | ⟨_, _, heq⟩ | ⟨_, _, heq⟩ <;>
    exact (congrArg Logger.sd heq).trans rfl

theorem logTask_cases {p : Pass} {s s' : Logger} (h : s.logTask p = some s') :
    ∃ s₁, Prepared s s₁ ∧ (s' = s₁ ∨ ∃ b : Batch, b.Of s ∧ s' = s₁.writeBatch p.outcome b) := by
  rw [logTask_eq, Option.map_eq_some_iff] at h
  obtain ⟨⟨s₁, b?⟩, hb, rfl⟩ := h
  obtain ⟨hprep, hspec⟩ := batch_spec hb
  refine ⟨s₁, hprep, ?_⟩
  cases b? with
  | none => exact Or.inl rfl
  | some b => exact Or.inr ⟨b, hspec b rfl, rfl⟩

/-- What a post task can do: send some requests, and go on by `num` records that
were there. -/
def Posted (s s' : Logger) : Prop :=
  ∃ rBuff posts, s' = { s with rBuff, posts } ∨
    ∃ num, s.rIndex + num ≤ s.wIndex ∧ s' = { s with rBuff, posts }.advance num

theorem Posted.sd {s s' : Logger} (h : Posted s s') : s'.sd = s.sd := by
  obtain ⟨rBuff, posts, rfl | ⟨num, _, rfl⟩⟩ := h <;> rfl

theorem Posted.flash {s s' : Logger} (h : Posted s s') : s'.flash = s.flash := by
  obtain ⟨rBuff, posts, rfl | ⟨num, _, rfl⟩⟩ := h <;> rfl

theorem Posted.commits {s s' : Logger} (h : Posted s s') : s'.commits = s.commits := by
  obtain ⟨rBuff, posts, rfl | ⟨num, _, rfl⟩⟩ := h <;> rfl

theorem readRecords_spec {s s₁ : Logger} {kind : Kind} {busy : Bool × Bool} {num : Nat}
    {ok : Bool} (h : s.readRecords kind busy num = some (ok, s₁)) :
    ∃ rBuff, s₁ = { s with rBuff } := by
  obtain ⟨out, _, h⟩ := Option.bind_eq_some_iff.mp h
  obtain ⟨rBuff, _, h⟩ := Option.bind_eq_some_iff.mp h
  cases h
  exact ⟨rBuff, rfl⟩

theorem readRecords_begins {s s₁ : Logger} (hm : s.flash.Mounted) {kind : Kind}
    {busy : Bool × Bool} {num : Nat} (hnum : num ≤ 255) (hroom : num ≤ s.flash.maxRecord)
    (h : s.readRecords kind busy num = some (true, s₁)) :
    ∃ rBuff : RecordBuff, s₁ = { s with rBuff } ∧
      rBuff.Begins (s.flash.cells s.rIndex num) := by
  obtain ⟨out, hout, h⟩ := Option.bind_eq_some_iff.mp h
  obtain ⟨rBuff, hput, h⟩ := Option.bind_eq_some_iff.mp h
  obtain ⟨hok, rfl⟩ := Prod.mk.inj (Option.some.inj h)
  refine ⟨rBuff, rfl, ?_⟩
  rw [SPIFlashMeter.readData_eq] at hok hput
  rw [hm.readRecords_eq (Buf.get_length hout) hroom
    (SPIFlashMeter.partsFit_of_lt hm.pos (by omega)) hok] at hput
  exact Buf.put_begins hput

theorem postBatch_posted {s : Logger} {rBuff : RecordBuff} {kind : Kind} {num : Nat}
    {path playload : String} {httpCode : UInt16} (hnum : s.rIndex + num ≤ s.wIndex) :
    Posted s ({ s with rBuff }.postBatch kind num path playload httpCode) := by
  rw [postBatch]
  split
  · exact ⟨rBuff, _, Or.inl rfl⟩
  · exact ⟨rBuff, _, Or.inr ⟨num, hnum, rfl⟩⟩

theorem flashToBatchPost_posted {fmt : Format} {kind : Kind} {l : Layout} {path : String}
    {net : Network} {num : Nat} {s s' : Logger} (hnum : s.rIndex + num ≤ s.wIndex)
    (h : s.flashToBatchPost fmt kind l path net num = some s') : Posted s s' := by
  obtain ⟨⟨ok, s₁⟩, hread, h⟩ := Option.bind_eq_some_iff.mp h
  obtain ⟨rBuff, rfl⟩ := readRecords_spec hread
  cases ok with
  | false =>
    cases h
    exact ⟨rBuff, _, Or.inl rfl⟩
  | true =>
    obtain ⟨playload, _, h⟩ := Option.bind_eq_some_iff.mp h
    cases h
    exact postBatch_posted hnum

theorem flashSensorToBatchPost_posted {fmt : Format} {net : Network} {num : Nat} {s s' : Logger}
    (hnum : s.rIndex + num ≤ s.wIndex) (h : s.flashSensorToBatchPost fmt net num = some s') :
    Posted s s' := by
  obtain ⟨⟨ok, s₁⟩, hread, h⟩ := Option.bind_eq_some_iff.mp h
  obtain ⟨rBuff, rfl⟩ := readRecords_spec hread
  cases ok with
  | false =>
    cases h
    exact ⟨rBuff, _, Or.inl rfl⟩
  | true =>
    obtain ⟨body, _, h⟩ := Option.bind_eq_some_iff.mp h
    cases h
    exact postBatch_posted hnum

theorem singlePosts_posted {fmt : Format} {net : Network} {num : Nat} :
    ∀ (k i index : Nat) {s s' : Logger}, s.rIndex + num ≤ s.wIndex →
      s.singlePosts fmt net num k i index = some s' → Posted s s' := by
  intro k
  induction k with
  | zero =>
    intro i index s s' hnum h
    cases h
    exact ⟨s.rBuff, s.posts, Or.inr ⟨num, hnum, rfl⟩⟩
  | succ k ih =>
    intro i index s s' hnum h
    rw [singlePosts] at h
    obtain ⟨xid, _, h⟩ := Option.bind_eq_some_iff.mp h
    obtain ⟨mdt, _, h⟩ := Option.bind_eq_some_iff.mp h
    obtain ⟨st, _, h⟩ := Option.bind_eq_some_iff.mp h
    split at h
    · cases h
      exact ⟨s.rBuff, _, Or.inl rfl⟩
    · dsimp only at h
      have hrest := fun hnum => ih _ _ hnum h
      obtain ⟨rBuff, posts, hcase⟩ := hrest hnum
      exact ⟨rBuff, posts, hcase⟩

theorem flashMeterToPost_posted {fmt : Format} {net : Network} {num : Nat} {s s' : Logger}
    (hnum : s.rIndex + num ≤ s.wIndex) (h : s.flashMeterToPost fmt net num = some s') :
    Posted s s' := by
  obtain ⟨⟨ok, s₁⟩, hread, h⟩ := Option.bind_eq_some_iff.mp h
  obtain ⟨rBuff, rfl⟩ := readRecords_spec hread
  cases ok with
  | false =>
    cases h
    exact ⟨rBuff, _, Or.inl rfl⟩
  | true =>
    obtain ⟨rBuff', posts, hcase⟩ := singlePosts_posted num 0 0 (s := { s with rBuff }) hnum h
    exact ⟨rBuff', posts, hcase⟩

theorem readFlashToPost_posted {single batch : Nat → Logger → Option Logger} {net : Network}
    {s s' : Logger}
    (hsingle : ∀ num s', s.rIndex + num ≤ s.wIndex → single num s = some s' → Posted s s')
    (hbatch : ∀ num s', s.rIndex + num ≤ s.wIndex → batch num s = some s' → Posted s s')
    (h : readFlashToPost single batch net s = some s') : Posted s s' := by
  have hidle : Posted s s := ⟨s.rBuff, s.posts, Or.inl rfl⟩
  rw [readFlashToPost] at h
  split at h
  · split at h
    · split at h
      · refine hsingle _ s' ?_ h
        split <;> omega
      · refine hbatch _ s' ?_ h
        split <;> omega
    · cases h
      exact hidle
  · cases h
    exact hidle

/-- **What a post task can do.** -/
theorem postTask_posted {fmt : Format} {net : Network} {s s' : Logger}
    (h : s.postTask fmt net = some s') : Posted s s' := by
  have hidle : ∀ (num : Nat) (s' : Logger), s.rIndex + num ≤ s.wIndex → some s = some s' →
      Posted s s' := by
    intro _ s' _ h
    cases h
    exact ⟨s.rBuff, s.posts, Or.inl rfl⟩
  rw [postTask] at h
  split at h
  · rw [ReadFlashMeterToPost_Task] at h
    refine readFlashToPost_posted (fun num s' hnum h => flashMeterToPost_posted hnum h)
      (fun num s' hnum h => ?_) h
    rw [flashMeterToBatchPost] at h
    exact flashToBatchPost_posted hnum h
  · rw [ReadFlashSensorToPost_Task] at h
    exact readFlashToPost_posted hidle
      (fun num s' hnum h => flashSensorToBatchPost_posted hnum h) h
  · rw [ReadFlashFlowToPost_Task] at h
    refine readFlashToPost_posted hidle (fun num s' hnum h => ?_) h
    rw [flashFlowToBatchPost] at h
    exact flashToBatchPost_posted hnum h
  · cases h
    exact ⟨s.rBuff, s.posts, Or.inl rfl⟩

/-- What the server check can do: nothing, or a restart, with or without a reset
of the indices. -/
theorem serverChkTask_cases (wifi : Bool) (httpCode : UInt16) (restart : UInt8) (s : Logger) :
    s.serverChkTask wifi httpCode restart = (false, s) ∨
      s.serverChkTask wifi httpCode restart = (true, s) ∨
      s.serverChkTask wifi httpCode restart = (true, s.resetIndex) := by
  rw [serverChkTask]
  split
  · split
    · exact Or.inl rfl
    · split
      · exact Or.inr (Or.inl rfl)
      · split
        · exact Or.inr (Or.inr rfl)
        · exact Or.inl rfl
  · exact Or.inl rfl

/-! ### Steps -/

/-- The device as it is found when only `k` of the stores of a task were made. -/
def powerCut (s s' : Logger) (k : Nat) : Logger :=
  { s' with nv := (s'.stores.take k).foldl NVRAM.write s.nv }

/-- Where a reset falls in a logging pass: before its first program, when that
has begun, or behind `k` stores. -/
inductive Cut
  | erasing (o : Nat → EraseOutcome)
  | programming (o : WriteOutcome)
  | storing (k : Nat)

def cutBatch (s : Logger) (o : WriteOutcome) (b : Batch) : Cut → Logger
  | .erasing o => { s with
      flash := { s.flash with flash := s.flash.eraseLoop o s.wIndex b.num } }
  | .programming o => { s with flash := (s.flash.writeData b.kind o s.wIndex b.data).2 }
  | .storing k => s.powerCut (s.writeBatch o b) k

/-- What can happen next.  After a reset, `setup` finds the configuration `sd`. -/
inductive Label
  | log (p : Pass)
  | post (net : Network)
  | server (wifi : Bool) (httpCode : UInt16) (restart : UInt8) (sd : SDConfig)
  | restart (sd : SDConfig)
  | cutLog (p : Pass) (cut : Cut) (sd : SDConfig)
  | cutPost (net : Network) (k : Nat) (sd : SDConfig)
  /-- The server's reset of the indices, with `k + 1` of its stores made. -/
  | cutReset (k : Nat) (sd : SDConfig)

/-- The start of a task. -/
def start (s : Logger) : Logger := { s with stores := [] }

def next (fmt : Format) : Label → Logger → Option Logger
  | .log p, s => s.start.logTask p
  | .post net, s => s.start.postTask fmt net
  | .server wifi httpCode restart sd, s =>
      let r := s.start.serverChkTask wifi httpCode restart
      some (if r.1 then r.2.setup sd else r.2)
  | .restart sd, s => some (s.setup sd)
  | .cutLog p cut sd, s => do
      let (s₁, b?) ← s.start.batch p
      match b? with
      | none => return s₁.setup sd
      | some b => return (s₁.cutBatch p.outcome b cut).setup sd
  | .cutPost net k sd, s => do
      let s' ← s.start.postTask fmt net
      return (s.powerCut s' k).setup sd
  | .cutReset k sd, s => some ((s.powerCut s.start.resetIndex (k + 1)).setup sd)

theorem server_cases {fmt : Format} {wifi : Bool} {httpCode : UInt16} {restart : UInt8}
    {sd : SDConfig} {s s' : Logger} (h : next fmt (.server wifi httpCode restart sd) s = some s') :
    s' = s.start ∨ s' = s.start.setup sd ∨ s' = s.start.resetIndex.setup sd := by
  rw [next] at h
  rcases serverChkTask_cases wifi httpCode restart s.start with heq | heq | heq
  · rw [heq] at h
    cases h
    exact Or.inl rfl
  · rw [heq] at h
    cases h
    exact Or.inr (Or.inl rfl)
  · rw [heq] at h
    cases h
    exact Or.inr (Or.inr rfl)

theorem cutLog_cases {fmt : Format} {p : Pass} {cut : Cut} {sd : SDConfig} {s s' : Logger}
    (h : next fmt (.cutLog p cut sd) s = some s') :
    ∃ s₁, Prepared s.start s₁ ∧ (s' = s₁.setup sd ∨
      ∃ b : Batch, s.start.batch p = some (s₁, some b) ∧ b.Of s.start ∧
        s' = (s₁.cutBatch p.outcome b cut).setup sd) := by
  obtain ⟨⟨s₁, b?⟩, hbatch, h⟩ := Option.bind_eq_some_iff.mp h
  obtain ⟨hprep, hspec⟩ := batch_spec hbatch
  refine ⟨s₁, hprep, ?_⟩
  cases b? with
  | none =>
    cases h
    exact Or.inl rfl
  | some b =>
    cases h
    exact Or.inr ⟨b, hbatch, hspec b rfl, rfl⟩

/-- The first boot: whole, or with `k` stores of the initialisation made before
a reset, where `ok` allows it, and then again. -/
inductive Boot (ok : Nat → Prop) (s₀ : Logger) : Logger → Prop
  | whole (sd : SDConfig) : Boot ok s₀ (s₀.setup sd)
  | cut (k : Nat) (sd sd' : SDConfig) :
      ok k → Boot ok s₀ ((s₀.powerCut (s₀.setup sd) k).setup sd')

/-- A device before its first boot. -/
def factory (flash : SPIFlash) (sd : SDConfig) (nv : NVRAM) : Logger where
  flash := .begin flash RECSIZE
  sd := sd
  md := .replicate _ {}
  fd := {}
  wBuff := .replicate _ 0
  rBuff := .replicate _ 0
  wIndex := 0
  rIndex := 0
  fErrorCnt := 0
  nv := nv
  stores := []
  commits := []
  posts := []

/-- The states reached by steps that `ok` allows. -/
inductive Reach (fmt : Format) (ok : Logger → Label → Logger → Prop) (s₀ : Logger) :
    Logger → Prop
  | refl : Reach fmt ok s₀ s₀
  | step {s s' : Logger} {l : Label} :
      Reach fmt ok s₀ s → next fmt l s = some s' → ok s l s' → Reach fmt ok s₀ s'

/-- **The induction over runs.** -/
theorem Reach.invariant {fmt : Format} {ok : Logger → Label → Logger → Prop} {s₀ s : Logger}
    (h : Reach fmt ok s₀ s) (P : Logger → Prop) (h0 : P s₀)
    (hstep : ∀ s l s', P s → next fmt l s = some s' → ok s l s' → P s') : P s := by
  induction h with
  | refl => exact h0
  | step _ hnext hok ih => exact hstep _ _ _ ih hnext hok

/-- A run by its labels. -/
def run (fmt : Format) (ls : List Label) (s : Logger) : Option Logger :=
  ls.foldlM (fun s l => next fmt l s) s

theorem run_cons {fmt : Format} {l : Label} {ls : List Label} {s s₁ : Logger}
    (h : next fmt l s = some s₁) : s.run fmt (l :: ls) = s₁.run fmt ls := by
  rw [run, List.foldlM_cons, h]
  rfl

theorem run_append {fmt : Format} {ls ls' : List Label} {s s₁ : Logger}
    (h : s.run fmt ls = some s₁) : s.run fmt (ls ++ ls') = s₁.run fmt ls' := by
  rw [run, List.foldlM_append, ← run, h]
  rfl

theorem Reach.run {fmt : Format} {ok : Logger → Label → Logger → Prop} {s₀ s s' : Logger}
    {ls : List Label} (h : Reach fmt ok s₀ s) (hok : ∀ l ∈ ls, ∀ s s', ok s l s')
    (hrun : s.run fmt ls = some s') : Reach fmt ok s₀ s' := by
  induction ls generalizing s with
  | nil =>
    cases hrun
    exact h
  | cons l ls ih =>
    rw [Logger.run, List.foldlM_cons] at hrun
    obtain ⟨s₁, hnext, hrun⟩ := Option.bind_eq_some_iff.mp hrun
    exact ih (h.step hnext (hok l List.mem_cons_self s s₁))
      (fun l hl => hok l (List.mem_cons_of_mem _ hl)) hrun

end Logger

end EnresLogger
