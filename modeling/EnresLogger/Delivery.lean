import EnresLogger.Lib.Spool
import EnresLogger.Overrun

/-!
# Delivery in batches

In batch mode the ring and its two indices are a spool of records: a pass puts
the records it commits, a post that is answered with 200 takes the group it has
sent, and nothing else changes what is queued.  `Spools` is the relation between
the device and the spool, and `Spools.next` says that every step of the device
is a step of the spool.

A post reads its group out of the ring.  That the group read is the group queued
is `Kept` (a backlog of at most `_maxRecord - 84` leaves every pass room), and
that the payload says what the group says is `batchBody_eq`.
-/

namespace EnresLogger

open Lib SPIFlashMeter

namespace Logger

/-! ### A post -/

/-- **A read of live records leaves `rBuff` beginning with them.** -/
theorem Kept.readRecords {s s₁ : Logger} (h : s.Kept) {kind : Kind} {busy : Bool × Bool}
    {xs : List Record} (hw : s.rIndex + xs.length ≤ s.wIndex) (hlen : xs.length ≤ 255)
    (hxs : ∀ i (hi : i < xs.length), (s.rIndex + i, xs[i]) ∈ s.commits)
    (hread : s.readRecords kind busy xs.length = some (true, s₁)) :
    ∃ rBuff : RecordBuff, s₁ = { s with rBuff } ∧ rBuff.Begins (recordBytes xs) := by
  have hroom := h.room
  have hceil := le_ceilTo (show 0 < 64 by omega) s.wIndex
  obtain ⟨rBuff, hs₁, hbegins⟩ := readRecords_begins h.mounted hlen (by omega) hread
  rw [h.cells_eq (Nat.le_refl _) hxs] at hbegins
  exact ⟨rBuff, hs₁, hbegins⟩

/-- A batch post: the read is refused, or the records queued are sent. -/
theorem Kept.flashToBatchPost {s s' : Logger} (h : s.Kept) {fmt : Format} {kind : Kind}
    {l : Layout} {path : String} {net : Network} {xs : List Record}
    (hw : s.rIndex + xs.length ≤ s.wIndex) (hlen : xs.length ≤ 255)
    (hxs : ∀ i (hi : i < xs.length), (s.rIndex + i, xs[i]) ∈ s.commits)
    (hfit : ∀ x ∈ xs, x.Fits l)
    (hpost : s.flashToBatchPost fmt kind l path net xs.length = some s') :
    ∃ rBuff, s' = { s with rBuff } ∨ s' = { s with rBuff }.postBatch kind xs.length path
      (payloadText fmt l xs) (net.httpCode 0) := by
  obtain ⟨⟨ok, s₁⟩, hread, hpost⟩ := Option.bind_eq_some_iff.mp hpost
  cases ok with
  | false =>
    obtain ⟨rBuff, rfl⟩ := readRecords_spec hread
    cases hpost
    exact ⟨rBuff, Or.inl rfl⟩
  | true =>
    obtain ⟨rBuff, rfl, hbegins⟩ := h.readRecords hw hlen hxs hread
    simp only [if_true, batchBody_eq fmt hfit hbegins, Option.bind_eq_bind, Option.bind_some,
      Option.pure_def] at hpost
    cases hpost
    exact ⟨rBuff, Or.inr rfl⟩

/-- The labels of the configured type. -/
def layoutOf (type : UInt8) : Layout := if type = 1 then meterLayout else flowLayout

theorem Batch.Of.fits {s : Logger} {b : Batch} (hb : b.Of s)
    (htype : s.sd.cfgG.type = 1 ∨ s.sd.cfgG.type = 3) :
    ∀ x ∈ b.records, x.Fits (layoutOf s.sd.cfgG.type) := by
  intro x hx
  have hkind := hb.kindOf
  have hx := hb.toSound.kind x hx
  rcases htype with htype | htype
  · rw [htype] at hkind ⊢
    exact Record.fits_meter (hx.trans (Option.some.inj hkind).symm)
  · rw [htype] at hkind ⊢
    exact Record.fits_flow (hx.trans (Option.some.inj hkind).symm)

/-! ### The spool of a device -/

/-- The posts that were answered with 200. -/
def answered (s : Logger) : List Post := s.posts.filter (·.httpCode == 200)

/-- The device holds what the spool holds: the records queued are those of the
live indices, and the groups sent are the payloads answered with 200. -/
structure Spools (fmt : Format) (l : Layout) (s : Logger) (q : Spool (Nat × Record)) : Prop where
  commits : s.commits = q.entered
  sorted : s.commits.Pairwise (·.1 < ·.1)
  sent : ∀ e ∈ q.sent.flatten, e.1 < s.rIndex
  queued : q.queued.map (·.1) = List.range' s.rIndex (s.wIndex - s.rIndex)
  answered : s.answered.map (·.playload) = q.sent.map fun g => payloadText fmt l (g.map (·.2))
  fits : ∀ e ∈ s.commits, e.2.Fits l

section Spools

variable {fmt : Format} {l : Layout} {s s' : Logger} {q : Spool (Nat × Record)}

theorem Spools.queued_lt (h : Spools fmt l s q) (hle : s.rIndex ≤ s.wIndex) :
    ∀ e ∈ q.queued, s.rIndex ≤ e.1 ∧ e.1 < s.wIndex := by
  intro e he
  have := List.mem_map_of_mem (f := (·.1)) he
  rw [h.queued, List.mem_range'_1] at this
  omega

theorem Spools.queued_fst (h : Spools fmt l s q) {i : Nat} (hi : i < q.queued.length) :
    q.queued[i].1 = s.rIndex + i := by
  have hi' : i < (q.queued.map (·.1)).length := by rw [List.length_map]; exact hi
  have hidx : (q.queued.map (·.1))[i] = s.rIndex + i := by
    simp only [h.queued, List.getElem_range', Nat.one_mul]
  rw [List.getElem_map] at hidx
  exact hidx

theorem Spools.queued_mem (h : Spools fmt l s q) {i : Nat} (hi : i < q.queued.length) :
    (s.rIndex + i, q.queued[i].2) ∈ s.commits := by
  rw [← h.queued_fst hi, h.commits]
  exact List.mem_append_right _ (List.getElem_mem hi)

theorem Spools.queued_length (h : Spools fmt l s q) : q.queued.length = s.wIndex - s.rIndex := by
  rw [← List.length_map, h.queued, List.length_range']

theorem mapIdx_fst {w : Nat} {records : List Record} (hw : w + records.length < 4294967296) :
    (records.mapIdx fun i x => ((w + i) % 4294967296, x)).map (·.1) =
      List.range' w records.length := by
  refine List.ext_getElem (by simp) (fun i h1 h2 => ?_)
  simp only [List.length_map, List.length_mapIdx] at h1
  simp only [List.getElem_map, List.getElem_mapIdx, List.getElem_range', Nat.one_mul]
  exact Nat.mod_eq_of_lt (by omega)

theorem Spools.commits_lt (h : Spools fmt l s q) (hle : s.rIndex ≤ s.wIndex) :
    ∀ e ∈ s.commits, e.1 < s.wIndex := by
  intro e he
  rw [h.commits] at he
  rcases List.mem_append.mp he with he | he
  · exact Nat.lt_of_lt_of_le (h.sent e he) hle
  · exact (h.queued_lt hle e he).2

/-- **The records of a batch are put into the spool.** -/
theorem Spools.commit (h : Spools fmt l s q) (hle : s.rIndex ≤ s.wIndex) {b : Batch}
    (hb : b.Sound) (hfit : ∀ x ∈ b.records, x.Fits l) (hw : s.wIndex + b.num < 4294967296)
    (flash : SPIFlashMeter) :
    Spools fmt l (setWIndex { s with
        flash, wIndex := (s.wIndex + b.num) % 4294967296, fErrorCnt := 0
        commits := s.commits ++
          b.records.mapIdx fun i x => ((s.wIndex + i) % 4294967296, x) })
      (q.put (b.records.mapIdx fun i x => ((s.wIndex + i) % 4294967296, x))) := by
  have hfst := mapIdx_fst (show s.wIndex + b.records.length < 4294967296 by
    rw [← hb.num]
    exact hw)
  have hnew : ∀ e ∈ b.records.mapIdx fun i x => ((s.wIndex + i) % 4294967296, x),
      s.wIndex ≤ e.1 := by
    intro e he
    have := List.mem_map_of_mem (f := (·.1)) he
    rw [hfst, List.mem_range'_1] at this
    exact this.1
  refine ⟨?_, ?_, h.sent, ?_, h.answered, ?_⟩
  · rw [Spool.put_entered, ← h.commits]
    rfl
  · refine List.pairwise_append.mpr ⟨h.sorted, ?_, fun e he e' he' => ?_⟩
    · have hpair : (List.range' s.wIndex b.records.length).Pairwise (· < ·) :=
        List.pairwise_lt_range'
      rw [← hfst] at hpair
      exact List.pairwise_map.mp hpair
    · exact Nat.lt_of_lt_of_le (h.commits_lt hle e he) (hnew e' he')
  · show (q.queued ++ _).map (·.1) =
      List.range' s.rIndex ((s.wIndex + b.num) % 4294967296 - s.rIndex)
    rw [List.map_append, h.queued, hfst, Nat.mod_eq_of_lt hw, ← hb.num,
      show s.wIndex + b.num - s.rIndex = (s.wIndex - s.rIndex) + b.num by omega,
      ← List.range'_append_1, Nat.add_sub_cancel' hle]
  · intro e he
    rcases List.mem_append.mp he with he | he
    · exact h.fits e he
    · obtain ⟨i, hi, rfl⟩ := List.mem_mapIdx.mp he
      exact hfit _ (List.getElem_mem hi)

/-- With nothing queued both indices may go on together. -/
theorem Spools.jump (h : Spools fmt l s q) (hposted : s.wIndex = s.rIndex) {w : Nat}
    (hw : s.wIndex ≤ w) (flash : SPIFlashMeter) :
    Spools fmt l (setWIndex (setRIndex { s with
      flash, fErrorCnt := 0, wIndex := w, rIndex := w })) q := by
  have hnil : q.queued = [] := by
    have := h.queued_length
    rw [hposted, Nat.sub_self] at this
    exact List.eq_nil_of_length_eq_zero this
  refine ⟨h.commits, h.sorted, fun e he => ?_, ?_, h.answered, h.fits⟩
  · have := h.sent e he
    show e.1 < w
    omega
  · show q.queued.map (·.1) = List.range' w (w - w)
    rw [hnil, Nat.sub_self]
    rfl

/-- **A pass is a step of the spool.** -/
theorem Spools.writeBatch (h : Spools fmt l s q) (hback : s.Backed) (o : WriteOutcome) {b : Batch}
    (hb : b.Sound) (hfit : ∀ x ∈ b.records, x.Fits l)
    (hround : s.wIndex ≤ (s.writeBatch o b).wIndex) :
    ∃ q', q.Step q' ∧ Spools fmt l (s.writeBatch o b) q' := by
  have hlt := hback.lt
  have hnum := hb.le
  simp only [MAXMETER] at hnum
  rcases writeBatch_cases s o b with ⟨_, heq⟩ | ⟨_, _, heq⟩ | ⟨_, hesc, heq⟩
  · rw [heq] at hround ⊢
    change s.wIndex ≤ (s.wIndex + b.num) % 4294967296 at hround
    exact ⟨_, .put _, h.commit hback.spans.1 hb hfit (by omega) _⟩
  · rw [heq]
    exact ⟨q, .idle, h.commits, h.sorted, h.sent, h.queued, h.answered, h.fits⟩
  · rw [heq] at hround ⊢
    exact ⟨q, .idle, h.jump hesc.2 hround _⟩

/-- **A request is a step of the spool**: the group is taken if it is answered
with 200. -/
theorem Spools.postBatch (h : Spools fmt l s q) (hlt : s.wIndex < 4294967296) {kind : Kind}
    {num : Nat} (hnum : s.rIndex + num ≤ s.wIndex) (path : String) (httpCode : UInt16) :
    ∃ q', q.Step q' ∧ Spools fmt l (s.postBatch kind num path
      (payloadText fmt l ((q.queued.take num).map (·.2))) httpCode) q' := by
  have hmod : (s.rIndex + num) % 4294967296 = s.rIndex + num := Nat.mod_eq_of_lt (by omega)
  rw [Logger.postBatch]
  split
  · rename_i hcode
    refine ⟨q, .idle, h.commits, h.sorted, h.sent, h.queued, ?_, h.fits⟩
    rw [← h.answered, Logger.answered, Logger.answered, List.filter_append,
      List.filter_cons_of_neg (by simpa using hcode), List.filter_nil, List.append_nil]
  · rename_i hcode
    have hcode : httpCode = 200 := by simpa using hcode
    refine ⟨_, .take num, ?_, h.sorted, ?_, ?_, ?_, h.fits⟩
    · rw [Spool.take_entered, ← h.commits]
      rfl
    · intro e he
      show e.1 < (s.rIndex + num) % 4294967296
      rw [hmod]
      rw [Spool.take, List.flatten_append] at he
      rcases List.mem_append.mp he with he | he
      · exact Nat.lt_of_lt_of_le (h.sent e he) (Nat.le_add_right _ _)
      · rw [List.flatten_singleton] at he
        obtain ⟨i, hi, rfl⟩ := List.mem_take_iff_getElem.mp he
        rw [h.queued_fst]
        omega
    · show (q.queued.drop num).map (·.1) = List.range' ((s.rIndex + num) % 4294967296)
        (s.wIndex - (s.rIndex + num) % 4294967296)
      rw [hmod, List.map_drop, h.queued, List.drop_range', Nat.mul_one, Nat.sub_sub]
    · show (List.filter _ (s.posts ++ _)).map (·.playload) = _
      rw [List.filter_append, List.filter_cons_of_pos (by simpa using hcode), List.filter_nil,
        List.map_append]
      have := h.answered
      rw [Logger.answered] at this
      rw [this, Spool.take, List.map_append]
      rfl

theorem Spools.flashToBatchPost (h : Spools fmt l s q) (hkept : s.Kept) {kind : Kind}
    {path : String} {net : Network} {num : Nat} (hnum : num ≤ 255)
    (hw : s.rIndex + num ≤ s.wIndex)
    (hpost : s.flashToBatchPost fmt kind l path net num = some s') :
    ∃ q', q.Step q' ∧ Spools fmt l s' q' := by
  have hlen : ((q.queued.take num).map (·.2)).length = num := by
    rw [List.length_map, List.length_take, h.queued_length]
    omega
  have hxs : ∀ i (hi : i < ((q.queued.take num).map (·.2)).length),
      (s.rIndex + i, ((q.queued.take num).map (·.2))[i]) ∈ s.commits := by
    intro i hi
    rw [List.getElem_map, List.getElem_take]
    exact h.queued_mem _
  have hfit : ∀ x ∈ (q.queued.take num).map (·.2), x.Fits l := by
    intro x hx
    obtain ⟨e, he, rfl⟩ := List.mem_map.mp hx
    refine h.fits e ?_
    rw [h.commits]
    exact List.mem_append_right _ (List.mem_of_mem_take he)
  rw [← hlen] at hpost
  obtain ⟨rBuff, rfl | rfl⟩ := hkept.flashToBatchPost (by rw [hlen]; exact hw)
    (by rw [hlen]; exact hnum) hxs hfit hpost
  · exact ⟨q, .idle, h.commits, h.sorted, h.sent, h.queued, h.answered, h.fits⟩
  · rw [hlen]
    have h' : Spools fmt l { s with rBuff } q :=
      ⟨h.commits, h.sorted, h.sent, h.queued, h.answered, h.fits⟩
    exact h'.postBatch hkept.backed.lt hw path _

end Spools

theorem readFlashToPost_batch {single batch : Nat → Logger → Option Logger} {net : Network}
    {s s' : Logger} (hbatch : s.sd.cfgG.batch ≠ 0)
    (h : readFlashToPost single batch net s = some s') :
    s' = s ∨ ∃ num, num ≤ s.sd.cfgG.batch.toNat ∧ s.rIndex + num ≤ s.wIndex ∧
      batch num s = some s' := by
  rw [readFlashToPost] at h
  split at h
  · split at h
    · simp only at h
      refine Or.inr ⟨_, ?_, ?_, h⟩ <;> split <;> omega
    · exact Or.inl (Option.some.inj h).symm
  · exact Or.inl (Option.some.inj h).symm

/-- What the runs are about: the type and the batch that batch mode has. -/
structure BatchMode (s : Logger) : Prop where
  type : s.sd.cfgG.type = 1 ∨ s.sd.cfgG.type = 3
  pos : s.sd.cfgG.batch ≠ 0

theorem Spools.postTask {fmt : Format} {s s' : Logger} {q : Spool (Nat × Record)}
    (h : Spools fmt (layoutOf s.sd.cfgG.type) s q) (hkept : s.Kept) (hmode : s.BatchMode)
    {net : Network} (hpost : s.postTask fmt net = some s') :
    ∃ q', q.Step q' ∧ Spools fmt (layoutOf s.sd.cfgG.type) s' q' := by
  have hbatch : s.sd.cfgG.batch.toNat ≤ 255 := Nat.le_of_lt_succ (UInt8.toNat_lt _)
  rcases hmode.type with htype | htype
  · rw [Logger.postTask, htype] at hpost
    rw [htype] at h ⊢
    rcases readFlashToPost_batch hmode.pos hpost with rfl | ⟨num, hle, hw, hpost⟩
    · exact ⟨q, .idle, h⟩
    · exact h.flashToBatchPost hkept (by omega) hw hpost
  · rw [Logger.postTask, htype] at hpost
    rw [htype] at h ⊢
    rcases readFlashToPost_batch hmode.pos hpost with rfl | ⟨num, hle, hw, hpost⟩
    · exact ⟨q, .idle, h⟩
    · exact h.flashToBatchPost hkept (by omega) hw hpost

/-! ### Runs -/

/-- A logging pass or a post, with a backlog that leaves the passes room. -/
def Backlogged (s : Logger) (l : Label) (s' : Logger) : Prop :=
  s.wIndex + 84 ≤ s.rIndex + s.flash.maxRecord ∧
    match l with
    | .log _ => s.wIndex + s.passSize ≤ 4294967296 ∧ s.wIndex ≤ s'.wIndex
    | .post _ => True
    | _ => False

/-- The device in a run of batch mode, with its spool. -/
structure Delivers (fmt : Format) (sd : SDConfig) (s : Logger) : Prop where
  sd_eq : s.sd = sd
  kept : s.Kept
  spools : ∃ q, Spools fmt (layoutOf sd.cfgG.type) s q

theorem Fresh.delivers {s : Logger} (h : s.Fresh) (fmt : Format) : Delivers fmt s.sd s := by
  refine ⟨rfl, h.kept, .empty, ?_, ?_, ?_, ?_, ?_, ?_⟩
  · rw [h.commits]
    rfl
  · rw [h.commits]
    exact List.Pairwise.nil
  · intro e he
    cases he
  · rw [h.rIndex, h.wIndex]
    rfl
  · rw [answered, h.posts]
    rfl
  · intro e he
    rw [h.commits] at he
    cases he

/-- A backlog of at most `_maxRecord - 84` leaves every pass room. -/
theorem hasRoom_of_backlog {s : Logger} (hsize : s.passSize ≤ MAXMETER)
    (h : s.wIndex + 84 ≤ s.rIndex + s.flash.maxRecord) : s.HasRoom := by
  intro i hi _
  simp only [MAXMETER] at hsize
  omega

theorem Delivers.next {fmt : Format} {sd : SDConfig} {s s' : Logger} {l : Label}
    (h : Delivers fmt sd s) (hmode : s.BatchMode) (hnext : Logger.next fmt l s = some s')
    (hl : Backlogged s l s') : Delivers fmt sd s' := by
  obtain ⟨hback, hl⟩ := hl
  obtain ⟨hsd, hkept, q, hq⟩ := h
  have hstart : Spools fmt (layoutOf sd.cfgG.type) s.start q :=
    ⟨hq.commits, hq.sorted, hq.sent, hq.queued, hq.answered, hq.fits⟩
  cases l with
  | log p =>
    obtain ⟨s₁, hprep, hcase⟩ := log_cases hnext
    have hs₁ := hkept.start.prepared hprep
    obtain ⟨md, fd, wBuff, rfl⟩ := hprep
    have hq₁ : Spools fmt (layoutOf sd.cfgG.type) { s.start with md, fd, wBuff } q :=
      ⟨hq.commits, hq.sorted, hq.sent, hq.queued, hq.answered, hq.fits⟩
    rcases hcase with rfl | ⟨b, hb, rfl⟩
    · exact ⟨hsd, hs₁, q, hq₁⟩
    · have hsize : s.passSize ≤ MAXMETER := by
        have := hb.toSound.le
        rw [hb.size] at this
        exact this
      obtain ⟨q', _, hq'⟩ := hq₁.writeBatch hs₁.backed p.outcome hb.toSound
        (by rw [← hsd]; exact hb.fits hmode.type) hl.2
      exact ⟨(writeBatch_sd _ _ _).trans hsd,
        hs₁.writeBatch p.outcome hb (hasRoom_of_backlog hsize hback) hl.1 hl.2, q', hq'⟩
  | post net =>
    subst hsd
    obtain ⟨q', _, hq'⟩ := hstart.postTask hkept.start ⟨hmode.type, hmode.pos⟩ hnext
    have hposted := postTask_posted hnext
    exact ⟨hposted.sd, hkept.start.posted hposted, q', hq'⟩
  | restart => exact hl.elim
  | server => exact hl.elim
  | cutLog => exact hl.elim
  | cutPost => exact hl.elim
  | cutReset => exact hl.elim

/-- **What was queued has been sent, once and in order.** -/
theorem Spools.delivered {fmt : Format} {l : Layout} {s : Logger} {q : Spool (Nat × Record)}
    (h : Spools fmt l s q) :
    ∃ groups : List (List Record),
      s.answered.map (·.playload) = groups.map (payloadText fmt l) ∧
        groups.flatten = (s.commits.filter (·.1 < s.rIndex)).map (·.2) := by
  refine ⟨q.sent.map (List.map (·.2)), ?_, ?_⟩
  · rw [h.answered, List.map_map]
    rfl
  · rw [h.commits, Spool.filter_entered, List.map_flatten]
    · intro e he
      simpa using h.sent e he
    · intro e he
      obtain ⟨i, hi, rfl⟩ := List.getElem_of_mem he
      simp [h.queued_fst hi]

/-- **Exactly once and in order.**  In batch mode, whatever the writes, the
reads and the requests come to: the payloads answered with 200 are those of
groups of records, and the groups one after the other are the records committed
under the indices below `rIndex`, by index. -/
theorem delivered_once {fmt : Format} {s₀ s : Logger} (h₀ : s₀.Fresh) (hmode : s₀.BatchMode)
    (hrun : Reach fmt Backlogged s₀ s) :
    s.commits.Pairwise (·.1 < ·.1) ∧ ∃ groups : List (List Record),
      s.answered.map (·.playload) = groups.map (payloadText fmt (layoutOf s₀.sd.cfgG.type)) ∧
        groups.flatten = (s.commits.filter (·.1 < s.rIndex)).map (·.2) := by
  have h := hrun.invariant (Delivers fmt s₀.sd) (h₀.delivers fmt)
    (fun s l s' h hnext hl => h.next
      ⟨by rw [h.sd_eq]; exact hmode.type, by rw [h.sd_eq]; exact hmode.pos⟩ hnext hl)
  obtain ⟨q, hq⟩ := h.spools
  exact ⟨hq.sorted, hq.delivered⟩

/-- A device with two meters that posts three records at a time. -/
def twoMeters : Logger :=
  (factory (blankChip 65536) (.plain 1 2 3) ⟨0, 0, 0⟩).setup (.plain 1 2 3)

theorem twoMeters_fresh : twoMeters.Fresh :=
  ⟨rfl, rfl, rfl, rfl, rfl, mounted_begin (f := blankChip 65536) (by decide) (by decide)
    (by decide)⟩

/-- One pass and one post: two records are logged and sent. -/
theorem delivered_once_first :
    ∃ s, twoMeters.run .zero [.log (sensorPass .healthy), .post ⟨true, (false, false), fun _ => 200⟩]
        = some s ∧ s.rIndex = 2 ∧ s.commits.Pairwise (·.1 < ·.1) ∧
      ∃ groups : List (List Record),
        s.answered.map (·.playload) = groups.map (payloadText .zero meterLayout) ∧
          groups.flatten = (s.commits.filter (·.1 < s.rIndex)).map (·.2) := by
  have hrun : ((next .zero (.log (sensorPass .healthy)) twoMeters).bind fun s₁ =>
      (next .zero (.post ⟨true, (false, false), fun _ => 200⟩) s₁).map fun s₂ =>
        (s₁.wIndex, s₁.rIndex, s₁.flash.maxRecord, s₂.rIndex)) = some (2, 0, 896, 2) := by
    decide +kernel
  obtain ⟨s₁, h₁, hrun⟩ := Option.bind_eq_some_iff.mp hrun
  obtain ⟨s₂, hnext, heq⟩ := Option.map_eq_some_iff.mp hrun
  obtain ⟨hw, hr, hmax, hs₂⟩ : s₁.wIndex = 2 ∧ s₁.rIndex = 0 ∧ s₁.flash.maxRecord = 896 ∧
      s₂.rIndex = 2 := by
    simpa using heq
  have h₂ : twoMeters.run .zero [.log (sensorPass .healthy),
      .post ⟨true, (false, false), fun _ => 200⟩] = some s₂ :=
    (run_cons h₁).trans (run_cons hnext)
  have hsd : twoMeters.sd = .plain 1 2 3 := rfl
  have hmode : twoMeters.BatchMode := ⟨Or.inl (by rw [hsd]; rfl), by rw [hsd]; decide⟩
  have hstep₁ : Backlogged twoMeters (.log (sensorPass .healthy)) s₁ :=
    ⟨show 0 + 84 ≤ 0 + 896 by decide, show 0 + 2 ≤ 4294967296 by decide, Nat.zero_le s₁.wIndex⟩
  have hstep₂ : Backlogged s₁ (.post ⟨true, (false, false), fun _ => 200⟩) s₂ :=
    ⟨by rw [hw, hr, hmax]; decide, trivial⟩
  have h := delivered_once twoMeters_fresh hmode ((Reach.refl.step h₁ hstep₁).step hnext hstep₂)
  rw [hsd] at h
  exact ⟨s₂, h₂, hs₂, h⟩

end Logger

end EnresLogger
