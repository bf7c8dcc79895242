import EnresLogger.Progress

/-!
# Records and their decoders

Meters, sensors and the flow meter share one ring and one pair of indices, and
nothing in a record says which encoder wrote it.  The decoder is chosen by the
type that the configuration has at the time of the post.

`Stored` says that the records between the indices are in the ring and of the
kind of the present type.  A write leaves them alone if it has room
(`Stored.disturb`) and adds records of its own kind (`Stored.write`); a boot keeps
it if it brings the same type or finds nothing pending (`Stored.retype`).  A post
decodes what is stored (`Typed.sent`), so `decodes_own_kind` follows by
induction over the run, resets included.

A boot that changes the type over a pending record is all it takes to go wrong:
`not_own_kind`.
-/

namespace EnresLogger

open Lib SPIFlashMeter

theorem SPIFlashMeter.Mounted.eraseLoop_frame {m : SPIFlashMeter} (hm : m.Mounted)
    (o : Nat → EraseOutcome) {index n k : Nat} (hidx : index + n ≤ 4294967296)
    (hk : ∀ j, index ≤ j → j < ceilTo 64 (index + n) → j % m.maxRecord ≠ k) :
    cell { m with flash := m.eraseLoop o index n } k = m.cell k := by
  have hlow := le_ceilTo (show 0 < 64 by omega) index
  obtain ⟨new, h, hwin⟩ := hm.eraseLoop_effect o n hidx
  exact h.read_eq (fun c hc x h1 h2 =>
    (hwin c hc).not_covers (fun j hj1 hj2 => hk j (by omega) hj2) h1 h2)

namespace Logger

/-! ### Pending records -/

/-- The records from `r` up to `w` lie in the ring, and are of the kind that
`type` logs. -/
structure Stored (m : SPIFlashMeter) (commits : List (Nat × Record)) (type : UInt8) (r w : Nat) :
    Prop where
  room : ceilTo 64 w ≤ r + m.maxRecord
  records : ∀ j, r ≤ j → j < w → ∃ x, (j, x) ∈ commits ∧ kindOf type = some x.kind ∧
    m.cell (j % m.maxRecord) = x.bytes

section Stored

variable {m m' : SPIFlashMeter} {commits : List (Nat × Record)} {type : UInt8} {r w : Nat}

theorem Stored.empty (hm : m.Mounted) : Stored m commits type w w := by
  have h1 := ceilTo_lt (show 0 < 64 by omega) w
  have h2 := hm.le_max
  exact ⟨by omega, fun j hj1 hj2 => by omega⟩

theorem Stored.advance (h : Stored m commits type r w) (n : Nat) :
    Stored m commits type (r + n) w := by
  have hroom := h.room
  exact ⟨by omega, fun j hj1 hj2 => h.records j (by omega) hj2⟩

theorem Stored.append (h : Stored m commits type r w) (new : List (Nat × Record)) :
    Stored m (commits ++ new) type r w := by
  refine ⟨h.room, fun j hj1 hj2 => ?_⟩
  obtain ⟨x, hx, hrest⟩ := h.records j hj1 hj2
  exact ⟨x, List.mem_append_left _ hx, hrest⟩

/-- A boot with another type, over an empty queue. -/
theorem Stored.retype {type' : UInt8} (h : Stored m commits type r w)
    (htype : r < w → type' = type) : Stored m commits type' r w := by
  refine ⟨h.room, fun j hj1 hj2 => ?_⟩
  rw [htype (by omega)]
  exact h.records j hj1 hj2

/-- **What is disturbed from `w` on, up to one lap behind `r`, is not pending.** -/
theorem Stored.disturb (h : Stored m commits type r w) {hi : Nat}
    (hmax : m'.maxRecord = m.maxRecord) (hhi : hi ≤ r + m.maxRecord)
    (hframe : ∀ k, (∀ j, w ≤ j → j < hi → j % m.maxRecord ≠ k) → m'.cell k = m.cell k) :
    Stored m' commits type r w := by
  refine ⟨by rw [hmax]; exact h.room, fun j hj1 hj2 => ?_⟩
  obtain ⟨x, hx, hkind, hcell⟩ := h.records j hj1 hj2
  refine ⟨x, hx, hkind, ?_⟩
  rw [hmax, hframe _ (fun i hi1 hi2 => (ring_ne (by omega) (by omega)).symm)]
  exact hcell

/-- **A write that reports success adds its records.** -/
theorem Stored.write (h : Stored m commits type r w) (hm : m.Mounted) {b : Batch} (hb : b.Sound)
    (hkind : kindOf type = some b.kind) {o : WriteOutcome}
    (hok : (m.writeRecords o w b.data).1 = true) (hw : w + b.num < 4294967296)
    (hroom : ceilTo 64 (w + b.num) ≤ r + m.maxRecord) :
    Stored (m.writeRecords o w b.data).2
      (commits ++ b.records.mapIdx fun i x => ((w + i) % 4294967296, x)) type r (w + b.num) := by
  have hnum := hb.le
  simp only [MAXMETER] at hnum
  have hkeep : Stored (m.writeRecords o w b.data).2 commits type r w :=
    h.disturb (writeRecords_maxRecord _ _ _ _) hroom
      (fun k hk => hm.writeRecords_frame o hb.length (by omega) (by omega) hk)
  have hold := hkeep.append (b.records.mapIdx fun i x => ((w + i) % 4294967296, x))
  refine ⟨by rw [writeRecords_maxRecord]; exact hroom, fun j hj1 hj2 => ?_⟩
  by_cases hj : j < w
  · exact hold.records j hj1 hj
  · have hi : j - w < b.records.length := by
      rw [← hb.num]
      omega
    refine ⟨b.records[j - w], List.mem_append_right _ ?_, ?_, ?_⟩
    · rw [List.mem_mapIdx]
      exact ⟨j - w, hi, by rw [Nat.add_sub_cancel' (by omega), Nat.mod_eq_of_lt (by omega)]⟩
    · rw [hb.kind _ (List.getElem_mem hi)]
      exact hkind
    · have hcell := hm.writeRecords_cell hb.length (by omega) hok (k := j - w) (by omega)
      rw [Nat.add_sub_cancel' (by omega)] at hcell
      rw [writeRecords_maxRecord, hcell]
      exact hb.record hi

end Stored

/-! ### Steps -/

/-- The state between two tasks. -/
structure Typed (s : Logger) : Prop where
  backed : s.Backed
  mounted : s.flash.Mounted
  stored : Stored s.flash s.commits s.sd.cfgG.type s.rIndex s.wIndex

theorem Typed.start {s : Logger} (h : s.Typed) : s.start.Typed :=
  ⟨h.backed.start, h.mounted, h.stored⟩

theorem Typed.prepared {s s₁ : Logger} (h : s.Typed) (hp : Prepared s s₁) : s₁.Typed := by
  obtain ⟨md, fd, wBuff, rfl⟩ := hp
  exact ⟨h.backed.prepared ⟨md, fd, wBuff, rfl⟩, h.mounted, h.stored⟩

theorem Typed.posted {s s' : Logger} (h : s.Typed) (hp : Posted s s') : s'.Typed := by
  have hback := h.backed.posted hp
  have hlt := h.backed.lt
  obtain ⟨rBuff, posts, rfl | ⟨num, hnum, rfl⟩⟩ := hp
  · exact ⟨hback, h.mounted, h.stored⟩
  · refine ⟨hback, h.mounted, ?_⟩
    simp only [Logger.advance, setRIndex, store,
      Nat.mod_eq_of_lt (show s.rIndex + num < 4294967296 by omega)]
    exact h.stored.advance num

/-- A pass has room, and its indices are below `2^32`. -/
def PassFits (s : Logger) : Prop := s.wIndex + s.passSize < 4294967296 ∧ s.HasRoom

/-- The furthest mark of the write of a pass that fits. -/
theorem Typed.mark {s : Logger} (h : s.Typed) (hfits : s.PassFits) {b : Batch} (hb : b.Of s) :
    ceilTo 64 (s.wIndex + b.num) ≤ s.rIndex + s.flash.maxRecord := by
  rw [hb.size]
  exact hfits.2.mark h.stored.room

theorem Typed.stored_write {s : Logger} (h : s.Typed) (hfits : s.PassFits) (o : WriteOutcome)
    {b : Batch} (hb : b.Of s) :
    Stored (s.writeBatch o b).flash s.commits s.sd.cfgG.type s.rIndex s.wIndex := by
  have hle := hb.toSound.le
  have hw := hfits.1
  rw [← hb.size] at hw
  simp only [MAXMETER] at hle
  rw [writeBatch_flash]
  exact h.stored.disturb (writeRecords_maxRecord _ _ _ _) (h.mark hfits hb)
    (fun k hk => h.mounted.writeRecords_frame o hb.toSound.length (by omega) (by omega) hk)

theorem Typed.mounted_write {s : Logger} (h : s.Typed) (hfits : s.PassFits) (o : WriteOutcome)
    {b : Batch} (hb : b.Of s) : (s.writeBatch o b).flash.Mounted := by
  have hle := hb.toSound.le
  have hw := hfits.1
  rw [← hb.size] at hw
  simp only [MAXMETER] at hle
  rw [writeBatch_flash]
  exact h.mounted.writeRecords_mounted o hb.toSound.length (by omega) (by omega)

theorem Typed.stored_committed {s : Logger} (h : s.Typed) (hfits : s.PassFits) {o : WriteOutcome}
    {b : Batch} (hb : b.Of s) (hok : (s.flash.writeData b.kind o s.wIndex b.data).1 = true) :
    Stored (s.writeBatch o b).flash
      (s.commits ++ b.records.mapIdx fun i x => ((s.wIndex + i) % 4294967296, x))
      s.sd.cfgG.type s.rIndex (s.wIndex + b.num) := by
  have hw := hfits.1
  rw [← hb.size] at hw
  rw [writeData_eq] at hok
  rw [writeBatch_flash]
  exact h.stored.write h.mounted hb.toSound hb.kindOf hok hw (h.mark hfits hb)

/-- **A pass that fits keeps the pending records of one kind.** -/
theorem Typed.writeBatch {s : Logger} (h : s.Typed) (hfits : s.PassFits) (o : WriteOutcome)
    {b : Batch} (hb : b.Of s) : (s.writeBatch o b).Typed := by
  have hw := hfits.1
  rw [← hb.size] at hw
  have hback := h.backed.writeBatch o hb.toSound (fun _ => hw)
  have hmount := h.mounted_write hfits o hb
  have hsd := writeBatch_sd s o b
  refine ⟨hback, hmount, ?_⟩
  rw [hsd]
  rcases writeBatch_cases s o b with ⟨hok, heq⟩ | ⟨_, _, heq⟩ | ⟨_, _, heq⟩
  · have hstored := h.stored_committed hfits hb hok
    rw [heq] at hstored ⊢
    simp only [setWIndex, store, Nat.mod_eq_of_lt hw] at hstored ⊢
    exact hstored
  · have hstored := h.stored_write hfits o hb
    rw [heq] at hstored ⊢
    exact hstored
  · rw [heq] at hmount ⊢
    exact Stored.empty hmount

/-! ### Resets -/

/-- What a boot needs to find. -/
structure Typable (s : Logger) (type : UInt8) : Prop where
  mark : s.nv.mark = 0x55
  mounted : s.flash.Mounted
  stored : Stored s.flash s.commits type s.nv.r s.nv.w

theorem Typable.setup {s : Logger} {type : UInt8} (h : s.Typable type) (sd : SDConfig)
    (hback : (s.setup sd).Backed)
    (htype : (s.setup sd).rIndex < (s.setup sd).wIndex → (s.setup sd).sd.cfgG.type = type) :
    (s.setup sd).Typed := by
  obtain ⟨_, _, _, _, _, heq⟩ := setup_of_mark sd h.mark
  rw [heq] at hback htype ⊢
  exact ⟨hback, h.mounted, h.stored.retype htype⟩

theorem Typed.typable {s : Logger} (h : s.Typed) : s.Typable s.sd.cfgG.type := by
  refine ⟨by rw [h.backed.nv], h.mounted, ?_⟩
  rw [h.backed.nv]
  exact h.stored

theorem Typed.cut {s : Logger} (h : s.Typed) (hstores : s.stores = []) (hfits : s.PassFits)
    (o : WriteOutcome) {b : Batch} (hb : b.Of s) (cut : Cut)
    (hskip : cut = .storing 1 →
      ¬ ((s.flash.writeData b.kind o s.wIndex b.data).1 = false ∧ s.AtEscape)) :
    (s.cutBatch o b cut).Typable s.sd.cfgG.type := by
  have hw := hfits.1
  rw [← hb.size] at hw
  cases cut with
  | erasing o =>
    refine ⟨h.typable.mark, h.mounted.eraseLoop_mounted _ _ _, ?_⟩
    show Stored { s.flash with flash := s.flash.eraseLoop o s.wIndex b.num } s.commits _ s.nv.r
      s.nv.w
    rw [h.backed.nv]
    exact h.stored.disturb rfl (h.mark hfits hb)
      (fun k hk => h.mounted.eraseLoop_frame o (by omega) hk)
  | programming o =>
    have hmount := h.mounted_write hfits o hb
    have hstored := h.stored_write hfits o hb
    rw [writeBatch_flash, ← writeData_eq b.kind] at hmount hstored
    refine ⟨h.typable.mark, hmount, ?_⟩
    show Stored (s.flash.writeData b.kind o s.wIndex b.data).2 s.commits _ s.nv.r s.nv.w
    rw [h.backed.nv]
    exact hstored
  | storing k =>
    have hmount := h.mounted_write hfits o hb
    rcases powerCut_writeBatch h.backed.nv hstores o b k (fun hk => hskip (by rw [hk])) with
      hnv | ⟨hok, hnv⟩ | ⟨hmark, hnv, _⟩
    · refine ⟨by rw [cutBatch, hnv]; exact h.typable.mark, hmount, ?_⟩
      rw [cutBatch, hnv, h.backed.nv]
      show Stored (s.writeBatch o b).flash (s.writeBatch o b).commits _ s.rIndex s.wIndex
      have hstored := h.stored_write hfits o hb
      rcases writeBatch_cases s o b with ⟨_, heq⟩ | ⟨_, _, heq⟩ | ⟨_, _, heq⟩
      · rw [heq] at hstored ⊢
        exact hstored.append _
      · rw [heq] at hstored ⊢
        exact hstored
      · rw [heq] at hstored ⊢
        exact hstored
    · rw [Nat.mod_eq_of_lt hw] at hnv
      refine ⟨by rw [cutBatch, hnv], hmount, ?_⟩
      rw [cutBatch, hnv]
      show Stored (s.writeBatch o b).flash (s.writeBatch o b).commits _ s.rIndex
        (s.wIndex + b.num)
      have hstored := h.stored_committed hfits hb hok
      rcases writeBatch_cases s o b with ⟨_, heq⟩ | ⟨hfail, _⟩ | ⟨hfail, _⟩
      · rw [heq] at hstored ⊢
        exact hstored
      · exact absurd (hok.symm.trans hfail) (by decide)
      · exact absurd (hok.symm.trans hfail) (by decide)
    · refine ⟨hmark, hmount, ?_⟩
      rw [cutBatch, hnv]
      exact Stored.empty hmount

theorem Typed.resetIndex {s : Logger} (h : s.Typed) (type : UInt8) :
    s.resetIndex.Typable type := by
  have hnv : s.resetIndex.nv = ⟨0x55, 0, 0⟩ := h.backed.resetIndex.nv
  refine ⟨by rw [hnv], h.mounted, ?_⟩
  rw [hnv]
  exact Stored.empty h.mounted

theorem Typed.cutReset {s : Logger} (h : s.Typed) {k : Nat} (hsafe : k = 0 → s.rIndex = 0)
    (type : UInt8) : (s.powerCut s.start.resetIndex (k + 1)).Typable type := by
  have hnv := powerCut_resetIndex h.backed.nv k
  rw [show (if k = 0 then s.rIndex else 0) = 0 by split <;> simp_all] at hnv
  refine ⟨by rw [hnv], h.mounted, ?_⟩
  rw [hnv]
  exact Stored.empty h.mounted

theorem Typed.cutPost {s s₁ : Logger} (h : s.Typed) (hp : Posted s.start s₁) (k : Nat) :
    (s.powerCut s₁ k).Typable s.sd.cfgG.type := by
  have hflash : (s.powerCut s₁ k).flash = s.flash := hp.flash
  have hcommits : (s.powerCut s₁ k).commits = s.commits := hp.commits
  have hmount : (s.powerCut s₁ k).flash.Mounted := hflash ▸ h.mounted
  rcases powerCut_posted h.backed.nv hp k with hnv | ⟨num, hnum, hnv⟩
  · refine ⟨by rw [hnv]; exact h.typable.mark, hmount, ?_⟩
    rw [hflash, hcommits, hnv]
    exact h.typable.stored
  · have hlt := h.backed.lt
    rw [Nat.mod_eq_of_lt (by omega)] at hnv
    refine ⟨by rw [hnv], hmount, ?_⟩
    rw [hflash, hcommits, hnv]
    exact h.stored.advance num

/-! ### Runs -/

def Passes : Label → Prop
  | .log _ => True
  | .cutLog _ _ _ => True
  | _ => False

/-- A pass fits, a reset falls where the indices survive it, and a boot that
finds records pending finds the type as it was. -/
structure Orderly (s : Logger) (l : Label) (s' : Logger) : Prop where
  safe : Safe s l
  fits : Passes l → s.PassFits
  type : s'.rIndex < s'.wIndex → s'.sd.cfgG.type = s.sd.cfgG.type

theorem Typed.next {fmt : Format} {s s' : Logger} {l : Label} (h : s.Typed)
    (hnext : Logger.next fmt l s = some s') (hl : Orderly s l s') : s'.Typed := by
  have hback := h.backed.next hnext hl.safe
  have htype := hl.type
  cases l with
  | log p =>
    obtain ⟨s₁, hprep, hcase⟩ := log_cases hnext
    have hs₁ := h.start.prepared hprep
    obtain ⟨md, fd, wBuff, rfl⟩ := hprep
    rcases hcase with rfl | ⟨b, hb, rfl⟩
    · exact hs₁
    · exact hs₁.writeBatch (hl.fits trivial) p.outcome hb
  | post net => exact h.start.posted (postTask_posted hnext)
  | server wifi httpCode restart sd =>
    rcases server_cases hnext with rfl | rfl | rfl
    · exact h.start
    · exact h.start.typable.setup sd hback htype
    · exact (h.start.resetIndex _).setup sd hback htype
  | restart sd =>
    cases hnext
    exact h.typable.setup sd hback htype
  | cutLog p cut sd =>
    obtain ⟨s₁, hprep, rfl | ⟨b, hbatch, hb, rfl⟩⟩ := cutLog_cases hnext
    · have hs₁ := h.start.prepared hprep
      obtain ⟨md, fd, wBuff, rfl⟩ := hprep
      exact hs₁.typable.setup sd hback htype
    · have hs₁ := h.start.prepared hprep
      have hskip : cut = .storing 1 → ¬ ((s₁.flash.writeData b.kind p.outcome s₁.wIndex b.data).1 =
          false ∧ s₁.AtEscape) := by
        rintro rfl hskip
        exact hl.safe.2 rfl ⟨s₁, b, hbatch, hskip⟩
      have hfits := hl.fits trivial
      obtain ⟨md, fd, wBuff, rfl⟩ := hprep
      exact (hs₁.cut rfl hfits p.outcome ⟨hb.toSound, hb.kindOf, hb.size⟩ cut hskip).setup sd
        hback htype
  | cutPost net k sd =>
    obtain ⟨s₁, htask, hnext⟩ := Option.bind_eq_some_iff.mp hnext
    cases hnext
    exact (h.cutPost (postTask_posted htask) k).setup sd hback htype
  | cutReset k sd =>
    cases hnext
    exact (h.cutReset hl.safe s.sd.cfgG.type).setup sd hback htype

/-! ### Requests -/

/-- A request of a call that has read `rBuff`: what the decoder of `kind` makes
of records of the call. -/
structure Sent (fmt : Format) (kind : Kind) (s : Logger) (rBuff : RecordBuff) (q : Post) :
    Prop where
  of_kind : q.kind = kind
  part : ∃ i, q.index = s.rIndex + i ∧ i + q.num ≤ s.numPost ∧
    (payloads fmt kind s.sd.cfgG.batch rBuff s.numPost)[i]? = some (some q.playload)

/-- What a call adds to the requests. -/
def Requests (fmt : Format) (net : Network) (kind : Kind) (s s' : Logger) : Prop :=
  s'.posts = s.posts ∨ ∃ rBuff new,
    s.readRecords kind net.busy s.numPost = some (true, { s with rBuff }) ∧
    s'.posts = s.posts ++ new ∧ ∀ q ∈ new, Sent fmt kind s rBuff q

section Requests

variable {fmt : Format} {net : Network} {s s' : Logger} {kind : Kind}

theorem postBatch_requests {rBuff : RecordBuff}
    (hread : s.readRecords kind net.busy s.numPost = some (true, { s with rBuff }))
    {playload : String}
    (hpayload : payloads fmt kind s.sd.cfgG.batch rBuff s.numPost = [some playload])
    (path : String) (httpCode : UInt16) :
    Requests fmt net kind s
      ({ s with rBuff }.postBatch kind s.numPost path playload httpCode) := by
  have hsent : ∀ url, ∀ q ∈ [Post.mk kind s.rIndex s.numPost url playload httpCode],
      Sent fmt kind s rBuff q := by
    intro url q hq
    rw [List.mem_singleton.mp hq]
    exact ⟨rfl, 0, rfl, Nat.le_of_eq (Nat.zero_add _), by rw [hpayload]; rfl⟩
  rw [postBatch]
  split
  · exact Or.inr ⟨rBuff, _, hread, rfl, hsent _⟩
  · exact Or.inr ⟨rBuff, _, hread, rfl, hsent _⟩

theorem flashToBatchPost_requests {l : Layout} {path : String}
    (hpayload : ∀ rBuff, payloads fmt kind s.sd.cfgG.batch rBuff s.numPost =
      [batchBody fmt l rBuff s.numPost])
    (h : s.flashToBatchPost fmt kind l path net s.numPost = some s') :
    Requests fmt net kind s s' := by
  obtain ⟨⟨ok, s₁⟩, hread, h⟩ := Option.bind_eq_some_iff.mp h
  obtain ⟨rBuff, rfl⟩ := readRecords_spec hread
  cases ok with
  | false =>
    cases h
    exact Or.inl rfl
  | true =>
    obtain ⟨playload, hbody, h⟩ := Option.bind_eq_some_iff.mp h
    cases h
    have hbody' : batchBody fmt l rBuff s.numPost = some playload := hbody
    exact postBatch_requests hread (by rw [hpayload, hbody']) _ _

theorem flashSensorToBatchPost_requests (hbatch : s.sd.cfgG.batch ≠ 0)
    (h : s.flashSensorToBatchPost fmt net s.numPost = some s') :
    Requests fmt net .sensor s s' := by
  obtain ⟨⟨ok, s₁⟩, hread, h⟩ := Option.bind_eq_some_iff.mp h
  obtain ⟨rBuff, rfl⟩ := readRecords_spec hread
  cases ok with
  | false =>
    cases h
    exact Or.inl rfl
  | true =>
    obtain ⟨body, hbody, h⟩ := Option.bind_eq_some_iff.mp h
    cases h
    have hbody' : sensorBody fmt rBuff s.numPost = some body := hbody
    refine postBatch_requests hread ?_ _ _
    rw [payloads, if_neg hbatch, hbody']
    rfl

theorem singlePosts_requests {num : Nat} (k i : Nat) {s s' : Logger} (hroom : i + k ≤ MAXMETER)
    (h : s.singlePosts fmt net num k i (64 * i) = some s') :
    ∃ new, s'.posts = s.posts ++ new ∧ ∀ q ∈ new, q.kind = .meter ∧ ∃ j, i ≤ j ∧ j < i + k ∧
      q.index = s.rIndex + j ∧ q.num = 1 ∧ some q.playload = singlePayload fmt s.rBuff j := by
  induction k generalizing i s with
  | zero =>
    cases h
    exact ⟨[], (List.append_nil _).symm, fun q hq => absurd hq List.not_mem_nil⟩
  | succ k ih =>
    obtain ⟨x, hsub, hkind, _, hpay, heq⟩ := singlePosts_succ fmt net num k (s := s)
      (show i < MAXMETER by omega)
    have hx : x.index = s.rIndex + i ∧ x.num = 1 := by
      rw [Post.subjects] at hsub
      have hnum := congrArg List.length hsub
      rw [List.length_range', List.length_singleton] at hnum
      rw [hnum] at hsub
      exact ⟨(List.cons.inj hsub).1, hnum⟩
    have hhead : x.kind = .meter ∧ ∃ j, i ≤ j ∧ j < i + (k + 1) ∧ x.index = s.rIndex + j ∧
        x.num = 1 ∧ some x.playload = singlePayload fmt s.rBuff j :=
      ⟨hkind, i, Nat.le_refl i, by omega, hx.1, hx.2, hpay⟩
    rw [heq] at h
    split at h
    · cases h
      refine ⟨[x], rfl, fun q hq => ?_⟩
      rw [List.mem_singleton.mp hq]
      exact hhead
    · obtain ⟨new, hposts, hnew⟩ := ih (i + 1) (by omega) h
      refine ⟨x :: new, ?_, fun q hq => ?_⟩
      · rw [hposts]
        exact List.append_assoc _ _ _
      · rcases List.mem_cons.mp hq with rfl | hq
        · exact hhead
        · obtain ⟨hk, j, hj1, hj2, hrest⟩ := hnew q hq
          exact ⟨hk, j, by omega, by omega, hrest⟩

theorem flashMeterToPost_requests (hbatch : s.sd.cfgG.batch = 0)
    (h : s.flashMeterToPost fmt net s.numPost = some s') : Requests fmt net .meter s s' := by
  obtain ⟨⟨ok, s₁⟩, hread, h⟩ := Option.bind_eq_some_iff.mp h
  obtain ⟨rBuff, rfl⟩ := readRecords_spec hread
  cases ok with
  | false =>
    cases h
    exact Or.inl rfl
  | true =>
    have hnum : s.numPost ≤ MAXMETER := by
      by_contra hnum
      rw [readRecords_none _ _ _ (Nat.lt_of_not_le hnum)] at hread
      cases hread
    obtain ⟨new, hposts, hnew⟩ := @singlePosts_requests fmt net s.numPost s.numPost 0
      { s with rBuff } s' (by omega) h
    refine Or.inr ⟨rBuff, new, hread, hposts, fun q hq => ?_⟩
    obtain ⟨hkind, j, _, hj, hindex, hone, hpay⟩ := hnew q hq
    refine ⟨hkind, j, hindex, by omega, ?_⟩
    rw [payloads, if_pos hbatch, List.getElem?_map, List.getElem?_range (by omega), hpay]
    rfl

/-- **What a post task asks the server to take**, for each type and mode. -/
theorem postTask_requests (h : s.postTask fmt net = some s') :
    s'.posts = s.posts ∨ s.rIndex < s.wIndex ∧
      ∃ kind, kindOf s.sd.cfgG.type = some kind ∧ Requests fmt net kind s s' := by
  have hread : ∀ (kind : Kind) (single batch : Nat → Logger → Option Logger),
      kindOf s.sd.cfgG.type = some kind →
      (s.sd.cfgG.batch = 0 → single s.numPost s = some s' → Requests fmt net kind s s') →
      (s.sd.cfgG.batch ≠ 0 → batch s.numPost s = some s' → Requests fmt net kind s s') →
      readFlashToPost single batch net s = some s' →
      s'.posts = s.posts ∨ s.rIndex < s.wIndex ∧
        ∃ kind, kindOf s.sd.cfgG.type = some kind ∧ Requests fmt net kind s s' := by
    intro kind single batch hkind hsingle hbatch h
    rw [readFlashToPost_eq] at h
    split at h
    · rename_i hgo
      refine Or.inr ⟨hgo.2, kind, hkind, ?_⟩
      split at h
      · exact hsingle ‹_› h
      · exact hbatch ‹_› h
    · cases h
      exact Or.inl rfl
  have hidle : ∀ kind, some s = some s' → Requests fmt net kind s s' := by
    intro kind h
    cases h
    exact Or.inl rfl
  rw [postTask] at h
  split at h
  · rename_i htype
    refine hread .meter _ _ (by rw [htype]; rfl) (fun hb h => flashMeterToPost_requests hb h)
      (fun hb h => ?_) h
    exact flashToBatchPost_requests (fun rBuff => by rw [payloads, if_neg hb]) h
  · rename_i htype
    exact hread .sensor _ _ (by rw [htype]; rfl) (fun _ h => hidle _ h)
      (fun hb h => flashSensorToBatchPost_requests hb h) h
  · rename_i htype
    refine hread .flow _ _ (by rw [htype]; rfl) (fun _ h => hidle _ h) (fun hb h => ?_) h
    exact flashToBatchPost_requests (fun rBuff => by rw [payloads, if_neg hb]) h
  · cases h
    exact Or.inl rfl

end Requests

/-! ### Reading pending records -/

theorem Stored.cells {m : SPIFlashMeter} {commits : List (Nat × Record)} {type : UInt8} {r w : Nat}
    (h : Stored m commits type r w) {n : Nat} (hn : r + n ≤ w) :
    ∃ xs : List Record, xs.length = n ∧
      (∀ i (hi : i < xs.length), (r + i, xs[i]) ∈ commits ∧ kindOf type = some xs[i].kind) ∧
      m.cells r n = recordBytes xs := by
  induction n with
  | zero => exact ⟨[], rfl, fun i hi => absurd hi (Nat.not_lt_zero i), rfl⟩
  | succ n ih =>
    obtain ⟨xs, hlen, hxs, hcells⟩ := ih (by omega)
    obtain ⟨x, hx, hkind, hcell⟩ := h.records (r + n) (by omega) (by omega)
    refine ⟨xs ++ [x], by rw [List.length_append, hlen]; rfl, fun i hi => ?_, ?_⟩
    · by_cases hin : i < xs.length
      · rw [List.getElem_append_left hin]
        exact hxs i hin
      · have hi' : i = n := by
          rw [List.length_append, List.length_singleton] at hi
          omega
        subst hi'
        rw [List.getElem_append_right (by omega)]
        simp only [hlen, Nat.sub_self, List.getElem_cons_zero]
        exact ⟨hx, hkind⟩
    · rw [cells_succ, hcells, hcell, recordBytes_append]
      simp [recordBytes]

/-- **A read of pending records leaves `rBuff` beginning with them.** -/
theorem Typed.readRecords {s : Logger} (h : s.Typed) {kind : Kind} {busy : Bool × Bool} {n : Nat}
    (hn : s.rIndex + n ≤ s.wIndex) (hle : n ≤ 255) {rBuff : RecordBuff}
    (hread : s.readRecords kind busy n = some (true, { s with rBuff })) :
    ∃ xs : List Record, xs.length = n ∧
      (∀ i (hi : i < xs.length), (s.rIndex + i, xs[i]) ∈ s.commits ∧
        kindOf s.sd.cfgG.type = some xs[i].kind) ∧ rBuff.Begins (recordBytes xs) := by
  obtain ⟨xs, hlen, hxs, hcells⟩ := h.stored.cells hn
  refine ⟨xs, hlen, hxs, ?_⟩
  have hroom := h.stored.room
  have hceil := le_ceilTo (show 0 < 64 by omega) s.wIndex
  obtain ⟨rBuff', heq, hbegins⟩ := readRecords_begins h.mounted hle (by omega) hread
  obtain rfl : rBuff = rBuff' := congrArg Logger.rBuff heq
  rw [← hcells]
  exact hbegins

/-- A request whose records were committed, under the indices it is for, by the
encoder of its own kind. -/
def OwnKind (fmt : Format) (s : Logger) (q : Post) : Prop :=
  ∃ (xs : List Record) (rBuff : RecordBuff),
    (∀ i (hi : i < xs.length), (s.rIndex + i, xs[i]) ∈ s.commits ∧ xs[i].kind = q.kind) ∧
    rBuff.Begins (recordBytes xs) ∧
    ∃ i, q.index = s.rIndex + i ∧ i + q.num ≤ xs.length ∧
      (payloads fmt q.kind s.sd.cfgG.batch rBuff xs.length)[i]? = some (some q.playload)

theorem numPost_le_255 (s : Logger) : s.numPost ≤ 255 := by
  have := s.sd.cfgG.batch.toNat_lt
  rw [numPost, MAXPOST]
  split <;> omega

/-- **The requests of a post task** with the pending records of one kind. -/
theorem Typed.sent {fmt : Format} {net : Network} {s s' : Logger} (h : s.Typed)
    (hpost : s.postTask fmt net = some s') :
    ∃ new, s'.posts = s.posts ++ new ∧ ∀ q ∈ new, OwnKind fmt s q := by
  have hidle : s'.posts = s.posts → ∃ new, s'.posts = s.posts ++ new ∧
      ∀ q ∈ new, OwnKind fmt s q :=
    fun heq => ⟨[], by rw [heq, List.append_nil], fun q hq => absurd hq List.not_mem_nil⟩
  rcases postTask_requests hpost with
    heq | ⟨hlt, kind, hkind, heq | ⟨rBuff, new, hread, hposts, hnew⟩⟩
  · exact hidle heq
  · exact hidle heq
  · have hle := s.numPost_le
    obtain ⟨xs, hlen, hxs, hbegins⟩ := h.readRecords (by omega) s.numPost_le_255 hread
    refine ⟨new, hposts, fun q hq => ?_⟩
    obtain ⟨hof, i, hindex, hi, hpay⟩ := hnew q hq
    refine ⟨xs, rBuff, fun j hj => ⟨(hxs j hj).1, ?_⟩, hbegins, i, hindex, by omega, ?_⟩
    · rw [hof]
      exact Option.some.inj ((hxs j hj).2.symm.trans hkind)
    · rw [hof, hlen]
      exact hpay

/-! ### The first boot -/

theorem setup_frame (s : Logger) (sd : SDConfig) :
    (s.setup sd).flash = s.flash ∧ (s.commits = [] → (s.setup sd).commits = []) := by
  by_cases h : s.nv.mark = 0x55
  · obtain ⟨_, _, _, _, _, heq⟩ := setup_of_mark sd h
    rw [heq]
    exact ⟨rfl, id⟩
  · obtain ⟨_, _, _, _, _, heq⟩ := setup_of_no_mark sd h
    rw [heq]
    exact ⟨rfl, fun _ => rfl⟩

theorem Boot.frame {ok : Nat → Prop} {s₀ s₁ : Logger} (hboot : Boot ok s₀ s₁)
    (hempty : s₀.commits = []) : s₁.flash = s₀.flash ∧ s₁.commits = [] := by
  cases hboot with
  | whole sd =>
    obtain ⟨hflash, hcommits⟩ := s₀.setup_frame sd
    exact ⟨hflash, hcommits hempty⟩
  | cut k sd sd' _ =>
    obtain ⟨hflash, hcommits⟩ := s₀.setup_frame sd
    obtain ⟨hflash', hcommits'⟩ := (s₀.powerCut (s₀.setup sd) k).setup_frame sd'
    exact ⟨hflash'.trans hflash, hcommits' (hcommits hempty)⟩

theorem typed_of_boot {s₀ s₁ : Logger} (hfresh : s₀.nv.mark ≠ 0x55)
    (hword : s₀.nv.w < 4294967296) (hempty : s₀.commits = []) (hm : s₀.flash.Mounted)
    (hboot : Boot (SafeBoot s₀.nv) s₀ s₁) : s₁.Typed := by
  have hback := backed_of_boot hfresh hword hboot
  obtain ⟨hflash, hcommits⟩ := hboot.frame hempty
  have hspans := hback.spans
  rw [hcommits] at hspans
  have hw : s₁.wIndex = s₁.rIndex := by
    by_contra hne
    obtain ⟨x, hx⟩ := hspans.2 s₁.rIndex (Nat.le_refl _) (by have := hspans.1; omega)
    cases hx
  rw [← hflash] at hm
  refine ⟨hback, hm, ?_⟩
  rw [hw]
  exact Stored.empty hm

/-- **Records are decoded as they were encoded**, in every run in which no boot
changes the type over pending records: whenever a post task is called, each of
its requests carries records that the encoder of its kind has committed. -/
theorem decodes_own_kind {fmt : Format} {flash : SPIFlash} (hdvd : 4096 ∣ flash.capacity)
    (hroom : 8192 < flash.capacity) (hcap : flash.capacity ≤ 16777216) {sd : SDConfig}
    {nv : NVRAM} (hfresh : nv.mark ≠ 0x55) (hword : nv.w < 4294967296) {s₁ s s' : Logger}
    (hboot : Boot (SafeBoot nv) (factory flash sd nv) s₁) (hrun : Reach fmt Orderly s₁ s)
    {net : Network} (hpost : s.start.postTask fmt net = some s') :
    ∃ new, s'.posts = s.posts ++ new ∧ ∀ q ∈ new, OwnKind fmt s q := by
  have h₁ := @typed_of_boot (factory flash sd nv) s₁ hfresh hword rfl
    (mounted_begin hdvd hroom hcap) hboot
  have h := hrun.invariant Typed h₁ (fun _ _ _ h hnext hl => h.next hnext hl)
  exact h.start.sent hpost

/-- A sensor record is logged, and the next boot finds the type `type`. -/
def relabelled (type numMeter : UInt8) : List Label :=
  [.log (sensorPass .healthy), .restart (.plain type numMeter 1)]

/-- One sensor record, logged, kept over a restart and posted. -/
theorem decodes_own_kind_first :
    ∃ s s', booted.run .zero (relabelled 2 0) = some s ∧ s'.posts.length = 1 ∧
      s.start.postTask .zero (answers []) = some s' ∧
      ∃ new, s'.posts = s.posts ++ new ∧ ∀ q ∈ new, OwnKind .zero s q := by
  have hlog : (next .zero (.log (sensorPass .healthy)) booted).map (·.sd.cfgG.type) = some 2 := by
    decide +kernel
  obtain ⟨s₁, hnext, htype⟩ := Option.map_eq_some_iff.mp hlog
  have hroom : booted.HasRoom := fun i hi _ => by
    have hi' : i < 1 := hi
    show 0 + i + 64 ≤ 0 + 896
    omega
  have hstep : Orderly booted (.log (sensorPass .healthy)) s₁ :=
    ⟨show 0 + 1 < 4294967296 by decide, fun _ => ⟨show 0 + 1 < 4294967296 by decide, hroom⟩,
      fun _ => htype⟩
  have hboot : Orderly s₁ (.restart (.plain 2 0 1)) (s₁.setup (.plain 2 0 1)) :=
    ⟨trivial, fun h => absurd h (by simp [Passes]), fun _ => by rw [setup_sd, htype]; rfl⟩
  have hrun : booted.run .zero (relabelled 2 0) = some (s₁.setup (.plain 2 0 1)) :=
    (run_cons hnext).trans (run_cons rfl)
  have hpost : ((booted.run .zero (relabelled 2 0)).bind fun s =>
      s.start.postTask .zero (answers [])).map (·.posts.length) = some 1 := by decide +kernel
  rw [hrun, Option.bind_some] at hpost
  obtain ⟨s', hpost, hlen⟩ := Option.map_eq_some_iff.mp hpost
  exact ⟨_, s', hrun, hlen, hpost, decodes_own_kind (by decide) (by decide) (by decide) (by decide)
    (by decide) (.whole (.plain 2 0 1)) ((Reach.step .refl hnext hstep).step rfl hboot) hpost⟩

/-- **The type is changed over a pending record**: a logger of sensors is booted
as one of meters, and the meters' decoder posts the sensor record. -/
theorem not_own_kind :
    ∃ s s', booted.run .zero (relabelled 1 1) = some s ∧
      s.start.postTask .zero (answers []) = some s' ∧ ∃ q ∈ s'.posts, ¬ OwnKind .zero s q := by
  have hcommits : (booted.run .zero (relabelled 1 1)).map
      (fun s => s.commits.map fun e => (e.1, e.2.kind)) = some [(0, .sensor)] := by decide +kernel
  have hposts : ((booted.run .zero (relabelled 1 1)).bind fun s =>
      s.start.postTask .zero (answers [])).map
      (fun s => s.posts.map fun q => (q.kind, q.index, q.num)) = some [(.meter, 0, 1)] := by
    decide +kernel
  obtain ⟨s, hrun, hcommits⟩ := Option.map_eq_some_iff.mp hcommits
  rw [hrun, Option.bind_some] at hposts
  obtain ⟨s', hpost, hposts⟩ := Option.map_eq_some_iff.mp hposts
  obtain ⟨q, hq, hfields⟩ : ∃ q ∈ s'.posts, (q.kind, q.index, q.num) = (Kind.meter, 0, 1) := by
    rw [← List.mem_map, hposts]
    exact List.mem_singleton.mpr rfl
  obtain ⟨hkind, _, hnum⟩ := Prod.mk.inj hfields |>.imp id Prod.mk.inj
  refine ⟨s, s', hrun, hpost, q, hq, ?_⟩
  rintro ⟨xs, rBuff, hxs, _, i, _, hi, _⟩
  obtain ⟨hmem, hx⟩ := hxs 0 (by omega)
  -- every committed record is a sensor record
  have hsensor := List.mem_map_of_mem (f := fun e : Nat × Record => (e.1, e.2.kind)) hmem
  rw [hcommits, List.mem_singleton] at hsensor
  rw [(Prod.mk.inj hsensor).2, hkind] at hx
  cases hx

end Logger

end EnresLogger
