import EnresLogger.Single

/-!
# Progress of the posts

Three kinds of records and two modes make six paths from a pending record to the
server.  Four of them send the next `numPost` records and move `rIndex` behind
them (`Sends`); the bodies of `flashSensorToPost` and `flashFlowToPost` are
empty, so in single-post mode a device with sensors or a flow meter never sends
anything: `sends_iff`.
-/

namespace EnresLogger

open Lib

namespace Logger

/-- What the requests of a call carry, given the records read. -/
def payloads (fmt : Format) (kind : Kind) (batch : UInt8) (rBuff : RecordBuff) (num : Nat) :
    List (Option String) :=
  if batch = 0 then (List.range num).map (singlePayload fmt rBuff)
  else match kind with
    | .meter => [batchBody fmt meterLayout rBuff num]
    | .sensor => [(sensorBody fmt rBuff num).map (·.1)]
    | .flow => [batchBody fmt flowLayout rBuff num]

/-- The call sends the records with the next `numPost` indices, as they were
read, and goes on behind them. -/
structure Sends (fmt : Format) (net : Network) (kind : Kind) (s s' : Logger) : Prop where
  posts : ∃ rBuff new, s.readRecords kind net.busy s.numPost = some (true, { s with rBuff }) ∧
    s'.posts = s.posts ++ new ∧
    new.flatMap Post.subjects = List.range' s.rIndex s.numPost ∧
    (∀ x ∈ new, x.kind = kind ∧ x.httpCode = 200) ∧
    new.map (fun x => some x.playload) = payloads fmt kind s.sd.cfgG.batch rBuff s.numPost
  index : s'.rIndex = s.rIndex + s.numPost

section Sends

variable {fmt : Format} {net : Network} {s : Logger} {kind : Kind}

theorem postBatch_sends {rBuff : RecordBuff}
    (hread : s.readRecords kind net.busy s.numPost = some (true, { s with rBuff }))
    (hw : s.wIndex < 4294967296) (hlt : s.rIndex < s.wIndex) {playload : String}
    (hpayload : [some playload] = payloads fmt kind s.sd.cfgG.batch rBuff s.numPost)
    (path : String) {httpCode : UInt16} (hcode : httpCode = 200) :
    Sends fmt net kind s
      ({ s with rBuff }.postBatch kind s.numPost path playload httpCode) := by
  have hle := s.numPost_le
  rw [postBatch, if_neg (not_not_intro hcode)]
  refine ⟨⟨rBuff, [_], hread, rfl, ?_, fun x hx => ?_, hpayload⟩, ?_⟩
  · exact List.append_nil _
  · rw [List.mem_singleton.mp hx]
    exact ⟨rfl, hcode⟩
  · exact Nat.mod_eq_of_lt (show s.rIndex + s.numPost < 4294967296 by omega)

theorem flashToBatchPost_sends {rBuff : RecordBuff}
    (hread : s.readRecords kind net.busy s.numPost = some (true, { s with rBuff }))
    (hw : s.wIndex < 4294967296) (hlt : s.rIndex < s.wIndex) (hnum : s.numPost ≤ MAXMETER)
    (hcode : net.httpCode 0 = 200) {l : Layout} (hl : l.fields.length + 2 ≤ 16)
    (hpayload : [batchBody fmt l rBuff s.numPost] =
      payloads fmt kind s.sd.cfgG.batch rBuff s.numPost) (path : String) :
    ∃ s', s.flashToBatchPost fmt kind l path net s.numPost = some s' ∧
      Sends fmt net kind s s' := by
  obtain ⟨playload, hbody⟩ := batchBody_isSome fmt hl rBuff hnum
  rw [hbody] at hpayload
  refine ⟨_, ?_, postBatch_sends hread hw hlt hpayload path hcode⟩
  simp only [flashToBatchPost, hread, if_true, hbody, Option.bind_eq_bind, Option.bind_some,
    Option.pure_def]

theorem flashSensorToBatchPost_sends {rBuff : RecordBuff}
    (hread : s.readRecords .sensor net.busy s.numPost = some (true, { s with rBuff }))
    (hw : s.wIndex < 4294967296) (hlt : s.rIndex < s.wIndex) (hnum : s.numPost ≤ MAXMETER)
    (hcode : net.httpCode 0 = 200) (hbatch : s.sd.cfgG.batch ≠ 0) :
    ∃ s', s.flashSensorToBatchPost fmt net s.numPost = some s' ∧
      Sends fmt net .sensor s s' := by
  obtain ⟨body, hbody⟩ := sensorBody_isSome fmt rBuff hnum
  have hpayload : [some body.1] = payloads fmt .sensor s.sd.cfgG.batch rBuff s.numPost := by
    rw [payloads, if_neg hbatch, hbody]
    rfl
  refine ⟨_, ?_, postBatch_sends hread hw hlt hpayload s.sd.cfgG.batch_path_sensor hcode⟩
  simp only [flashSensorToBatchPost, hread, if_true, hbody, Option.bind_eq_bind,
    Option.bind_some, Option.pure_def]

theorem flashMeterToPost_sends {rBuff : RecordBuff}
    (hread : s.readRecords .meter net.busy s.numPost = some (true, { s with rBuff }))
    (hw : s.wIndex < 4294967296) (hlt : s.rIndex < s.wIndex) (hnum : s.numPost ≤ MAXMETER)
    (hcode : ∀ i < s.numPost, net.httpCode i = 200) (hbatch : s.sd.cfgG.batch = 0) :
    ∃ s', s.flashMeterToPost fmt net s.numPost = some s' ∧ Sends fmt net .meter s s' := by
  have hle := s.numPost_le
  obtain ⟨new, hnew, heq⟩ := @singlePosts_answered fmt net s.numPost s.numPost 0
    { s with rBuff } (fun j _ hj => hcode j (by omega)) (by omega)
  refine ⟨{ s with rBuff, posts := s.posts ++ new }.advance s.numPost, ?_,
    ⟨rBuff, new, hread, rfl, hnew.subjects, hnew.answers, ?_⟩, ?_⟩
  · simp only [flashMeterToPost, hread, if_true, Option.bind_eq_bind, Option.bind_some]
    exact heq
  · rw [payloads, if_pos hbatch, hnew.payloads, List.range_eq_range']
  · exact Nat.mod_eq_of_lt (show s.rIndex + s.numPost < 4294967296 by omega)

/-- The single posts of the other kinds: nothing happens. -/
theorem postTask_empty (hbatch : s.sd.cfgG.batch = 0) (htype : s.sd.cfgG.type ≠ 1) :
    s.postTask fmt net = some s := by
  have hidle : ∀ batch : Nat → Logger → Option Logger,
      readFlashToPost (fun _ s => some s) batch net s = some s := by
    intro batch
    rw [readFlashToPost_eq, if_pos hbatch]
    split <;> rfl
  rw [postTask]
  split
  · rename_i h1
    exact absurd h1 htype
  · exact hidle _
  · exact hidle _
  · rfl

theorem postTask_batch_sends {rBuff : RecordBuff} (hkind : kindOf s.sd.cfgG.type = some kind)
    (hread : s.readRecords kind net.busy s.numPost = some (true, { s with rBuff }))
    (hw : s.wIndex < 4294967296) (hlt : s.rIndex < s.wIndex) (hnum : s.numPost ≤ MAXMETER)
    (hwifi : net.wifi = true) (hcode : net.httpCode 0 = 200) (hbatch : s.sd.cfgG.batch ≠ 0) :
    ∃ s', s.postTask fmt net = some s' ∧ Sends fmt net kind s s' := by
  have hgo : ∀ single batch : Nat → Logger → Option Logger,
      readFlashToPost single batch net s = batch s.numPost s := by
    intro single batch
    rw [readFlashToPost_eq, if_pos ⟨hwifi, hlt⟩, if_neg hbatch]
  rw [postTask]
  split
  · rename_i htype
    rw [htype] at hkind
    cases hkind
    rw [ReadFlashMeterToPost_Task, hgo]
    exact flashToBatchPost_sends hread hw hlt hnum hcode (by decide)
      (by rw [payloads, if_neg hbatch]) _
  · rename_i htype
    rw [htype] at hkind
    cases hkind
    rw [ReadFlashSensorToPost_Task, hgo]
    exact flashSensorToBatchPost_sends hread hw hlt hnum hcode hbatch
  · rename_i htype
    rw [htype] at hkind
    cases hkind
    rw [ReadFlashFlowToPost_Task, hgo]
    exact flashToBatchPost_sends hread hw hlt hnum hcode (by decide)
      (by rw [payloads, if_neg hbatch]) _
  · -- no other type has a kind
    rename_i h1 h2 h3
    rw [kindOf] at hkind
    · cases hkind
    · exact h1
    · exact h2
    · exact h3

end Sends

/-- **Every enabled call makes progress except in single-post mode without
meters**: with WiFi, a successful read and a server that answers 200. -/
theorem sends_iff (fmt : Format) (net : Network) (s : Logger) (kind : Kind)
    (hkind : kindOf s.sd.cfgG.type = some kind) (hbatch : s.sd.cfgG.batch.toNat ≤ 21)
    (hindex : s.rIndex < s.wIndex ∧ s.wIndex < 4294967296) (hwifi : net.wifi = true)
    (hread : ∃ s₁, s.readRecords kind net.busy s.numPost = some (true, s₁))
    (hcode : ∀ i, net.httpCode i = 200) :
    (∃ s', s.postTask fmt net = some s' ∧ Sends fmt net kind s s') ↔
      s.sd.cfgG.batch ≠ 0 ∨ s.sd.cfgG.type = 1 := by
  obtain ⟨hlt, hw⟩ := hindex
  have hpos := numPost_pos hlt
  constructor
  · rintro ⟨s', hpost, hsends⟩
    by_contra hnot
    rw [not_or, not_not] at hnot
    rw [postTask_empty hnot.1 hnot.2] at hpost
    cases hpost
    have := hsends.index
    omega
  · intro hmode
    obtain ⟨s₁, hread⟩ := hread
    obtain ⟨rBuff, rfl⟩ := readRecords_spec hread
    have hnum : s.numPost ≤ MAXMETER := by
      rw [numPost, MAXMETER, MAXPOST]
      split <;> omega
    by_cases hzero : s.sd.cfgG.batch = 0
    · have htype := hmode.resolve_left (not_not_intro hzero)
      rw [htype] at hkind
      cases hkind
      rw [postTask_single ⟨htype, hzero⟩, if_pos ⟨hwifi, hlt⟩]
      exact flashMeterToPost_sends hread hw hlt hnum (fun i _ => hcode i) hzero
    · exact postTask_batch_sends hkind hread hw hlt hnum hwifi (hcode 0) hzero

/-- A device with sensors and one record pending, by what its NVRAM says. -/
def oneRecord (batch : UInt8) : Logger :=
  (factory (blankChip 65536) (.plain 2 0 batch) ⟨0x55, 1, 0⟩).setup (.plain 2 0 batch)

/-- Everything the call needs is there, and nothing is sent. -/
theorem not_sends :
    (oneRecord 0).rIndex < (oneRecord 0).wIndex ∧
      (∃ s₁, (oneRecord 0).readRecords .sensor (false, false) (oneRecord 0).numPost =
        some (true, s₁)) ∧
      ¬ ∃ s', (oneRecord 0).postTask .zero (answers []) = some s' ∧
        Sends .zero (answers []) .sensor (oneRecord 0) s' := by
  have hread : ((oneRecord 0).readRecords .sensor (false, false) (oneRecord 0).numPost).map
      (·.1) = some true := by decide +kernel
  obtain ⟨⟨ok, s₁⟩, hread, rfl⟩ := Option.map_eq_some_iff.mp hread
  refine ⟨show 0 < 1 by decide, ⟨s₁, hread⟩, ?_⟩
  rintro ⟨s', hpost, hsends⟩
  rw [postTask_empty rfl (show (2 : UInt8) ≠ 1 by decide)] at hpost
  cases hpost
  exact absurd hsends.index (show ¬ 0 = 0 + 1 by decide)

/-- The same record, in a batch. -/
theorem sends_one :
    ∃ s', (oneRecord 1).postTask .zero (answers []) = some s' ∧
      Sends .zero (answers []) .sensor (oneRecord 1) s' := by
  have hread : ((oneRecord 1).readRecords .sensor (false, false) (oneRecord 1).numPost).map
      (·.1) = some true := by decide +kernel
  obtain ⟨⟨ok, s₁⟩, hread, rfl⟩ := Option.map_eq_some_iff.mp hread
  exact (sends_iff .zero (answers []) (oneRecord 1) .sensor rfl (show 1 ≤ 21 by decide)
    (show 0 < 1 ∧ 1 < 4294967296 by decide) rfl ⟨s₁, hread⟩ (fun _ => rfl)).mpr
    (Or.inl (show (1 : UInt8) ≠ 0 by decide))

end Logger

end EnresLogger
