import EnresLogger.Lib.Words
import EnresLogger.SensorJson
import EnresLogger.Drain

/-!
# When the payload of meters is JSON

`flashMeterToBatchPost` and `flashFlowToBatchPost` print the measurements of a record as
they are.  The labels and the brackets are in order whatever the records, so the payload is
a JSON array of the records if each measurement is printed as a number, and if one is not,
as a float that is not a number is not, it is no JSON at all: `batch_payload_iff`.

A server that takes only JSON then refuses the payload, and `rIndex` does not go on.
`unprintable_blocks`: no post ever gets past such a record.
-/

namespace EnresLogger

open Lib Lib.Json

/-! ### What the payload should say -/

/-- The words behind the number and the time. -/
def Record.measured (r : Record) : List UInt32 := r.words.drop 2

/-- How a measurement is printed. -/
def Format.words (fmt : Format) (r : Record) : List (List Char) :=
  r.measured.map fun w => (fmt.float w).toList

/-- What the library does with the records: a measurement is printed without punctuation, a
time as digits. -/
structure Format.Prints (fmt : Format) (rs : List Record) : Prop where
  float : ∀ r ∈ rs, ∀ s ∈ fmt.words r, s ≠ [] ∧ ∀ c ∈ s, Scan.Plain c
  time : ∀ r ∈ rs, ∀ mdt ∈ r.words[1]?, Digits (fmt.time mdt).toList

/-- The object says what the record says. -/
def Lists (fmt : Format) (l : Layout) (o : Json) (r : Record) : Prop :=
  ∃ xid mdt values, r.words = xid :: mdt :: r.measured ∧
    List.Forall₂ (fun x s => Text (.value x) s) values (fmt.words r) ∧
    o = .obj ((l.idLabel.toList, .str (toString xid.toNat).toList) ::
      (l.timeLabel.toList, .str (fmt.time mdt).toList) ::
      (l.fields.map (·.1.toList)).zip values)

/-- Labels that need no escapes, and an object that is closed. -/
structure Layout.Proper (l : Layout) : Prop where
  idLabel : Body l.idLabel.toList
  timeLabel : Body l.timeLabel.toList
  fields : Closed l.fields

theorem body_of_all {s : String}
    (h : s.toList.all (fun c => decide (c ≠ '\x22' ∧ c ≠ '\x5c' ∧ 32 ≤ c.toNat)) = true) :
    Body s.toList :=
  body_of_forall (forall_of_all h)

/-- Fields whose labels need no escapes, and of which the last one closes the object. -/
theorem closed_of_all {fields : List (String × String)} (hne : fields ≠ [])
    (hlabels : ∀ field ∈ fields, Body field.1.toList)
    (hcomma : ∀ field ∈ fields.dropLast, field.2 = ",")
    (hlast : ∀ field ∈ fields.getLast?, field.2 = "\x7d") : Closed fields := by
  induction fields with
  | nil => exact absurd rfl hne
  | cons field fields ih =>
    have hbody := hlabels field List.mem_cons_self
    cases fields with
    | nil => exact ⟨hbody, hlast field rfl⟩
    | cons field' fields =>
      refine ⟨hbody, hcomma field List.mem_cons_self, ih (List.cons_ne_nil _ _) ?_ ?_ ?_⟩
      · exact fun f hf => hlabels f (List.mem_cons_of_mem _ hf)
      · exact fun f hf => hcomma f (List.mem_cons_of_mem _ hf)
      · exact hlast

theorem meterLayout_proper : meterLayout.Proper where
  idLabel := body_of_all (by decide)
  timeLabel := body_of_all (by decide)
  fields := closed_of_all (by decide) (fun field hf => body_of_all (by revert field; decide))
    (by decide) (by decide)

theorem flowLayout_proper : flowLayout.Proper where
  idLabel := body_of_all (by decide)
  timeLabel := body_of_all (by decide)
  fields := closed_of_all (by decide) (fun field hf => body_of_all (by revert field; decide))
    (by decide) (by decide)

/-! ### The text of a record -/

theorem spells_fieldsText {fmt : Format} {fields : List (String × String)} (hf : Closed fields)
    {ws : List UInt32} (hlen : ws.length = fields.length)
    (hws : ∀ w ∈ ws, (fmt.float w).toList ≠ [] ∧ ∀ c ∈ (fmt.float w).toList, Scan.Plain c) :
    Spells (fieldsText fmt fields ws).toList (ws.map fun w => (fmt.float w).toList) := by
  induction fields generalizing ws with
  | nil => exact hf.elim
  | cons field fields ih =>
    cases ws with
    | nil => cases hlen
    | cons w ws =>
      obtain ⟨hne, hplain⟩ := hws w List.mem_cons_self
      have hword := spells_word hne hplain
      cases fields with
      | nil =>
        obtain ⟨hbody, hclose⟩ := hf
        obtain rfl := List.eq_nil_of_length_eq_zero (Nat.succ.inj hlen)
        have := (spells_quoted hbody).append (c := ':') (by decide) (hword.close (c := '\x7d')
          (by decide))
        rw [fieldsText, hclose, fieldsText, String.append_empty]
        · simpa [quoted] using this
        · intro _ _ _ _ h
          cases h
      | cons field' fields =>
        obtain ⟨hbody, hcomma, hf⟩ := hf
        have hrest := ih hf (Nat.succ.inj hlen) fun v hv => hws v (List.mem_cons_of_mem _ hv)
        have := (spells_quoted hbody).append (c := ':') (by decide)
          (hword.append (c := ',') (by decide) hrest)
        rw [fieldsText, hcomma]
        simpa [quoted] using this

theorem members_fieldsText {fmt : Format} {fields : List (String × String)} (hf : Closed fields)
    {ws : List UInt32} (hlen : ws.length = fields.length)
    (hws : ∀ w ∈ ws, Literal (fmt.float w).toList) :
    ∃ values s, List.Forall₂ (fun x s => Text (.value x) s) values
        (ws.map fun w => (fmt.float w).toList) ∧
      Text (.members ((fields.map (·.1.toList)).zip values)) s ∧
      (fieldsText fmt fields ws).toList = s ++ ['\x7d'] := by
  induction fields generalizing ws with
  | nil => exact hf.elim
  | cons field fields ih =>
    cases ws with
    | nil => cases hlen
    | cons w ws =>
      obtain ⟨x, hx⟩ := (hws w List.mem_cons_self).text
      cases fields with
      | nil =>
        obtain ⟨hbody, hclose⟩ := hf
        obtain rfl := List.eq_nil_of_length_eq_zero (Nat.succ.inj hlen)
        refine ⟨[x], _, .cons hx .nil, text_member hbody hx, ?_⟩
        rw [fieldsText, hclose, fieldsText, String.append_empty]
        · simp [quoted]
        · intro _ _ _ _ h
          cases h
      | cons field' fields =>
        obtain ⟨hbody, hcomma, hf⟩ := hf
        obtain ⟨values, s, hvalues, hs, htext⟩ := ih hf (Nat.succ.inj hlen)
          fun v hv => hws v (List.mem_cons_of_mem _ hv)
        refine ⟨x :: values, _, .cons hx hvalues, text_members hbody hx hs, ?_⟩
        rw [fieldsText, hcomma, String.toList_append, htext]
        simp [quoted]

theorem objectText_toList (fmt : Format) (l : Layout) (xid mdt : UInt32) (ws : List UInt32) :
    (objectText fmt l (xid :: mdt :: ws)).toList =
      '\x7b' :: (quoted l.idLabel.toList ++ ':' :: (quoted (toString xid.toNat).toList ++ ',' ::
        (quoted l.timeLabel.toList ++ ':' :: (quoted (fmt.time mdt).toList ++ ',' ::
          (fieldsText fmt l.fields ws).toList)))) := by
  rw [objectText]
  simp [quoted]

theorem body_number (n : Nat) : Body (toString n).toList := by
  have hdigits : Digits (Nat.toDigits 10 n) :=
    ⟨Nat.toDigits_ne_nil, fun _ hc => Nat.isDigit_of_mem_toDigits (by decide) (by decide) hc⟩
  have := body_digits hdigits
  simpa using this

theorem Record.Fits.split {l : Layout} {r : Record} (h : r.Fits l) :
    ∃ xid mdt, r.words = xid :: mdt :: r.measured ∧ r.measured.length = l.fields.length := by
  have hlen := h.words
  rw [measured]
  match r.words, hlen with
  | xid :: mdt :: ws, hlen => exact ⟨xid, mdt, rfl, by simpa using hlen⟩

/-- **The words of a record.** -/
theorem spells_objectText {fmt : Format} {l : Layout} (hl : l.Proper) {r : Record} (hr : r.Fits l)
    (hfmt : fmt.Prints [r]) : Spells (objectText fmt l r.words).toList (fmt.words r) := by
  obtain ⟨xid, mdt, hwords, hlen⟩ := hr.split
  have htime : Digits (fmt.time mdt).toList := by
    refine hfmt.time r List.mem_cons_self mdt ?_
    rw [hwords]
    rfl
  have hfields := spells_fieldsText hl.fields hlen fun w hw =>
    hfmt.float r List.mem_cons_self _ (List.mem_map_of_mem hw)
  rw [hwords, objectText_toList]
  have htail := (spells_quoted hl.timeLabel).append (c := ':') (by decide)
    ((spells_quoted (body_digits htime)).append (c := ',') (by decide) hfields)
  exact ((spells_quoted hl.idLabel).append (by decide)
    ((spells_quoted (body_number _)).append (by decide) htail)).mark (by decide)

/-- **A record that is printed in literals** is an object. -/
theorem text_objectText {fmt : Format} {l : Layout} (hl : l.Proper) {r : Record} (hr : r.Fits l)
    (hfmt : fmt.Prints [r]) (hwords : ∀ s ∈ fmt.words r, Literal s) :
    ∃ o, Lists fmt l o r ∧ Text (.value o) (objectText fmt l r.words).toList := by
  obtain ⟨xid, mdt, heq, hlen⟩ := hr.split
  have htime : Digits (fmt.time mdt).toList := by
    refine hfmt.time r List.mem_cons_self mdt ?_
    rw [heq]
    rfl
  obtain ⟨values, s, hvalues, hs, htext⟩ := members_fieldsText hl.fields hlen fun w hw =>
    hwords _ (List.mem_map_of_mem hw)
  refine ⟨_, ⟨xid, mdt, values, heq, hvalues, rfl⟩, ?_⟩
  rw [heq, objectText_toList, htext]
  have := Text.obj (text_members hl.idLabel (Text.str (body_number xid.toNat))
    (text_members hl.timeLabel (Text.str (body_digits htime)) hs))
  simpa only [List.append_assoc, List.cons_append] using this

/-! ### The payload -/

theorem payloadText_toList (fmt : Format) (l : Layout) (rs : List Record) :
    (payloadText fmt l rs).toList =
      '[' :: ([','].intercalate (rs.map fun r => (objectText fmt l r.words).toList) ++ [']']) := by
  rw [payloadText]
  simp only [String.toList_append, String.toList_intercalate, List.map_map, List.append_assoc]
  rfl

theorem Format.Prints.of_mem {fmt : Format} {rs : List Record} (h : fmt.Prints rs) {r : Record}
    (hr : r ∈ rs) : fmt.Prints [r] := by
  constructor
  · intro r' hr'
    rw [List.mem_singleton.mp hr']
    exact h.float r hr
  · intro r' hr'
    rw [List.mem_singleton.mp hr']
    exact h.time r hr

/-- **The words of a payload** are its measurements, as they are printed. -/
theorem spells_payloadText {fmt : Format} {l : Layout} (hl : l.Proper) {rs : List Record}
    (hfit : ∀ r ∈ rs, r.Fits l) (hfmt : fmt.Prints rs) :
    Spells (payloadText fmt l rs).toList (rs.flatMap fmt.words) := by
  have hobjects : List.Forall₂ Spells (rs.map fun r => (objectText fmt l r.words).toList)
      (rs.map fmt.words) := by
    rw [List.forall₂_map_left_iff, List.forall₂_map_right_iff, List.forall₂_same]
    exact fun r hr => spells_objectText hl (hfit r hr) (hfmt.of_mem hr)
  rw [payloadText_toList]
  exact ((spells_intercalate hobjects).close (by decide)).mark (by decide)

theorem denotes_payloadText {fmt : Format} {l : Layout} (hl : l.Proper) {rs : List Record}
    (hfit : ∀ r ∈ rs, r.Fits l) (hfmt : fmt.Prints rs)
    (hwords : ∀ s ∈ rs.flatMap fmt.words, Literal s) :
    ∃ objects, Denotes (.arr objects) (payloadText fmt l rs).toList ∧
      List.Forall₂ (Lists fmt l) objects rs := by
  have hobjects : ∃ objects, List.Forall₂ (Lists fmt l) objects rs ∧
      List.Forall₂ (fun o t => Text (.value o) t) objects
        (rs.map fun r => (objectText fmt l r.words).toList) := by
    induction rs with
    | nil => exact ⟨[], .nil, .nil⟩
    | cons r rs ih =>
      obtain ⟨objects, hlists, htexts⟩ := ih (fun r hr => hfit r (List.mem_cons_of_mem _ hr))
        ⟨fun r hr => hfmt.float r (List.mem_cons_of_mem _ hr),
          fun r hr => hfmt.time r (List.mem_cons_of_mem _ hr)⟩
        fun s hs => hwords s (by rw [List.flatMap_cons]; exact List.mem_append_right _ hs)
      obtain ⟨o, ho, htext⟩ := text_objectText hl (hfit r List.mem_cons_self)
        (hfmt.of_mem List.mem_cons_self) fun s hs => hwords s (by
          rw [List.flatMap_cons]
          exact List.mem_append_left _ hs)
      exact ⟨o :: objects, .cons ho hlists, .cons htext htexts⟩
  obtain ⟨objects, hlists, htexts⟩ := hobjects
  refine ⟨objects, ?_, hlists⟩
  rw [payloadText_toList]
  exact denotes_arr htexts

/-- **The payload of a batch** is JSON if and only if every measurement is printed as a literal,
and then it is the array of the records, in order. -/
theorem batch_payload_iff {fmt : Format} {l : Layout} (hl : l = meterLayout ∨ l = flowLayout)
    {rBuff : RecordBuff} {rs : List Record} (hfit : ∀ r ∈ rs, r.Fits l)
    (hb : rBuff.Begins (recordBytes rs)) (hfmt : fmt.Prints rs) :
    ∃ body, batchBody fmt l rBuff rs.length = some body ∧
      ((∃ j, Denotes j body.toList) ↔ ∀ r ∈ rs, ∀ w ∈ r.measured, Literal (fmt.float w).toList) ∧
      ((∃ j, Denotes j body.toList) → ∃ objects, Denotes (.arr objects) body.toList ∧
        List.Forall₂ (Lists fmt l) objects rs) := by
  have hproper : l.Proper := by
    rcases hl with rfl | rfl
    · exact meterLayout_proper
    · exact flowLayout_proper
  have hspells := spells_payloadText hproper hfit hfmt
  have hall : (∀ s ∈ rs.flatMap fmt.words, Literal s) ↔
      ∀ r ∈ rs, ∀ w ∈ r.measured, Literal (fmt.float w).toList := by
    simp only [List.forall_mem_flatMap, Format.words, List.forall_mem_map]
  refine ⟨_, batchBody_eq fmt hfit hb, ⟨?_, ?_⟩, ?_⟩
  · rintro ⟨j, hj⟩
    exact hall.mp (hj.literal hspells)
  · intro hlit
    obtain ⟨objects, hobjects, _⟩ := denotes_payloadText hproper hfit hfmt (hall.mpr hlit)
    exact ⟨_, hobjects⟩
  · rintro ⟨j, hj⟩
    exact denotes_payloadText hproper hfit hfmt (hj.literal hspells)

/-- A library that tells a float that is not a number. -/
def Format.nan : Format where
  float w := if w &&& 0x7fffffff > 0x7f800000 then "nan" else "0.0000"
  time _ := "0"

theorem Format.nan_prints (rs : List Record) : Format.nan.Prints rs := by
  constructor
  · intro r _ s hs
    obtain ⟨w, _, rfl⟩ := List.mem_map.mp hs
    rw [nan]
    dsimp only
    split
    · exact ⟨by decide, forall_of_all (by decide)⟩
    · exact ⟨by decide, forall_of_all (by decide)⟩
  · intro r _ mdt _
    show Digits "0".toList
    exact ⟨by decide, forall_of_all (by decide)⟩

theorem literal_zero : Literal "0.0000".toList :=
  .num (Number.mk (Or.inl rfl) (Or.inl rfl)
    (Or.inr ⟨['0', '0', '0', '0'], ⟨by decide, forall_of_all (by decide)⟩, rfl⟩) (Or.inl rfl))

/-- Two records, of which the second has a temperature that is not a number. -/
theorem batch_payload_two : ∃ body,
    batchBody .nan flowLayout (recordsBuff [.flow 0 {}, .flow 1 { tm1 := 0x7fc00000 }]) 2
        = some body ∧ ¬ ∃ j, Denotes j body.toList := by
  obtain ⟨body, hbody, hiff, _⟩ := @batch_payload_iff .nan _ (Or.inr rfl) _
    [.flow 0 {}, .flow 1 { tm1 := 0x7fc00000 }]
    (List.forall_mem_cons.mpr ⟨Record.fits_flow rfl,
      List.forall_mem_singleton.mpr (Record.fits_flow rfl)⟩)
    (recordsBuff_begins (by decide)) (Format.nan_prints _)
  refine ⟨body, hbody, fun hj => not_literal_nan ?_⟩
  exact hiff.mp hj _ (List.mem_cons_of_mem _ List.mem_cons_self) 0x7fc00000 (by decide)

/-! ### Runs -/

namespace Logger

theorem BatchMode.layout_proper {s : Logger} (h : s.BatchMode) :
    (layoutOf s.sd.cfgG.type).Proper := by
  rcases h.type with htype | htype
  · rw [htype]
    exact meterLayout_proper
  · rw [htype]
    exact flowLayout_proper

/-- **An unprintable measurement blocks the queue**: if the server acknowledges only JSON, no
post ever gets past a record with one. -/
theorem unprintable_blocks {fmt : Format} {s₀ s : Logger} (h₀ : s₀.Fresh) (hmode : s₀.BatchMode)
    (hrun : Reach fmt Backlogged s₀ s) (hfmt : fmt.Prints (s.commits.map (·.2)))
    (hserver : ∀ p ∈ s.answered, ∃ j, Denotes j p.playload.toList) {i : Nat} {r : Record}
    (hr : (i, r) ∈ s.commits) {w : UInt32} (hw : w ∈ r.measured)
    (hlit : ¬ Literal (fmt.float w).toList) : s.rIndex ≤ i := by
  have h := hrun.invariant (Delivers fmt s₀.sd) (h₀.delivers fmt)
    (fun s l s' h hnext hl => h.next (hmode.of_sd h.sd_eq) hnext hl)
  obtain ⟨q, hq⟩ := h.spools
  obtain ⟨groups, hpay, hflat⟩ := hq.delivered
  by_contra hlt
  -- the record is in a group whose payload was acknowledged
  have hsent : r ∈ groups.flatten := by
    rw [hflat]
    refine List.mem_map.mpr ⟨(i, r), List.mem_filter.mpr ⟨hr, ?_⟩, rfl⟩
    exact decide_eq_true (Nat.not_le.mp hlt)
  obtain ⟨g, hg, hrg⟩ := List.mem_flatten.mp hsent
  have hans : payloadText fmt (layoutOf s₀.sd.cfgG.type) g ∈ s.answered.map (·.playload) := by
    rw [hpay]
    exact List.mem_map_of_mem hg
  obtain ⟨p, hp, hplay⟩ := List.mem_map.mp hans
  obtain ⟨j, hj⟩ := hserver p hp
  have hmem : ∀ r ∈ g, r ∈ s.commits.map (·.2) := by
    intro r hr
    have : r ∈ groups.flatten := List.mem_flatten.mpr ⟨g, hg, hr⟩
    rw [hflat] at this
    exact List.map_subset _ (List.filter_subset_self _) this
  have hfit : ∀ r ∈ g, r.Fits (layoutOf s₀.sd.cfgG.type) := by
    intro r hr
    obtain ⟨e, he, rfl⟩ := List.mem_map.mp (hmem r hr)
    exact hq.fits e he
  have hprints : fmt.Prints g := ⟨fun r hr => hfmt.float r (hmem r hr),
    fun r hr => hfmt.time r (hmem r hr)⟩
  rw [hplay] at hj
  refine hlit (hj.literal (spells_payloadText hmode.layout_proper hfit hprints) _ ?_)
  exact List.mem_flatMap.mpr ⟨r, hrg, List.mem_map_of_mem hw⟩

/-- A device with a flow sensor that posts a record at a time. -/
def oneFlow : Logger :=
  (factory (blankChip 65536) (.plain 3 0 1) ⟨0, 0, 0⟩).setup (.plain 3 0 1)

theorem oneFlow_fresh : oneFlow.Fresh :=
  ⟨rfl, rfl, rfl, rfl, rfl, SPIFlashMeter.mounted_begin (f := blankChip 65536) (by decide)
    (by decide) (by decide)⟩

/-- A pass that reads floats that are not numbers. -/
def nanPass : Pass where
  now := 0
  fpu := { Fpu.null with mul := fun a _ => if a &&& 0x7fffffff > 0x7f800000 then a else 0 }
  bus := fun _ _ _ _ _ _ => (0, .replicate _ 0xffff)
  outcome := .healthy

/-- The server takes the first post and refuses the second. -/
def refusing : Network := ⟨true, (false, false), fun k => if k = 0 then 200 else 400⟩

/-- A record of numbers and one of none are logged; the post delivers the first and stays there. -/
theorem unprintable_blocks_second :
    ∃ s, oneFlow.run .nan [.log (sensorPass .healthy), .log nanPass, .post refusing] = some s ∧
      s.wIndex = 2 ∧ s.rIndex ≤ 1 := by
  have hrun : ((next .nan (.log (sensorPass .healthy)) oneFlow).bind fun s₁ =>
      (next .nan (.log nanPass) s₁).bind fun s₂ => (next .nan (.post refusing) s₂).map fun s₃ =>
        decide ((s₁.wIndex = 1 ∧ s₁.rIndex = 0 ∧ s₁.flash.maxRecord = 896 ∧ s₁.passSize = 1) ∧
          (s₂.wIndex = 2 ∧ s₂.rIndex = 0 ∧ s₂.flash.maxRecord = 896) ∧ s₃.wIndex = 2 ∧
          s₃.answered.map (·.playload) = [payloadText .nan flowLayout [.flow 0 {}]] ∧
          ∃ e ∈ s₃.commits, e.1 = 1 ∧ 0xffffffff ∈ e.2.measured)) = some true := by
    decide +kernel
  obtain ⟨s₁, h₁, hrun⟩ := Option.bind_eq_some_iff.mp hrun
  obtain ⟨s₂, h₂, hrun⟩ := Option.bind_eq_some_iff.mp hrun
  obtain ⟨s₃, h₃, heq⟩ := Option.map_eq_some_iff.mp hrun
  obtain ⟨⟨hw₁, hr₁, hmax₁, hpass⟩, ⟨hw₂, hr₂, hmax₂⟩, hw₃, hans, e, he, hone, hw⟩ :=
    of_decide_eq_true heq
  have hsd : oneFlow.sd = .plain 3 0 1 := rfl
  have hstep₁ : Backlogged oneFlow (.log (sensorPass .healthy)) s₁ :=
    ⟨show 0 + 84 ≤ 0 + 896 by decide, show 0 + 1 ≤ 4294967296 by decide, Nat.zero_le s₁.wIndex⟩
  have hstep₂ : Backlogged s₁ (.log nanPass) s₂ := by
    refine ⟨?_, ?_, ?_⟩
    · rw [hw₁, hr₁, hmax₁]
      decide
    · rw [hw₁, hpass]
      decide
    · rw [hw₁, hw₂]
      decide
  have hstep₃ : Backlogged s₂ (.post refusing) s₃ :=
    ⟨by rw [hw₂, hr₂, hmax₂]; decide, trivial⟩
  refine ⟨s₃, (run_cons h₁).trans ((run_cons h₂).trans (run_cons h₃)), hw₃, ?_⟩
  refine unprintable_blocks oneFlow_fresh ⟨Or.inr (by rw [hsd]; rfl), by rw [hsd]; decide⟩
    (((Reach.refl.step h₁ hstep₁).step h₂ hstep₂).step h₃ hstep₃) (Format.nan_prints _) ?_
    (r := e.2) (by rw [← hone]; exact he) hw not_literal_nan
  intro p hp
  have hplay : p.playload ∈ s₃.answered.map (·.playload) := List.mem_map_of_mem hp
  rw [hans, List.mem_singleton] at hplay
  obtain ⟨objects, hobjects, _⟩ := @denotes_payloadText .nan _ flowLayout_proper
    [.flow 0 {}] (List.forall_mem_singleton.mpr (Record.fits_flow rfl))
    (Format.nan_prints _) fun s hs => by
      have hwords : [Record.flow 0 {}].flatMap Format.nan.words =
          List.replicate 9 "0.0000".toList := by decide +kernel
      rw [hwords] at hs
      rw [List.eq_of_mem_replicate hs]
      exact literal_zero
  rw [hplay]
  exact ⟨_, hobjects⟩

end Logger

end EnresLogger
