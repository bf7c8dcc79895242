import EnresLogger.Lib.Json
import EnresLogger.SensorPayload

/-!
# When the sensor payload is JSON

`flashSensorToBatchPost` separates the groups of a record by one rule and the
records by another, and it closes an object only for the types 1 to 4.  So the
payload is a JSON array of the used groups (`Faithful`) exactly when

* no group has a type above 4: such an object is left open, and the cursor moves
  over its first 9 bytes only, so that group 1 is read out of group 0;
* no record of a batch of two or more is without a used group: its comma has
  nothing before it or nothing behind it.

`decodeSensor_known` is one record of known types, `decodeSensor_broken` one that
is not in order: the scan of the payload is stuck behind it, or will be at the
closing bracket.  `decodeSensor_next` puts them together, `sensorBody_iff` is the
whole batch, and `sensor_payload_iff` says the same of what `SensorToFlash`
wrote.
-/

namespace EnresLogger

open Lib Lib.Json

/-! ### What the payload should say -/

/-- A record is a pair of groups. -/
def sensorRecords (rs : List (SensorGroup × SensorGroup)) : List Record :=
  rs.map fun r => .sensor r.1 r.2

/-- The groups with something in them, in order. -/
def usedGroups (rs : List (SensorGroup × SensorGroup)) : List SensorGroup :=
  (rs.flatMap fun r => [r.1, r.2]).filter fun g => g.used ≠ 0

/-- The values that are printed. -/
def SensorGroup.printed (g : SensorGroup) : List UInt32 :=
  g.values.toList.take (sensorFields g.used).1.length

/-- The numbers of the groups are printed as numbers, and their times as digits. -/
structure Format.Proper (fmt : Format) (gs : List SensorGroup) : Prop where
  float : ∀ g ∈ gs, ∀ v ∈ g.printed, Number (fmt.float v).toList
  time : ∀ g ∈ gs, Digits (fmt.time g.time).toList

theorem Format.Proper.mono {fmt : Format} {gs gs' : List SensorGroup} (h : fmt.Proper gs)
    (hsub : gs' ⊆ gs) : fmt.Proper gs' :=
  ⟨fun g hg => h.float g (hsub hg), fun g hg => h.time g (hsub hg)⟩

/-- The object names the group and its time. -/
def Tells (fmt : Format) (o : Json) (g : SensorGroup) : Prop :=
  ∃ rest, o = .obj (("external_sensor_id".toList, .num (toString g.xid.toNat).toList) ::
    ("sdt".toList, .str (fmt.time g.time).toList) :: rest)

/-- The payload is an array with one object for each used group, and group `j`
of record `i` was read `25 * j` bytes behind the start of the record. -/
def Faithful (fmt : Format) (rs : List (SensorGroup × SensorGroup))
    (body : String × List Nat) : Prop :=
  (∃ objects, Denotes (.arr objects) body.1.toList ∧
    List.Forall₂ (Tells fmt) objects (usedGroups rs)) ∧
  body.2 = (List.range rs.length).flatMap fun i => [64 * i, 64 * i + 25]

/-- The types are known, and a record that is not alone has a used group. -/
def Formed (num : Nat) (r : SensorGroup × SensorGroup) : Prop :=
  r.1.used ≤ 4 ∧ r.2.used ≤ 4 ∧ (num = 1 ∨ r.1.used ≠ 0 ∨ r.2.used ≠ 0)

instance (num : Nat) (r : SensorGroup × SensorGroup) : Decidable (Formed num r) :=
  inferInstanceAs (Decidable (_ ∧ _))

/-! ### The text of a group -/

/-- The labels of an object, to its closing bracket. -/
def Closed : List (String × String) → Prop
  | [] => False
  | [field] => Body field.1.toList ∧ field.2 = "\x7d"
  | field :: fields => Body field.1.toList ∧ field.2 = "," ∧ Closed fields

theorem used_cases {used : UInt8} (h0 : used ≠ 0) (h4 : used ≤ 4) :
    used = 1 ∨ used = 2 ∨ used = 3 ∨ used = 4 := by
  have h0' : used.toNat ≠ 0 := fun h => h0 (UInt8.toNat_inj.mp h)
  have h4' : used.toNat ≤ 4 := UInt8.le_iff_toNat_le.mp h4
  have : used.toNat = 1 ∨ used.toNat = 2 ∨ used.toNat = 3 ∨ used.toNat = 4 := by omega
  rcases this with h | h | h | h
  · exact Or.inl (UInt8.toNat_inj.mp h)
  · exact Or.inr (Or.inl (UInt8.toNat_inj.mp h))
  · exact Or.inr (Or.inr (Or.inl (UInt8.toNat_inj.mp h)))
  · exact Or.inr (Or.inr (Or.inr (UInt8.toNat_inj.mp h)))

theorem used_ne_zero {used : UInt8} (h : ¬ used ≤ 4) : used ≠ 0 :=
  fun h0 => h (h0 ▸ by decide)

theorem sensorFields_size {used : UInt8} (h0 : used ≠ 0) (h4 : used ≤ 4) :
    4 * (sensorFields used).1.length + (sensorFields used).2 = 16 := by
  rcases used_cases h0 h4 with rfl | rfl | rfl | rfl <;> rfl

theorem sensorFields_closed {used : UInt8} (h0 : used ≠ 0) (h4 : used ≤ 4) :
    Closed (sensorFields used).1 := by
  have hbody : ∀ s ∈ ["tm1", "tm2", "ps1", "ps2", "rt", "hm", "co2", "ps"], Body s.toList := by
    intro s hs
    apply body_of_forall
    apply forall_of_all
    revert s
    decide
  rcases used_cases h0 h4 with rfl | rfl | rfl | rfl
  · exact ⟨hbody "tm1" (by decide), rfl, hbody "tm2" (by decide), rfl,
      hbody "ps1" (by decide), rfl, hbody "ps2" (by decide), rfl⟩
  · exact ⟨hbody "rt" (by decide), rfl, hbody "hm" (by decide), rfl⟩
  · exact ⟨hbody "co2" (by decide), rfl⟩
  · exact ⟨hbody "ps" (by decide), rfl⟩

theorem sensorFields_unknown {used : UInt8} (h : ¬ used ≤ 4) : sensorFields used = ([], 0) := by
  unfold sensorFields
  split
  · exact absurd (by decide) h
  · exact absurd (by decide) h
  · exact absurd (by decide) h
  · exact absurd (by decide) h
  · rfl

theorem SensorGroup.printed_length (g : SensorGroup) :
    g.printed.length = (sensorFields g.used).1.length := by
  have : (sensorFields g.used).1.length ≤ 4 := by
    unfold sensorFields
    split <;> decide
  rw [printed, List.length_take, Vector.length_toList]
  omega

def headText (xid time : String) : String :=
  "\x7b\"external_sensor_id\":" ++ xid ++ "," ++ ("\"sdt\":\"" ++ time ++ "\",")

def SensorGroup.head (fmt : Format) (g : SensorGroup) : String :=
  headText (toString g.xid.toNat) (fmt.time g.time)

def SensorGroup.text (fmt : Format) (g : SensorGroup) : String :=
  g.head fmt ++ fieldsText fmt (sensorFields g.used).1 g.printed

/-- The bytes a used group is taken for. -/
def SensorGroup.size (g : SensorGroup) : Nat :=
  9 + 4 * (sensorFields g.used).1.length + (sensorFields g.used).2

theorem SensorGroup.size_known {g : SensorGroup} (h0 : g.used ≠ 0) (h4 : g.used ≤ 4) :
    g.size = 25 := by
  have := sensorFields_size h0 h4
  rw [size]
  omega

theorem SensorGroup.text_unknown (fmt : Format) {g : SensorGroup} (h : ¬ g.used ≤ 4) :
    g.text fmt = g.head fmt := by
  rw [text, sensorFields_unknown h, fieldsText, String.append_empty]
  intro _ _ _ _ h
  cases h

theorem fieldsText_members {fmt : Format} {fields : List (String × String)} (hf : Closed fields)
    {ws : List UInt32} (hlen : ws.length = fields.length)
    (hws : ∀ w ∈ ws, Number (fmt.float w).toList) :
    ∃ ms s, Text (.members ms) s ∧ (fieldsText fmt fields ws).toList = s ++ ['\x7d'] := by
  induction fields generalizing ws with
  | nil => exact hf.elim
  | cons field fields ih =>
    cases ws with
    | nil => cases hlen
    | cons w ws =>
      have hw := Text.num (hws w List.mem_cons_self)
      cases fields with
      | nil =>
        obtain ⟨hbody, hclose⟩ := hf
        refine ⟨_, _, text_member hbody hw, ?_⟩
        obtain rfl := List.eq_nil_of_length_eq_zero (Nat.succ.inj hlen)
        rw [fieldsText, hclose, fieldsText, String.append_empty]
        · simp [quoted]
        · intro _ _ _ _ h
          cases h
      | cons field' fields =>
        obtain ⟨hbody, hcomma, hf⟩ := hf
        obtain ⟨ms, s, hs, htext⟩ := ih hf (Nat.succ.inj hlen)
          fun v hv => hws v (List.mem_cons_of_mem _ hv)
        refine ⟨_, _, text_members hbody hw hs, ?_⟩
        rw [fieldsText, hcomma, String.toList_append, htext]
        simp [quoted]

theorem headText_toList (xid time : String) :
    (headText xid time).toList =
      '\x7b' :: (quoted "external_sensor_id".toList ++ ':' :: (xid.toList ++ ',' ::
        (quoted "sdt".toList ++ ':' :: (quoted time.toList ++ [','])))) := by
  unfold headText
  simp [quoted]

theorem body_label {t : String} (h : t = "external_sensor_id" ∨ t = "sdt") : Body t.toList := by
  apply body_of_forall
  rcases h with rfl | rfl <;> exact forall_of_all (by decide)

theorem number_xid (g : SensorGroup) : Number (toString g.xid.toNat).toList := by
  have := number_toDigits g.xid.toNat
  simpa using this

theorem text_tells {xid time : String} {ms : List (List Char × Json)} {s : List Char}
    (hxid : Number xid.toList) (htime : Digits time.toList) (hms : Text (.members ms) s) :
    Text (.value (.obj (("external_sensor_id".toList, .num xid.toList) ::
      ("sdt".toList, .str time.toList) :: ms)))
      ((headText xid time).toList ++ (s ++ ['\x7d'])) := by
  have := Text.obj (text_members (body_label (Or.inl rfl)) (Text.num hxid)
    (text_members (body_label (Or.inr rfl)) (Text.str (body_digits htime)) hms))
  rw [headText_toList]
  simpa only [List.append_assoc, List.cons_append, List.nil_append] using this

/-- **A group of a known type is an object** that tells its number and its time. -/
theorem SensorGroup.text_object {fmt : Format} {g : SensorGroup} (h0 : g.used ≠ 0)
    (h4 : g.used ≤ 4) (hfloat : ∀ v ∈ g.printed, Number (fmt.float v).toList)
    (htime : Digits (fmt.time g.time).toList) :
    ∃ o, Tells fmt o g ∧ Text (.value o) (g.text fmt).toList := by
  obtain ⟨ms, s, hms, htext⟩ := fieldsText_members (sensorFields_closed h0 h4)
    g.printed_length hfloat
  refine ⟨_, ⟨ms, rfl⟩, ?_⟩
  rw [text, String.toList_append, htext]
  exact text_tells (number_xid g) htime hms

/-! ### One group -/

variable {fmt : Format} {rBuff : RecordBuff} {pre post : List UInt8} {g : SensorGroup}
  {st st' : SensorDecode}

theorem used_get (hb : rBuff.Begins (pre ++ (g.bytes ++ post))) :
    rBuff.get pre.length 1 = some [g.used] :=
  (show rBuff.Begins (pre ++ ([g.used] ++
    (wordsBytes (g.xid :: g.time :: g.values.toList) ++ post))) from hb).get

theorem decodeGroup_unused (hb : rBuff.Begins (pre ++ (g.bytes ++ post)))
    (hst : st.index = pre.length) (h0 : g.used = 0) :
    decodeGroup fmt rBuff st =
      some ⟨st.playload, st.index + 25, st.cnt, st.cursors ++ [st.index]⟩ := by
  rw [decodeGroup, hst, used_get hb]
  simp [h0]

theorem decodeGroup_used (hb : rBuff.Begins (pre ++ (g.bytes ++ post)))
    (hst : st.index = pre.length) (h0 : g.used ≠ 0) :
    decodeGroup fmt rBuff st =
      some ⟨(if 0 < st.cnt then st.playload ++ "," else st.playload) ++ g.text fmt,
        st.index + g.size, st.cnt + 1, st.cursors ++ [st.index]⟩ := by
  have hvalues : g.values.toList = g.printed ++ g.values.toList.drop g.printed.length := by
    rw [g.printed_length]
    exact (List.take_append_drop _ _).symm
  have hbytes : g.bytes ++ post = [g.used] ++ (leBytes g.xid ++ (leBytes g.time ++
      (wordsBytes g.printed ++ (wordsBytes (g.values.toList.drop g.printed.length) ++ post)))) := by
    conv_lhs => rw [SensorGroup.bytes, hvalues]
    simp only [wordsBytes, List.flatMap_cons, List.flatMap_append, List.append_assoc,
      List.cons_append, List.nil_append]
  have hused := used_get hb
  rw [hbytes] at hb
  have hb1 : rBuff.Begins ((pre ++ [g.used]) ++ (leBytes g.xid ++ (leBytes g.time ++
      (wordsBytes g.printed ++
        (wordsBytes (g.values.toList.drop g.printed.length) ++ post))))) := by
    simpa only [List.append_assoc] using hb
  have hb5 : rBuff.Begins ((pre ++ [g.used] ++ leBytes g.xid) ++ (leBytes g.time ++
      (wordsBytes g.printed ++
        (wordsBytes (g.values.toList.drop g.printed.length) ++ post)))) := by
    simpa only [List.append_assoc] using hb
  have hb9 : rBuff.Begins ((pre ++ [g.used] ++ leBytes g.xid ++ leBytes g.time) ++
      (wordsBytes g.printed ++
        (wordsBytes (g.values.toList.drop g.printed.length) ++ post))) := by
    simpa only [List.append_assoc] using hb
  have hxid := hb1.word
  have htime := hb5.word
  have hfields := fun p => decodeFields_eq fmt g.printed_length.symm hb9 p
  simp only [List.length_append, List.length_singleton, leBytes_length, Nat.add_assoc,
    Nat.reduceAdd] at hxid htime hfields
  simp only [decodeGroup, hst, hused, hxid, htime, hfields, Option.map_some, Option.bind_eq_bind,
    Option.bind_some, Option.pure_def, List.getD_cons_zero, if_neg h0]
  unfold SensorGroup.text SensorGroup.head SensorGroup.size headText
  generalize "\x7b\"external_sensor_id\":" = label
  simp only [g.printed_length, String.append_assoc, Nat.add_assoc]

/-! ### A record that is in order -/

/-- The texts of the used groups. -/
def groupTexts (fmt : Format) (rs : List (SensorGroup × SensorGroup)) : List String :=
  (usedGroups rs).map fun g => g.text fmt

theorem usedGroups_append (rs rs' : List (SensorGroup × SensorGroup)) :
    usedGroups (rs ++ rs') = usedGroups rs ++ usedGroups rs' := by
  rw [usedGroups, List.flatMap_append, List.filter_append, ← usedGroups, ← usedGroups]

theorem decodeGroup_known (fmt : Format) (hb : rBuff.Begins (pre ++ (g.bytes ++ post)))
    (hst : st.index = pre.length) (h4 : g.used ≤ 4) :
    ∃ st', decodeGroup fmt rBuff st = some st' ∧ st'.index = st.index + 25 ∧
      st'.cursors = st.cursors ++ [st.index] ∧
      st'.playload = st.playload ++
        (if g.used = 0 then "" else (if 0 < st.cnt then "," else "") ++ g.text fmt) ∧
      st'.cnt = st.cnt + (if g.used = 0 then 0 else 1) := by
  by_cases h0 : g.used = 0
  · refine ⟨_, decodeGroup_unused hb hst h0, rfl, rfl, ?_, ?_⟩
    · rw [if_pos h0, String.append_empty]
    · rw [if_pos h0]
      rfl
  · refine ⟨_, decodeGroup_used hb hst h0, ?_, rfl, ?_, ?_⟩
    · rw [SensorGroup.size_known h0 h4]
    · rw [if_neg h0]
      split
      · exact String.append_assoc ..
      · rw [String.empty_append]
    · rw [if_neg h0]

/-- **A record of known types** leaves its texts and the comma behind them. -/
theorem decodeSensor_known (fmt : Format) (num : Nat) {r : SensorGroup × SensorGroup} {i : Nat}
    (hb : rBuff.Begins (pre ++ ((Record.sensor r.1 r.2).bytes ++ post)))
    (hpre : pre.length = 64 * i) (hst : st.index = 64 * i)
    (h1 : r.1.used ≤ 4) (h2 : r.2.used ≤ 4) :
    ∃ st', decodeSensor fmt rBuff num i st = some st' ∧ st'.index = 64 * (i + 1) ∧
      st'.cursors = st.cursors ++ [64 * i, 64 * i + 25] ∧
      st'.playload = st.playload ++ ",".intercalate (groupTexts fmt [r]) ++
        (if i + 1 < num then "," else "") := by
  have hb1 : rBuff.Begins (pre ++ (r.1.bytes ++ (r.2.bytes ++ (List.replicate 14 0 ++ post)))) := by
    simpa only [Record.bytes, List.append_assoc] using hb
  have hb2 : rBuff.Begins ((pre ++ r.1.bytes) ++ (r.2.bytes ++ (List.replicate 14 0 ++ post))) := by
    simpa only [List.append_assoc] using hb1
  obtain ⟨st1, hd1, hi1, hc1, hp1, hn1⟩ := decodeGroup_known fmt hb1
    (show { st with cnt := 0 }.index = pre.length from hst.trans hpre.symm) h1
  have hlen : st1.index = (pre ++ r.1.bytes).length := by
    rw [hi1, List.length_append, SensorGroup.bytes_length, hpre, hst]
  obtain ⟨st2, hd2, hi2, hc2, hp2, hn2⟩ := decodeGroup_known fmt hb2 hlen h2
  refine ⟨_, by rw [decodeSensor, hd1, Option.bind_eq_bind, Option.bind_some, hd2]; rfl,
    ?_, ?_, ?_⟩
  · rw [padding, RECSIZE]
    simp only at hi1 ⊢
    omega
  · simp only [hc2, hc1, hi1, hst, List.append_assoc, List.cons_append, List.nil_append]
  · have htexts : ",".intercalate (groupTexts fmt [r]) =
        (if r.1.used = 0 then "" else r.1.text fmt) ++
          (if r.2.used = 0 then "" else
            (if r.1.used = 0 then "" else ",") ++ r.2.text fmt) := by
      by_cases h10 : r.1.used = 0 <;> by_cases h20 : r.2.used = 0 <;>
        simp [groupTexts, usedGroups, h10, h20, String.append_assoc]
    have hcnt : 0 < st1.cnt ↔ r.1.used ≠ 0 := by
      rw [hn1]
      by_cases h10 : r.1.used = 0 <;> simp [h10]
    simp only [hp2, hp1, htexts, hcnt]
    by_cases h10 : r.1.used = 0 <;> split <;>
      simp [h10, String.append_assoc]

/-! ### A record that is not -/

/-- Where a scan of the payload so far is. -/
def scanned (playload : String) : Option Scan := Scan.want.run playload.toList

theorem scanned_append (playload t : String) :
    scanned (playload ++ t) = (scanned playload).bind fun sc => sc.run t.toList := by
  rw [scanned, String.toList_append, Scan.run_append, ← scanned]

/-- Nothing behind a place where the scan is stuck helps. -/
theorem scanned_none {playload : String} (h : scanned playload = none) (t : String) :
    scanned (playload ++ t) = none := by
  rw [scanned_append, h, Option.bind_none]

theorem scanned_comma {playload : String} {sc : Scan} (h : scanned playload = some sc)
    (hsc : sc.Open) : scanned (playload ++ ",") = none := by
  rw [scanned_append, h, Option.bind_some]
  rcases hsc with rfl | rfl <;> rfl

theorem run_headText {sc : Scan} (hsc : sc.Open) {xid time : String} (hxid : Number xid.toList)
    (htime : Digits time.toList) : sc.run (headText xid time).toList = some .want := by
  have hnum := Scan.plain_number hxid
  rw [headText_toList, Scan.run_open hsc.outside (Or.inr rfl), Scan.run_append,
    Scan.run_quoted (Or.inl rfl) (body_label (Or.inl rfl)), Option.bind_some,
    Scan.run_comma (Or.inr rfl), Scan.run_append,
    Scan.run_plain (Or.inr (Or.inl rfl)) hnum.1 hnum.2, Option.bind_some,
    Scan.run_comma (Or.inl rfl), Scan.run_append,
    Scan.run_quoted (Or.inr (Or.inl rfl)) (body_label (Or.inr rfl)), Option.bind_some,
    Scan.run_comma (Or.inr rfl), Scan.run_append,
    Scan.run_quoted (Or.inr (Or.inl rfl)) (body_digits htime), Option.bind_some]
  rfl

/-- A group of an unknown type leaves its object open. -/
theorem scanned_unknown {playload : String} {sc : Scan} (h : scanned playload = some sc)
    (hsc : sc.Open) (h4 : ¬ g.used ≤ 4) (htime : Digits (fmt.time g.time).toList) :
    scanned (playload ++ g.text fmt) = some .want := by
  rw [SensorGroup.text_unknown fmt h4, scanned_append, h, Option.bind_some]
  exact run_headText hsc (number_xid g) htime

theorem scanned_known {playload : String} {sc : Scan} (h : scanned playload = some sc)
    (hsc : sc.Open) (h0 : g.used ≠ 0) (h4 : g.used ≤ 4)
    (hfloat : ∀ v ∈ g.printed, Number (fmt.float v).toList)
    (htime : Digits (fmt.time g.time).toList) :
    scanned (playload ++ g.text fmt) = some .done := by
  obtain ⟨o, _, ho⟩ := SensorGroup.text_object h0 h4 hfloat htime
  rw [scanned_append, h, Option.bind_some, Scan.run_text ho hsc]

theorem decodeFields_append {fields : List (String × String)} {s s' : String × Nat}
    (h : decodeFields fmt rBuff fields s = some s') : ∃ t, s'.1 = s.1 ++ t := by
  induction fields generalizing s with
  | nil =>
    cases h
    exact ⟨"", String.append_empty.symm⟩
  | cons field fields ih =>
    rw [decodeFields, List.foldlM_cons, Option.bind_eq_bind, Option.bind_eq_some_iff] at h
    obtain ⟨s1, h1, h⟩ := h
    rw [Option.bind_eq_bind, Option.bind_eq_some_iff] at h1
    obtain ⟨w, _, h1⟩ := h1
    cases h1
    obtain ⟨t, ht⟩ := ih h
    refine ⟨"\"" ++ (field.1 ++ ("\":" ++ (fmt.float w ++ (field.2 ++ t)))), ?_⟩
    rw [ht]
    simp only [String.append_assoc]

/-- Whatever is read for a group, the payload grows behind the comma or not at all. -/
theorem decodeGroup_grows (h : decodeGroup fmt rBuff st = some st') :
    st'.playload = st.playload ∨
      ∃ t, st'.playload = (if 0 < st.cnt then st.playload ++ "," else st.playload) ++ t := by
  rw [decodeGroup] at h
  simp only [Option.bind_eq_bind, Option.bind_eq_some_iff] at h
  obtain ⟨used, _, h⟩ := h
  by_cases h0 : used = 0
  · rw [if_pos h0] at h
    cases h
    exact Or.inl rfl
  · rw [if_neg h0, Option.bind_eq_some_iff] at h
    obtain ⟨xid, _, h⟩ := h
    rw [Option.bind_eq_some_iff] at h
    obtain ⟨time, _, h⟩ := h
    rw [Option.bind_eq_some_iff] at h
    obtain ⟨s, hs, h⟩ := h
    cases h
    obtain ⟨t, ht⟩ := decodeFields_append hs
    refine Or.inr ⟨headText (toString xid.toNat) (fmt.time time) ++ t, ?_⟩
    unfold headText
    generalize "\x7b\"external_sensor_id\":" = label at ht ⊢
    simp only [ht, String.append_assoc]

theorem decodeGroup_unknown {sc : Scan} (h : decodeGroup fmt rBuff st = some st')
    (hb : rBuff.Begins (pre ++ (g.bytes ++ post))) (hst : st.index = pre.length)
    (h4 : ¬ g.used ≤ 4) (htime : Digits (fmt.time g.time).toList)
    (hsc : scanned (if 0 < st.cnt then st.playload ++ "," else st.playload) = some sc)
    (hopen : sc.Open) : st'.cnt = st.cnt + 1 ∧ scanned st'.playload = some .want := by
  rw [decodeGroup_used hb hst (used_ne_zero h4)] at h
  obtain rfl := Option.some.inj h
  exact ⟨rfl, scanned_unknown hsc hopen h4 htime⟩

theorem decodeGroups_broken {r : SensorGroup × SensorGroup} {num : Nat} {st1 st2 : SensorDecode}
    {sc : Scan} (h1 : decodeGroup fmt rBuff st = some st1)
    (h2 : decodeGroup fmt rBuff st1 = some st2)
    (hb : rBuff.Begins (pre ++ ((Record.sensor r.1 r.2).bytes ++ post)))
    (hst : st.index = pre.length) (hcnt : st.cnt = 0) (hr : ¬ Formed num r)
    (hfmt : fmt.Proper (usedGroups [r])) (hsc : scanned st.playload = some sc)
    (hopen : sc.Open) :
    scanned st2.playload = none ∨ scanned st2.playload = some .want ∨
      num ≠ 1 ∧ scanned st2.playload = some sc := by
  have hb1 : rBuff.Begins (pre ++ (r.1.bytes ++ (r.2.bytes ++ (List.replicate 14 0 ++ post)))) := by
    simpa only [Record.bytes, List.append_assoc] using hb
  have hb2 : rBuff.Begins ((pre ++ r.1.bytes) ++ (r.2.bytes ++ (List.replicate 14 0 ++ post))) := by
    simpa only [List.append_assoc] using hb1
  have hmem : ∀ g, g = r.1 ∨ g = r.2 → g.used ≠ 0 → g ∈ usedGroups [r] := by
    intro g hg h0
    simp [usedGroups, hg, h0]
  have hsc0 : scanned (if 0 < st.cnt then st.playload ++ "," else st.playload) = some sc := by
    rw [hcnt, if_neg (Nat.lt_irrefl 0)]
    exact hsc
  by_cases h14 : r.1.used ≤ 4
  · obtain ⟨st1', hd1, hi1, _, hp1, hn1⟩ := decodeGroup_known fmt hb1 hst h14
    obtain rfl : st1' = st1 := Option.some.inj (hd1.symm.trans h1)
    have hlen : st1'.index = (pre ++ r.1.bytes).length := by
      rw [hi1, List.length_append, SensorGroup.bytes_length, hst]
    by_cases h24 : r.2.used ≤ 4
    · -- both types are known, so no group is used
      obtain ⟨hnum, hunused⟩ := not_or.mp fun h => hr ⟨h14, h24, h⟩
      obtain ⟨h10, h20⟩ := not_or.mp hunused
      obtain ⟨st2', hd2, _, _, hp2, _⟩ := decodeGroup_known fmt hb2 hlen h24
      obtain rfl : st2' = st2 := Option.some.inj (hd2.symm.trans h2)
      refine Or.inr (Or.inr ⟨hnum, ?_⟩)
      rw [hp2, hp1, if_pos (not_not.mp h10), if_pos (not_not.mp h20), String.append_empty,
        String.append_empty]
      exact hsc
    · -- group 1 is left open, behind group 0 or alone
      have htime := hfmt.time _ (hmem _ (Or.inr rfl) (used_ne_zero h24))
      have hcomma : ∃ sc' : Scan, sc'.Open ∧
          scanned (if 0 < st1'.cnt then st1'.playload ++ "," else st1'.playload) = some sc' := by
        by_cases h10 : r.1.used = 0
        · refine ⟨sc, hopen, ?_⟩
          rw [hn1, hp1, if_pos h10, if_pos h10, String.append_empty]
          exact hsc0
        · have hin := hmem _ (Or.inl rfl) h10
          refine ⟨.want, Or.inr rfl, ?_⟩
          rw [hn1, hp1, if_neg h10, if_neg h10, hcnt, if_neg (Nat.lt_irrefl 0),
            if_pos (Nat.lt_add_one 0), String.empty_append, scanned_append,
            scanned_known hsc hopen h10 h14 (hfmt.float _ hin) (hfmt.time _ hin)]
          rfl
      obtain ⟨sc', hopen', hsc'⟩ := hcomma
      exact Or.inr (Or.inl (decodeGroup_unknown h2 hb2 hlen h24 htime hsc' hopen').2)
  · -- group 0 is left open; whatever is read for group 1 comes too late
    have htime := hfmt.time _ (hmem _ (Or.inl rfl) (used_ne_zero h14))
    obtain ⟨hcnt1, hwant⟩ := decodeGroup_unknown h1 hb1 hst h14 htime hsc0 hopen
    rcases decodeGroup_grows h2 with hsame | ⟨t, ht⟩
    · refine Or.inr (Or.inl ?_)
      rw [hsame]
      exact hwant
    · refine Or.inl ?_
      rw [ht, hcnt1, if_pos (Nat.succ_pos _)]
      exact scanned_none (scanned_comma hwant (Or.inr rfl)) t

/-- **A record that is not in order** leaves the scan stuck, or before a value
that does not come. -/
theorem decodeSensor_broken {r : SensorGroup × SensorGroup} {num i : Nat} {sc : Scan}
    (hb : rBuff.Begins (pre ++ ((Record.sensor r.1 r.2).bytes ++ post)))
    (hst : st.index = pre.length) (hr : ¬ Formed num r) (hi : i < num)
    (hfmt : fmt.Proper (usedGroups [r])) (hsc : scanned st.playload = some sc) (hopen : sc.Open)
    (hfirst : sc = .first → i = 0) (h : decodeSensor fmt rBuff num i st = some st') :
    scanned st'.playload = none ∨ i + 1 = num ∧ scanned st'.playload = some .want := by
  rw [decodeSensor] at h
  simp only [Option.bind_eq_bind, Option.bind_eq_some_iff] at h
  obtain ⟨st1, h1, st2, h2, h⟩ := h
  cases h
  have hgroups := decodeGroups_broken h1 h2 hb hst rfl hr hfmt hsc hopen
  by_cases hlast : i + 1 < num
  · -- the comma between records
    refine Or.inl ?_
    simp only [if_pos hlast]
    rcases hgroups with hnone | hwant | ⟨_, hsame⟩
    · exact scanned_none hnone _
    · exact scanned_comma hwant (Or.inr rfl)
    · exact scanned_comma hsame hopen
  · simp only [if_neg hlast]
    rcases hgroups with hnone | hwant | ⟨hnum, hsame⟩
    · exact Or.inl hnone
    · exact Or.inr ⟨by omega, hwant⟩
    · rcases hopen with rfl | rfl
      · have := hfirst rfl
        omega
      · exact Or.inr ⟨by omega, hsame⟩

/-! ### The batch -/

theorem groupTexts_objects {rs : List (SensorGroup × SensorGroup)}
    (hknown : ∀ r ∈ rs, r.1.used ≤ 4 ∧ r.2.used ≤ 4) (hfmt : fmt.Proper (usedGroups rs)) :
    ∃ objects, List.Forall₂ (Tells fmt) objects (usedGroups rs) ∧
      List.Forall₂ (fun o t => Text (.value o) t) objects
        ((groupTexts fmt rs).map String.toList) := by
  have hgroups : ∀ gs : List SensorGroup, (∀ g ∈ gs, g.used ≠ 0 ∧ g.used ≤ 4) →
      fmt.Proper gs → ∃ objects, List.Forall₂ (Tells fmt) objects gs ∧
        List.Forall₂ (fun o t => Text (.value o) t) objects
          ((gs.map fun g => g.text fmt).map String.toList) := by
    intro gs
    induction gs with
    | nil => exact fun _ _ => ⟨[], .nil, .nil⟩
    | cons g gs ih =>
      intro hknown hfmt
      obtain ⟨objects, htells, htexts⟩ := ih (fun g hg => hknown g (List.mem_cons_of_mem _ hg))
        (hfmt.mono (List.subset_cons_self g gs))
      obtain ⟨h0, h4⟩ := hknown g List.mem_cons_self
      obtain ⟨o, ho, htext⟩ := SensorGroup.text_object h0 h4
        (hfmt.float g List.mem_cons_self) (hfmt.time g List.mem_cons_self)
      exact ⟨o :: objects, .cons ho htells, .cons htext htexts⟩
  refine hgroups _ (fun g hg => ?_) hfmt
  simp only [usedGroups, List.mem_filter, List.mem_flatMap, List.mem_cons, List.not_mem_nil,
    or_false, decide_eq_true_eq] at hg
  obtain ⟨⟨r, hr, rfl | rfl⟩, h0⟩ := hg
  · exact ⟨h0, (hknown r hr).1⟩
  · exact ⟨h0, (hknown r hr).2⟩

theorem groupTexts_append (rs rs' : List (SensorGroup × SensorGroup)) :
    groupTexts fmt (rs ++ rs') = groupTexts fmt rs ++ groupTexts fmt rs' := by
  rw [groupTexts, usedGroups_append, List.map_append, ← groupTexts, ← groupTexts]

theorem groupTexts_ne_nil {rs : List (SensorGroup × SensorGroup)} {r : SensorGroup × SensorGroup}
    (hr : r ∈ rs) (h : r.1.used ≠ 0 ∨ r.2.used ≠ 0) : groupTexts fmt rs ≠ [] := by
  have hused : ∃ g ∈ [r.1, r.2], g.used ≠ 0 := by
    rcases h with h | h
    · exact ⟨r.1, by simp, h⟩
    · exact ⟨r.2, by simp, h⟩
  obtain ⟨g, hg, h0⟩ := hused
  have : g ∈ usedGroups rs := by
    rw [usedGroups, List.mem_filter]
    exact ⟨List.mem_flatMap.mpr ⟨r, hr, hg⟩, decide_eq_true h0⟩
  exact List.ne_nil_of_mem (List.mem_map_of_mem this)

theorem usedGroups_subset {rs rs' : List (SensorGroup × SensorGroup)} (h : rs' ⊆ rs) :
    usedGroups rs' ⊆ usedGroups rs := by
  intro g hg
  rw [usedGroups, List.mem_filter, List.mem_flatMap] at hg ⊢
  obtain ⟨⟨r, hr, hmem⟩, h0⟩ := hg
  exact ⟨⟨r, h hr, hmem⟩, h0⟩

/-- The records before one that is in order have a text: the batch has two. -/
theorem groupTexts_take_ne_nil (fmt : Format) {rs : List (SensorGroup × SensorGroup)} {i : Nat}
    (hpos : 0 < i) (hi : i < rs.length) (hformed : ∀ r ∈ rs.take i, Formed rs.length r) :
    groupTexts fmt (rs.take i) ≠ [] := by
  have hfirst : rs[0] ∈ rs.take i := by
    rw [List.mem_take_iff_getElem]
    exact ⟨0, by omega, rfl⟩
  exact groupTexts_ne_nil hfirst ((hformed _ hfirst).2.2.resolve_left (by omega))

/-- The first `i` records are in order: what the decoder has then. -/
structure InOrder (fmt : Format) (rs : List (SensorGroup × SensorGroup)) (i : Nat)
    (st : SensorDecode) : Prop where
  formed : ∀ r ∈ rs.take i, Formed rs.length r
  playload : st.playload = "[" ++ ",".intercalate (groupTexts fmt (rs.take i)) ++
    (if 0 < i ∧ i < rs.length then "," else "")
  cursors : st.cursors = (List.range i).flatMap fun i => [64 * i, 64 * i + 25]

/-- One of the first `i` records is not in order. -/
structure Broken (rs : List (SensorGroup × SensorGroup)) (i : Nat) (st : SensorDecode) :
    Prop where
  unformed : ∃ r ∈ rs.take i, ¬ Formed rs.length r
  stuck : scanned st.playload = none ∨ i = rs.length ∧ scanned st.playload = some .want

theorem forall_take_succ {rs : List (SensorGroup × SensorGroup)} {i : Nat} (hi : i < rs.length)
    {P : SensorGroup × SensorGroup → Prop} :
    (∀ r ∈ rs.take (i + 1), P r) ↔ (∀ r ∈ rs.take i, P r) ∧ P rs[i] := by
  rw [List.take_succ_eq_append_getElem hi, List.forall_mem_append, List.forall_mem_singleton]

/-- A batch that is in order so far is scanned to where a value may begin. -/
theorem InOrder.scan {rs : List (SensorGroup × SensorGroup)} {i : Nat}
    (h : InOrder fmt rs i st) (hfmt : fmt.Proper (usedGroups rs)) (hi : i < rs.length) :
    ∃ sc : Scan, scanned st.playload = some sc ∧ sc.Open ∧ (sc = .first → i = 0) := by
  rcases Nat.eq_zero_or_pos i with rfl | hpos
  · refine ⟨.first, ?_, Or.inl rfl, fun _ => rfl⟩
    rw [h.playload, List.take_zero, if_neg (by omega), show groupTexts fmt [] = [] from rfl,
      String.intercalate_nil, String.append_empty, String.append_empty]
    rfl
  · refine ⟨.want, ?_, Or.inr rfl, fun h => nomatch h⟩
    obtain ⟨objects, _, htexts⟩ := groupTexts_objects
      (fun r hr => ⟨(h.formed r hr).1, (h.formed r hr).2.1⟩)
      (hfmt.mono (usedGroups_subset (List.take_subset i rs)))
    have hne := groupTexts_take_ne_nil fmt hpos hi h.formed
    cases objects with
    | nil =>
      rw [List.forall₂_nil_left_iff, List.map_eq_nil_iff] at htexts
      exact absurd htexts hne
    | cons o objects =>
      have hrun := Scan.run_text (text_elements htexts) (Or.inl rfl)
      rw [h.playload, if_pos ⟨hpos, hi⟩, scanned_append, scanned_append, String.toList_intercalate,
        show scanned "[" = some .first from rfl, Option.bind_some,
        show ",".toList = [','] from rfl, hrun]
      rfl

theorem intercalate_groupTexts_succ {rs : List (SensorGroup × SensorGroup)} {i : Nat}
    (hi : i < rs.length) (hformed : ∀ r ∈ rs.take (i + 1), Formed rs.length r) :
    ",".intercalate (groupTexts fmt (rs.take (i + 1))) =
      ",".intercalate (groupTexts fmt (rs.take i)) ++ (if 0 < i then "," else "") ++
        ",".intercalate (groupTexts fmt [rs[i]]) := by
  obtain ⟨hbefore, hlast⟩ := (forall_take_succ hi).mp hformed
  rw [List.take_succ_eq_append_getElem hi, groupTexts_append]
  rcases Nat.eq_zero_or_pos i with rfl | hpos
  · simp [groupTexts, usedGroups]
  · rw [String.intercalate_append_of_ne_nil (groupTexts_take_ne_nil fmt hpos hi hbefore)
      (groupTexts_ne_nil List.mem_cons_self (hlast.2.2.resolve_left (by omega))), if_pos hpos]

theorem decodeSensor_grows {num i : Nat} (h : decodeSensor fmt rBuff num i st = some st') :
    ∃ t, st'.playload = st.playload ++ t := by
  have hgroup : ∀ {st st' : SensorDecode}, decodeGroup fmt rBuff st = some st' →
      ∃ t, st'.playload = st.playload ++ t := by
    intro st st' h
    rcases decodeGroup_grows h with hsame | ⟨t, ht⟩
    · exact ⟨"", by rw [hsame, String.append_empty]⟩
    · rw [ht]
      split
      · exact ⟨"," ++ t, String.append_assoc ..⟩
      · exact ⟨t, rfl⟩
  rw [decodeSensor] at h
  simp only [Option.bind_eq_bind, Option.bind_eq_some_iff] at h
  obtain ⟨st1, h1, st2, h2, h⟩ := h
  cases h
  obtain ⟨t1, ht1⟩ := hgroup h1
  obtain ⟨t2, ht2⟩ := hgroup h2
  refine ⟨t1 ++ (t2 ++ (if i + 1 < num then "," else "")), ?_⟩
  rw [ht2, ht1]
  split <;> simp only [String.append_assoc, String.append_empty]

/-- **One record**: the batch stays in order with it, or is broken from it on. -/
theorem decodeSensor_next {rs : List (SensorGroup × SensorGroup)} {i : Nat}
    (hb : rBuff.Begins (recordBytes (sensorRecords rs))) (hfmt : fmt.Proper (usedGroups rs))
    (hi : i < rs.length) (hst : st.index = 64 * i) (h : InOrder fmt rs i st ∨ Broken rs i st) :
    ∃ st', decodeSensor fmt rBuff rs.length i st = some st' ∧ st'.index = 64 * (i + 1) ∧
      (InOrder fmt rs (i + 1) st' ∨ Broken rs (i + 1) st') := by
  have hlen : rs.length ≤ 21 := by
    have := hb.length_le
    rw [recordBytes_length, sensorRecords, List.length_map] at this
    omega
  have hsplit : recordBytes (sensorRecords rs) = recordBytes (sensorRecords (rs.take i)) ++
      ((Record.sensor rs[i].1 rs[i].2).bytes ++ recordBytes (sensorRecords (rs.drop (i + 1)))) := by
    conv_lhs => rw [← List.take_append_drop i rs, List.drop_eq_getElem_cons hi]
    rw [sensorRecords, List.map_append, recordBytes_append]
    rfl
  have hpre : (recordBytes (sensorRecords (rs.take i))).length = 64 * i := by
    rw [recordBytes_length, sensorRecords, List.length_map, List.length_take,
      Nat.min_eq_left (Nat.le_of_lt hi)]
  rw [hsplit] at hb
  obtain ⟨st', hst', hidx⟩ := decodeSensor_isSome fmt rBuff hi hlen hst
  refine ⟨st', hst', hidx, ?_⟩
  rcases h with hgood | ⟨⟨r, hr, hbad⟩, hstuck⟩
  · by_cases hr : Formed rs.length rs[i]
    · left
      have hformed := (forall_take_succ hi).mpr ⟨hgood.formed, hr⟩
      obtain ⟨st1, h1, _, hcur, htext⟩ := decodeSensor_known fmt rs.length hb hpre hst
        hr.1 hr.2.1
      obtain rfl := Option.some.inj (h1.symm.trans hst')
      refine ⟨hformed, ?_, ?_⟩
      · rw [htext, hgood.playload, intercalate_groupTexts_succ hi hformed]
        simp only [hi, and_true, Nat.succ_pos, true_and, String.append_assoc]
      · rw [hcur, hgood.cursors, List.range_succ, List.flatMap_append, List.flatMap_singleton]
    · right
      obtain ⟨sc, hsc, hopen, hfirst⟩ := hgood.scan hfmt hi
      have hmem : [rs[i]] ⊆ rs :=
        List.cons_subset.mpr ⟨List.getElem_mem hi, List.nil_subset rs⟩
      refine ⟨⟨rs[i], ?_, hr⟩, ?_⟩
      · rw [List.take_succ_eq_append_getElem hi]
        exact List.mem_append_right _ List.mem_cons_self
      · exact decodeSensor_broken hb (hst.trans hpre.symm) hr hi
          (hfmt.mono (usedGroups_subset hmem)) hsc hopen hfirst hst'
  · right
    refine ⟨⟨r, ?_, hbad⟩, Or.inl ?_⟩
    · rw [List.take_succ_eq_append_getElem hi]
      exact List.mem_append_left _ hr
    · obtain ⟨t, ht⟩ := decodeSensor_grows hst'
      rw [ht]
      exact scanned_none (hstuck.resolve_right fun h => absurd h.1 (Nat.ne_of_lt hi)) t

theorem InOrder.faithful {rs : List (SensorGroup × SensorGroup)}
    (h : InOrder fmt rs rs.length st) (hfmt : fmt.Proper (usedGroups rs)) :
    Faithful fmt rs (st.playload ++ "]", st.cursors) := by
  have hformed : ∀ r ∈ rs, Formed rs.length r := by
    have := h.formed
    rwa [List.take_length] at this
  obtain ⟨objects, htells, htexts⟩ := groupTexts_objects
    (fun r hr => ⟨(hformed r hr).1, (hformed r hr).2.1⟩) hfmt
  refine ⟨⟨objects, ?_, htells⟩, h.cursors⟩
  have hdenotes := denotes_arr htexts
  have htext : (st.playload ++ "]").toList = '[' ::
      ([','].intercalate ((groupTexts fmt rs).map String.toList) ++ [']']) := by
    rw [h.playload, List.take_length, if_neg (by omega), String.append_empty,
      String.toList_append, String.toList_append, String.toList_intercalate]
    rfl
  simp only [htext]
  exact hdenotes

theorem Broken.not_denotes {rs : List (SensorGroup × SensorGroup)} {i : Nat}
    (h : Broken rs i st) (j : Json) : ¬ Denotes j (st.playload ++ "]").toList := by
  intro hj
  have hnone : scanned (st.playload ++ "]") = none := by
    rcases h.stuck with hnone | ⟨_, hwant⟩
    · exact scanned_none hnone _
    · rw [scanned_append, hwant]
      rfl
  have := hj.scan
  rw [← scanned, hnone] at this
  cases this

/-- **The sensor payload** of the records in `rBuff` is faithful exactly when
every record is in order. -/
theorem sensorBody_iff {rs : List (SensorGroup × SensorGroup)}
    (hb : rBuff.Begins (recordBytes (sensorRecords rs))) (hfmt : fmt.Proper (usedGroups rs)) :
    ∃ body, sensorBody fmt rBuff rs.length = some body ∧
      (Faithful fmt rs body ↔ ∀ r ∈ rs, Formed rs.length r) := by
  obtain ⟨st, hst, _, hend⟩ := forLoop_spec (n := rs.length)
    (f := decodeSensor fmt rBuff rs.length) (s := ⟨"[", 0, 0, []⟩)
    (fun i st => st.index = 64 * i ∧ (InOrder fmt rs i st ∨ Broken rs i st))
    ⟨rfl, Or.inl ⟨fun r hr => (List.not_mem_nil hr).elim, rfl, rfl⟩⟩
    (fun i st hi h => decodeSensor_next hb hfmt hi h.1 h.2)
  refine ⟨_, by rw [sensorBody, hst]; rfl, ?_⟩
  rcases hend with hgood | hbad
  · have := hgood.formed
    rw [List.take_length] at this
    exact iff_of_true (hgood.faithful hfmt) this
  · refine iff_of_false ?_ fun h => ?_
    · rintro ⟨⟨objects, hobjects, _⟩, _⟩
      exact hbad.not_denotes _ hobjects
    · obtain ⟨r, hr, hbad⟩ := hbad.unformed
      exact hbad (h r (List.mem_of_mem_take hr))

/-! ### What `SensorToFlash` writes -/

/-- A run of `SensorToFlash`: the inputs, the configuration and the time. -/
structure SensorPass where
  fpu : Fpu
  cfgS : ConfigSensor
  now : UInt32

namespace SensorPass

def record (p : SensorPass) : Record := sensorRecord p.fpu p.cfgS p.now

def groups (p : SensorPass) : SensorGroup × SensorGroup :=
  (sensorGroup p.fpu p.cfgS p.now ⟨0, Nat.zero_lt_two⟩,
    sensorGroup p.fpu p.cfgS p.now ⟨1, Nat.one_lt_two⟩)

theorem sensorRecords_groups (ps : List SensorPass) :
    sensorRecords (ps.map groups) = ps.map record := by
  rw [sensorRecords, List.map_map]
  rfl

/-- A pass with these types, and zeros for the rest. -/
def ofUsed (used : Vector UInt8 2) : SensorPass where
  fpu := .null
  cfgS := ⟨used, .replicate 2 0, .replicate 8 0, .replicate 8 0,
    .replicate 8 (.replicate 2 0), .replicate 8 (.replicate 2 0)⟩
  now := 0

end SensorPass

theorem Format.zero_proper (gs : List SensorGroup) : Format.zero.Proper gs := by
  refine ⟨fun _ _ _ _ => ?_, fun _ _ => ?_⟩
  · have htext : "0.0000".toList = [] ++ ['0'] ++ ['.', '0', '0', '0', '0'] ++ [] := by decide
    show Number "0.0000".toList
    rw [htext]
    exact Number.mk (Or.inl rfl) (Or.inl rfl)
      (Or.inr ⟨['0', '0', '0', '0'], ⟨by decide, forall_of_all (by decide)⟩, rfl⟩) (Or.inl rfl)
  · show Digits "0".toList
    exact ⟨by decide, forall_of_all (by decide)⟩

/-- `rBuff` with these records and zeros behind them. -/
def recordsBuff (rs : List Record) : RecordBuff where
  bytes := (recordBytes rs ++ List.replicate 1344 0).take 1344
  size := by
    rw [List.length_take, List.length_append, List.length_replicate]
    omega

theorem recordsBuff_begins {rs : List Record} (h : rs.length ≤ 21) :
    (recordsBuff rs).Begins (recordBytes rs) := by
  refine ⟨List.replicate (1344 - 64 * rs.length) 0, ?_⟩
  show _ = (recordBytes rs ++ List.replicate 1344 0).take 1344
  rw [List.take_append, recordBytes_length, List.take_replicate,
    List.take_of_length_le (by rw [recordBytes_length]; omega), Nat.min_eq_left (by omega)]

/-- **The payload of the records that `SensorToFlash` wrote** is faithful exactly
when no type is above 4, and each record of two or more has a group in use. -/
theorem sensor_payload_iff (fmt : Format) (rBuff : RecordBuff) (ps : List SensorPass)
    (hb : rBuff.Begins (recordBytes (ps.map SensorPass.record)))
    (hfmt : fmt.Proper (usedGroups (ps.map SensorPass.groups))) :
    ∃ body, sensorBody fmt rBuff ps.length = some body ∧
      (Faithful fmt (ps.map SensorPass.groups) body ↔
        (∀ p ∈ ps, ∀ i, p.cfgS.used.get i ≤ 4) ∧
        (ps.length = 1 ∨ ∀ p ∈ ps, ∃ i, p.cfgS.used.get i ≠ 0)) := by
  rw [← SensorPass.sensorRecords_groups] at hb
  obtain ⟨body, hbody, hiff⟩ := sensorBody_iff hb hfmt
  rw [List.length_map] at hbody hiff
  refine ⟨body, hbody, hiff.trans ?_⟩
  rw [List.forall_mem_map]
  constructor
  · intro h
    refine ⟨fun p hp => Fin.forall_fin_two.mpr ⟨(h p hp).1, (h p hp).2.1⟩, ?_⟩
    by_cases hone : ps.length = 1
    · exact Or.inl hone
    · exact Or.inr fun p hp => Fin.exists_fin_two.mpr ((h p hp).2.2.resolve_left hone)
  · rintro ⟨hknown, hused⟩ p hp
    obtain ⟨h0, h1⟩ := Fin.forall_fin_two.mp (hknown p hp)
    exact ⟨h0, h1, hused.imp_right fun h => Fin.exists_fin_two.mp (h p hp)⟩

/-- A record with a group of type 5, and a batch of two records without groups. -/
theorem not_sensor_payload :
    (∃ body, sensorBody .zero (recordsBuff [(SensorPass.ofUsed #v[5, 0]).record]) 1 = some body ∧
      ¬ Faithful .zero [(SensorPass.ofUsed #v[5, 0]).groups] body) ∧
    ∃ body, sensorBody .zero (recordsBuff [(SensorPass.ofUsed #v[0, 0]).record,
        (SensorPass.ofUsed #v[0, 0]).record]) 2 = some body ∧
      ¬ Faithful .zero [(SensorPass.ofUsed #v[0, 0]).groups,
        (SensorPass.ofUsed #v[0, 0]).groups] body := by
  have hopen : sensorBody .zero (recordsBuff [(SensorPass.ofUsed #v[5, 0]).record]) 1 =
      some ("[\x7b\"external_sensor_id\":0,\"sdt\":\"0\",]", [0, 9]) := by decide +kernel
  have hcomma : sensorBody .zero (recordsBuff [(SensorPass.ofUsed #v[0, 0]).record,
      (SensorPass.ofUsed #v[0, 0]).record]) 2 = some ("[,]", [0, 25, 64, 89]) := by decide +kernel
  refine ⟨⟨_, hopen, ?_⟩, ⟨_, hcomma, ?_⟩⟩
  · rintro ⟨⟨objects, h, _⟩, _⟩
    exact absurd h.scan (by decide)
  · rintro ⟨⟨objects, h, _⟩, _⟩
    exact absurd h.scan (by decide)

/-- Two records, with a group of type 1 in the first and one of type 3 in the second. -/
theorem sensor_payload_two : ∃ body,
    sensorBody .zero (recordsBuff [(SensorPass.ofUsed #v[1, 0]).record,
      (SensorPass.ofUsed #v[0, 3]).record]) 2 = some body ∧
    Faithful .zero [(SensorPass.ofUsed #v[1, 0]).groups,
      (SensorPass.ofUsed #v[0, 3]).groups] body := by
  obtain ⟨body, hbody, hiff⟩ := sensor_payload_iff .zero _
    [SensorPass.ofUsed #v[1, 0], SensorPass.ofUsed #v[0, 3]] (recordsBuff_begins (by decide))
    (Format.zero_proper _)
  exact ⟨body, hbody, hiff.mpr (by decide)⟩

end EnresLogger
