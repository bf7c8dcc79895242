import EnresLogger.Record
import EnresLogger.SPIFlashMeter

/-!
# Batch payloads

The meter and the flow decoder walk over `rBuff` with a cursor and write one
JSON object for each record.  They differ in their labels, so they are one
`batchBody` with a `Layout`.  How a float and a time are printed is a `Format`.

`batchBody_eq` says what comes out when `rBuff` begins with records that fit the
layout: the objects of these records in order, with commas between them.
-/

namespace EnresLogger

open Lib

/-- How the library prints. -/
structure Format where
  /-- `String(x, 4)` -/
  float : UInt32 → String
  /-- `strftime(tbuff, 64, "%Y%m%d%H%M", localtime(&t))` -/
  time : UInt32 → String

/-- A library that prints zero for everything. -/
def Format.zero : Format := ⟨fun _ => "0.0000", fun _ => "0"⟩

/-- The labels of an object; each measurement goes with what follows it. -/
structure Layout where
  idLabel : String
  timeLabel : String
  fields : List (String × String)

def meterLayout : Layout where
  idLabel := "emid"
  timeLabel := "mdt"
  fields := [("w", ","), ("wh", ","), ("pf", ","), ("varh", ","), ("i0", ","), ("i1", ","),
    ("i2", ","), ("v0", ","), ("v1", ","), ("v2", "\x7d")]

def flowLayout : Layout where
  idLabel := "external_sensor_id"
  timeLabel := "sdt"
  fields := [("vd1", ","), ("vd2", ","), ("vd3", ","), ("vd4", ","), ("vd5", ","), ("vd6", ","),
    ("vd7", ","), ("vd8", ","), ("vd9", "\x7d")]

/-- The measurements, from the cursor on. -/
def decodeFields (fmt : Format) (rBuff : RecordBuff) (fields : List (String × String))
    (st : String × Nat) : Option (String × Nat) :=
  fields.foldlM (fun st field => do
    let w ← rBuff.word st.2
    return (st.1 ++ "\"" ++ field.1 ++ "\":" ++ fmt.float w ++ field.2, st.2 + 4)) st

/-- One object. -/
def decodeObject (fmt : Format) (l : Layout) (rBuff : RecordBuff) (st : String × Nat) :
    Option (String × Nat) := do
  let xid ← rBuff.word st.2
  let playload := st.1 ++ "\x7b\"" ++ l.idLabel ++ "\":\"" ++ toString xid.toNat ++ "\","
  let mdt ← rBuff.word (st.2 + 4)
  let playload := playload ++ "\"" ++ l.timeLabel ++ "\":\"" ++ fmt.time mdt ++ "\","
  decodeFields fmt rBuff l.fields (playload, st.2 + 8)

/-- The payload of `num` records. -/
def batchBody (fmt : Format) (l : Layout) (rBuff : RecordBuff) (num : Nat) : Option String := do
  let st ← forLoop num (fun i st => do
    let st ← decodeObject fmt l rBuff st
    let playload := if i + 1 < num then st.1 ++ "," else st.1
    return (playload, st.2 + padding st.2)) ("[", 0)
  return st.1 ++ "]"

/-! ### What the payload says -/

def Record.kind : Record → Kind
  | .meter _ _ => .meter
  | .sensor _ _ => .sensor
  | .flow _ _ => .flow

/-- The words of a meter or flow record. -/
def Record.words : Record → List UInt32
  | .meter xid d => meterWords xid d
  | .sensor _ _ => []
  | .flow xid d => flowWords xid d

def fieldsText (fmt : Format) : List (String × String) → List UInt32 → String
  | field :: fields, w :: ws =>
      "\"" ++ field.1 ++ "\":" ++ fmt.float w ++ field.2 ++ fieldsText fmt fields ws
  | _, _ => ""

/-- The object of a record, from its words. -/
def objectText (fmt : Format) (l : Layout) : List UInt32 → String
  | xid :: mdt :: ws =>
      "\x7b\"" ++ l.idLabel ++ "\":\"" ++ toString xid.toNat ++ "\"," ++
        ("\"" ++ l.timeLabel ++ "\":\"" ++ fmt.time mdt ++ "\"," ++ fieldsText fmt l.fields ws)
  | _ => ""

def payloadText (fmt : Format) (l : Layout) (rs : List Record) : String :=
  "[" ++ ",".intercalate (rs.map fun r => objectText fmt l r.words) ++ "]"

/-- A record that is words and zeros, as many words as the layout has. -/
structure Record.Fits (l : Layout) (r : Record) : Prop where
  bytes : r.bytes = wordsBytes r.words ++ List.replicate (64 - 4 * r.words.length) 0
  words : r.words.length = l.fields.length + 2
  short : l.fields.length + 2 ≤ 16

theorem Record.fits_meter {r : Record} (h : r.kind = .meter) : r.Fits meterLayout := by
  cases r with
  | meter xid d => exact ⟨rfl, rfl, by decide⟩
  | sensor g₀ g₁ => cases h
  | flow xid d => cases h

theorem Record.fits_flow {r : Record} (h : r.kind = .flow) : r.Fits flowLayout := by
  cases r with
  | meter xid d => cases h
  | sensor g₀ g₁ => cases h
  | flow xid d => exact ⟨rfl, rfl, by decide⟩

/-! ### Bounds -/

theorem decodeFields_isSome (fmt : Format) (rBuff : RecordBuff) (fields : List (String × String))
    (st : String × Nat) (h : st.2 + 4 * fields.length ≤ 1344) :
    ∃ playload, decodeFields fmt rBuff fields st =
      some (playload, st.2 + 4 * fields.length) := by
  induction fields generalizing st with
  | nil => exact ⟨st.1, rfl⟩
  | cons field fields ih =>
    simp only [List.length_cons] at h ⊢
    obtain ⟨w, hw⟩ := rBuff.word_isSome (i := st.2) (by omega)
    obtain ⟨playload, hp⟩ := ih
      ((st.1 ++ "\"" ++ field.1 ++ "\":" ++ fmt.float w ++ field.2, st.2 + 4))
      (by simp only; omega)
    refine ⟨playload, ?_⟩
    simp only [decodeFields, List.foldlM_cons, hw, Option.bind_eq_bind, Option.bind_some,
      Option.pure_def]
    refine Eq.trans hp ?_
    simp only [Option.some.injEq, Prod.mk.injEq, true_and]
    omega

theorem batchBody_isSome (fmt : Format) {l : Layout} (hl : l.fields.length + 2 ≤ 16)
    (rBuff : RecordBuff) {num : Nat} (h : num ≤ 21) :
    ∃ playload, batchBody fmt l rBuff num = some playload := by
  have hloop : ∃ st, forLoop num (fun i st => do
        let st ← decodeObject fmt l rBuff st
        let playload := if i + 1 < num then st.1 ++ "," else st.1
        return (playload, st.2 + padding st.2)) ("[", 0) = some st ∧ st.2 = 64 * num := by
    refine forLoop_spec (fun i (st : String × Nat) => st.2 = 64 * i) rfl (fun i st hi hst => ?_)
    obtain ⟨xid, hxid⟩ := rBuff.word_isSome (i := st.2) (by omega)
    obtain ⟨mdt, hmdt⟩ := rBuff.word_isSome (i := st.2 + 4) (by omega)
    obtain ⟨playload, hp⟩ := decodeFields_isSome fmt rBuff l.fields
      ((st.1 ++ "\x7b\"" ++ l.idLabel ++ "\":\"" ++ toString xid.toNat ++ "\"," ++ "\"" ++
        l.timeLabel ++ "\":\"" ++ fmt.time mdt ++ "\",", st.2 + 8)) (by simp only; omega)
    simp only [decodeObject, hxid, hmdt, hp, Option.bind_eq_bind, Option.bind_some,
      Option.pure_def]
    refine ⟨_, rfl, ?_⟩
    simp only [padding, RECSIZE]
    omega
  obtain ⟨st, hst, _⟩ := hloop
  exact ⟨st.1 ++ "]", by rw [batchBody, hst]; rfl⟩

/-! ### Decoding -/

theorem decodeFields_eq (fmt : Format) {rBuff : RecordBuff} {fields : List (String × String)}
    {pre post : List UInt8} {ws : List UInt32} (hlen : fields.length = ws.length)
    (hb : rBuff.Begins (pre ++ (wordsBytes ws ++ post))) (playload : String) :
    decodeFields fmt rBuff fields (playload, pre.length) =
      some (playload ++ fieldsText fmt fields ws, pre.length + 4 * ws.length) := by
  induction fields generalizing pre ws playload with
  | nil =>
    obtain rfl := List.eq_nil_of_length_eq_zero hlen.symm
    rw [fieldsText, String.append_empty]
    · rfl
    · simp
  | cons field fields ih =>
    cases ws with
    | nil => cases hlen
    | cons w ws =>
      have hb' : rBuff.Begins (pre ++ (leBytes w ++ (wordsBytes ws ++ post))) := by
        rw [wordsBytes_cons, List.append_assoc] at hb
        exact hb
      have hnext : rBuff.Begins ((pre ++ leBytes w) ++ (wordsBytes ws ++ post)) := by
        rw [List.append_assoc]
        exact hb'
      have := ih (Nat.succ.inj hlen) hnext
        (playload ++ "\"" ++ field.1 ++ "\":" ++ fmt.float w ++ field.2)
      rw [List.length_append, leBytes_length] at this
      simp only [decodeFields, List.foldlM_cons, hb'.word, Option.bind_eq_bind, Option.bind_some,
        Option.pure_def]
      refine Eq.trans this ?_
      simp only [fieldsText, String.append_assoc, List.length_cons, Option.some.injEq,
        Prod.mk.injEq, true_and]
      omega

/-- A record at the cursor becomes its object. -/
theorem decodeObject_eq (fmt : Format) {l : Layout} {rBuff : RecordBuff} {pre post : List UInt8}
    {r : Record} (hr : r.Fits l) (hb : rBuff.Begins (pre ++ (r.bytes ++ post)))
    (playload : String) :
    decodeObject fmt l rBuff (playload, pre.length) =
      some (playload ++ objectText fmt l r.words, pre.length + 4 * (l.fields.length + 2)) := by
  obtain ⟨hbytes, hwords, _⟩ := hr
  rw [hbytes, List.append_assoc] at hb
  match hws : r.words, hwords with
  | xid :: mdt :: ws, hwords =>
    rw [hws] at hb
    have hlen : l.fields.length = ws.length := by
      simp only [List.length_cons] at hwords
      omega
    have hb0 : rBuff.Begins (pre ++ (leBytes xid ++ (wordsBytes (mdt :: ws) ++
        (List.replicate (64 - 4 * (xid :: mdt :: ws).length) 0 ++ post)))) := by
      rw [wordsBytes_cons, List.append_assoc] at hb
      exact hb
    have hb1 : rBuff.Begins ((pre ++ leBytes xid) ++ (leBytes mdt ++ (wordsBytes ws ++
        (List.replicate (64 - 4 * (xid :: mdt :: ws).length) 0 ++ post)))) := by
      rw [wordsBytes_cons] at hb0
      simpa only [List.append_assoc] using hb0
    have hb2 : rBuff.Begins ((pre ++ leBytes xid ++ leBytes mdt) ++ (wordsBytes ws ++
        (List.replicate (64 - 4 * (xid :: mdt :: ws).length) 0 ++ post))) := by
      simpa only [List.append_assoc] using hb1
    have h1 := hb1.word
    have h2 := fun p => decodeFields_eq fmt hlen hb2 p
    simp only [List.length_append, leBytes_length] at h1 h2
    simp only [decodeObject, hb0.word, h1, h2, hlen, Option.bind_eq_bind, Option.bind_some]
    simp only [objectText, String.append_assoc, Option.some.injEq, Prod.mk.injEq, true_and]
    omega

theorem intercalate_take_succ {texts : List String} {i : Nat} (hi : i < texts.length) :
    ",".intercalate (texts.take (i + 1)) =
      ",".intercalate (texts.take i) ++ (if 0 < i then "," else "") ++ texts[i] := by
  rw [List.take_succ_eq_append_getElem hi]
  rcases Nat.eq_zero_or_pos i with rfl | hpos
  · simp
  · have hne : texts.take i ≠ [] := by
      intro h
      have := congrArg List.length h
      rw [List.length_take, List.length_nil] at this
      omega
    rw [String.intercalate_append_of_ne_nil hne (by simp), if_pos hpos,
      String.intercalate_singleton]

/-- **The payload is the objects of the records**, in order and with commas. -/
theorem batchBody_eq (fmt : Format) {l : Layout} {rBuff : RecordBuff} {rs : List Record}
    (hfit : ∀ r ∈ rs, r.Fits l) (hb : rBuff.Begins (recordBytes rs)) :
    batchBody fmt l rBuff rs.length = some (payloadText fmt l rs) := by
  have hloop : ∃ st, forLoop rs.length (fun i st => do
        let st ← decodeObject fmt l rBuff st
        let playload := if i + 1 < rs.length then st.1 ++ "," else st.1
        return (playload, st.2 + padding st.2)) ("[", 0) = some st ∧
      st = ("[" ++ ",".intercalate ((rs.map fun r => objectText fmt l r.words).take rs.length) ++
        (if 0 < rs.length ∧ rs.length < rs.length then "," else ""), 64 * rs.length) := by
    refine forLoop_spec (fun i st =>
      st = ("[" ++ ",".intercalate ((rs.map fun r => objectText fmt l r.words).take i) ++
        (if 0 < i ∧ i < rs.length then "," else ""), 64 * i)) (by simp) (fun i st hi hst => ?_)
    have hr := hfit rs[i] (List.getElem_mem hi)
    have hsplit : recordBytes rs =
        recordBytes (rs.take i) ++ (rs[i].bytes ++ recordBytes (rs.drop (i + 1))) := by
      conv_lhs => rw [← List.take_append_drop i rs, List.drop_eq_getElem_cons hi]
      rw [recordBytes_append]
      rfl
    have hpre : (recordBytes (rs.take i)).length = 64 * i := by
      rw [recordBytes_length, List.length_take, Nat.min_eq_left (Nat.le_of_lt hi)]
    rw [hsplit] at hb
    have hobj := decodeObject_eq fmt hr hb st.1
    rw [hpre] at hobj
    have hpad : 64 * i + 4 * (l.fields.length + 2) +
        padding (64 * i + 4 * (l.fields.length + 2)) = 64 * (i + 1) := by
      have := hr.short
      rw [padding, RECSIZE]
      omega
    have hcur : st = (st.1, 64 * i) := by rw [hst]
    rw [hcur]
    simp only [hobj, Option.bind_eq_bind, Option.bind_some, Option.pure_def, hpad]
    refine ⟨_, rfl, ?_⟩
    rw [intercalate_take_succ (by simpa using hi), List.getElem_map]
    simp only [Prod.mk.injEq, and_true, hst, show 0 < i + 1 from Nat.succ_pos i, true_and,
      hi, and_true]
    split <;> simp only [String.append_assoc, String.append_empty]
  obtain ⟨st, hst, hval⟩ := hloop
  rw [batchBody, hst, hval]
  simp [payloadText, List.take_of_length_le]

end EnresLogger
