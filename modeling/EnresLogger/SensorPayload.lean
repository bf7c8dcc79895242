import EnresLogger.Payload

/-!
# Decoding sensor records

`flashSensorToBatchPost` writes one JSON object for each group whose `used` byte
is not zero.  How many bytes it takes from the record depends on that byte:
9 and the values of the group for the types 1 to 4, 25 when the group is not
used, and 9 alone for any other type.  Then it goes on to the next record.

`cursors` notes where the cursor was at each group; no function reads it.
-/

namespace EnresLogger

open Lib

structure SensorDecode where
  playload : String
  index : Nat
  cnt : Nat
  cursors : List Nat

/-- The measurements of a type, and the bytes of the group behind them. -/
def sensorFields (used : UInt8) : List (String × String) × Nat :=
  match used with
  | 1 => ([("tm1", ","), ("tm2", ","), ("ps1", ","), ("ps2", "\x7d")], 0)
  | 2 => ([("rt", ","), ("hm", "\x7d")], 8)
  | 3 => ([("co2", "\x7d")], 12)
  | 4 => ([("ps", "\x7d")], 12)
  | _ => ([], 0)

/-- Group `j` of a record. -/
def decodeGroup (fmt : Format) (rBuff : RecordBuff) (st : SensorDecode) :
    Option SensorDecode := do
  let cursors := st.cursors ++ [st.index]
  let used_type ← (rBuff.get st.index 1).map (·.getD 0 0)
  if used_type = 0 then
    return { st with index := st.index + 25, cursors }
  else
    let playload := if 0 < st.cnt then st.playload ++ "," else st.playload
    let xid ← rBuff.word (st.index + 1)
    let playload := playload ++ "\x7b\"external_sensor_id\":" ++ toString xid.toNat ++ ","
    let time ← rBuff.word (st.index + 5)
    let playload := playload ++ "\"sdt\":\"" ++ fmt.time time ++ "\","
    let (playload, index) ←
      decodeFields fmt rBuff (sensorFields used_type).1 (playload, st.index + 9)
    return { playload, index := index + (sensorFields used_type).2, cnt := st.cnt + 1, cursors }

/-- One record: `cnt` starts again, and the cursor ends behind the record. -/
def decodeSensor (fmt : Format) (rBuff : RecordBuff) (num i : Nat) (st : SensorDecode) :
    Option SensorDecode := do
  let st ← decodeGroup fmt rBuff { st with cnt := 0 }
  let st ← decodeGroup fmt rBuff st
  let playload := if i + 1 < num then st.playload ++ "," else st.playload
  return { st with playload, index := st.index + padding st.index }

/-- The payload of `num` sensor records, and the cursors. -/
def sensorBody (fmt : Format) (rBuff : RecordBuff) (num : Nat) : Option (String × List Nat) := do
  let st ← forLoop num (decodeSensor fmt rBuff num) ⟨"[", 0, 0, []⟩
  return (st.playload ++ "]", st.cursors)

/-! ### Bounds -/

/-- A group takes 9 to 25 bytes. -/
theorem decodeGroup_isSome (fmt : Format) (rBuff : RecordBuff) (st : SensorDecode)
    (h : st.index + 25 ≤ 1344) :
    ∃ st', decodeGroup fmt rBuff st = some st' ∧ st.index + 9 ≤ st'.index ∧
      st'.index ≤ st.index + 25 := by
  obtain ⟨bs, hbs⟩ := rBuff.get_isSome (i := st.index) (k := 1) (by omega)
  obtain ⟨xid, hxid⟩ := rBuff.word_isSome (i := st.index + 1) (by omega)
  obtain ⟨time, htime⟩ := rBuff.word_isSome (i := st.index + 5) (by omega)
  have hskip : ∀ used : UInt8,
      4 * (sensorFields used).1.length + (sensorFields used).2 ≤ 16 := by
    intro used
    unfold sensorFields
    split <;> simp
  have hused := hskip (bs.getD 0 0)
  simp only [decodeGroup, hbs, hxid, htime, Option.map_some, Option.bind_eq_bind,
    Option.bind_some, Option.pure_def]
  by_cases h0 : bs.getD 0 0 = 0
  · rw [if_pos h0]
    refine ⟨_, rfl, ?_, ?_⟩ <;> simp only <;> omega
  · rw [if_neg h0]
    obtain ⟨playload, hp⟩ := decodeFields_isSome fmt rBuff (sensorFields (bs.getD 0 0)).1
      (((if 0 < st.cnt then st.playload ++ "," else st.playload) ++
        "\x7b\"external_sensor_id\":" ++ toString xid.toNat ++ "," ++ "\"sdt\":\"" ++
          fmt.time time ++ "\",", st.index + 9)) (by simp only; omega)
    rw [hp]
    refine ⟨_, rfl, ?_, ?_⟩ <;> simp only <;> omega

theorem decodeSensor_isSome (fmt : Format) (rBuff : RecordBuff) {num i : Nat} {st : SensorDecode}
    (hi : i < num) (hnum : num ≤ 21) (h : st.index = 64 * i) :
    ∃ st', decodeSensor fmt rBuff num i st = some st' ∧ st'.index = 64 * (i + 1) := by
  obtain ⟨st1, h1, hlow1, hhigh1⟩ := decodeGroup_isSome fmt rBuff { st with cnt := 0 }
    (by simp only; omega)
  simp only at hlow1 hhigh1
  obtain ⟨st2, h2, hlow2, hhigh2⟩ := decodeGroup_isSome fmt rBuff st1 (by omega)
  simp only [decodeSensor, h1, h2, Option.bind_eq_bind, Option.bind_some, Option.pure_def]
  refine ⟨_, rfl, ?_⟩
  simp only [padding, RECSIZE]
  omega

theorem sensorBody_isSome (fmt : Format) (rBuff : RecordBuff) {num : Nat} (h : num ≤ 21) :
    ∃ r, sensorBody fmt rBuff num = some r := by
  obtain ⟨st, hst, _⟩ := forLoop_spec (n := num) (f := decodeSensor fmt rBuff num)
    (s := ⟨"[", 0, 0, []⟩) (fun i (st : SensorDecode) => st.index = 64 * i) rfl
    (fun i st hi hst => decodeSensor_isSome fmt rBuff hi h hst)
  exact ⟨_, by rw [sensorBody, hst]; rfl⟩

end EnresLogger
