import EnresLogger.Lib.Trim

/-!
# The average of an analog input

`getAvgAdc` reads an input `num` times and averages the readings but for the
three smallest and the three largest.  It keeps these six in variables, in two
cascades of comparisons that begin with the ends of the range, 4095 and 0.

A cascade puts a reading in its place among three (`low_mins`, `high_maxs`).  The
loop is then that of `Lib.foldl_keep_replicate`, once with `≤` and once with `≥`,
and what is subtracted at the end is `Lib.sum_trim`: `getAvgAdc_trimmed`.
-/

namespace EnresLogger

open Lib

/-- The variables of the loop. -/
structure AdcState where
  sumVal : UInt32
  minVal : UInt16
  minnVal : UInt16
  minnnVal : UInt16
  maxVal : UInt16
  maxxVal : UInt16
  maxxxVal : UInt16

namespace AdcState

def start : AdcState where
  sumVal := 0
  minVal := 4095
  minnVal := 4095
  minnnVal := 4095
  maxVal := 0
  maxxVal := 0
  maxxxVal := 0

/-- The cascade for the smallest readings; `minnnVal` is the smallest. -/
def low (s : AdcState) (val : UInt16) : AdcState :=
  if val < s.minVal then
    if val < s.minnVal then
      let s := { s with minVal := s.minnVal }
      if val < s.minnnVal then { s with minnVal := s.minnnVal, minnnVal := val }
      else { s with minnVal := val }
    else { s with minVal := val }
  else s

/-- The cascade for the largest; `maxxxVal` is the largest. -/
def high (s : AdcState) (val : UInt16) : AdcState :=
  if s.maxVal < val then
    if s.maxxVal < val then
      let s := { s with maxVal := s.maxxVal }
      if s.maxxxVal < val then { s with maxxVal := s.maxxxVal, maxxxVal := val }
      else { s with maxxVal := val }
    else { s with maxVal := val }
  else s

/-- One round of the loop. -/
def sample (s : AdcState) (val : UInt16) : AdcState :=
  let s := (s.low val).high val
  { s with sumVal := s.sumVal + val.toUInt32 }

/-- What is taken from the sum, in the order of the source. -/
def subtrahends (s : AdcState) : List UInt16 :=
  [s.minnnVal, s.minnVal, s.minVal, s.maxVal, s.maxxVal, s.maxxxVal]

end AdcState

/-- The variables behind `num` readings. -/
def adcLoop (adc : Nat → UInt16) (num : UInt8) : AdcState :=
  (List.range num.toNat).foldl (fun s i => s.sample (adc i)) .start

/-- `getAvgAdc(num, ch)`, where the `i`-th reading of the channel is `adc i`;
`none` when it divides by zero.  `num-6` is converted to unsigned. -/
def getAvgAdc (adc : Nat → UInt16) (num : UInt8) : Option UInt16 :=
  let s := adcLoop adc num
  if num = 6 then none
  else
    some ((s.subtrahends.foldl (fun sum v => sum - v.toUInt32) s.sumVal) /
      (num.toUInt32 - 6)).toUInt16

/-- None of the subtractions goes below zero. -/
def NoUnderflow : UInt32 → List UInt16 → Prop
  | _, [] => True
  | sum, v :: vs => v.toUInt32 ≤ sum ∧ NoUnderflow (sum - v.toUInt32) vs

/-! ### One reading -/

namespace AdcState

/-- The three smallest, smallest first. -/
def mins (s : AdcState) : List Nat := [s.minnnVal.toNat, s.minnVal.toNat, s.minVal.toNat]

/-- The three largest, largest first. -/
def maxs (s : AdcState) : List Nat := [s.maxxxVal.toNat, s.maxxVal.toNat, s.maxVal.toNat]

/-- Both triples are in order. -/
structure Sorted (s : AdcState) : Prop where
  mins : s.mins.Pairwise (· ≤ ·)
  maxs : s.maxs.Pairwise (· ≥ ·)

/-- **The first cascade** puts a reading in its place. -/
theorem low_mins {s : AdcState} (hs : s.mins.Pairwise (· ≤ ·)) (val : UInt16) :
    (s.low val).mins = keep (· ≤ ·) 3 s.mins val.toNat := by
  have hlt : ∀ u v : UInt16, u < v ↔ ¬ v.toNat ≤ u.toNat := fun u v => by
    rw [UInt16.lt_iff_toNat_lt, Nat.not_le]
  rw [mins, List.pairwise_cons, List.pairwise_cons] at hs
  have h1 := hs.1 s.minnVal.toNat List.mem_cons_self
  have h2 := hs.2.1 s.minVal.toNat List.mem_cons_self
  rw [show s.mins = [s.minnnVal.toNat, s.minnVal.toNat, s.minVal.toNat] from rfl,
    keep_three (· ≤ ·) h1 h2, low]
  simp only [hlt, ite_not]
  split_ifs <;> rfl

/-- **The second one**, the other way round. -/
theorem high_maxs {s : AdcState} (hs : s.maxs.Pairwise (· ≥ ·)) (val : UInt16) :
    (s.high val).maxs = keep (· ≥ ·) 3 s.maxs val.toNat := by
  have hlt : ∀ u v : UInt16, u < v ↔ ¬ u.toNat ≥ v.toNat := fun u v => by
    rw [UInt16.lt_iff_toNat_lt, ge_iff_le, Nat.not_le]
  rw [maxs, List.pairwise_cons, List.pairwise_cons] at hs
  have h1 := hs.1 s.maxxVal.toNat List.mem_cons_self
  have h2 := hs.2.1 s.maxVal.toNat List.mem_cons_self
  rw [show s.maxs = [s.maxxxVal.toNat, s.maxxVal.toNat, s.maxVal.toNat] from rfl,
    keep_three (· ≥ ·) h1 h2, high]
  simp only [hlt, ite_not]
  split_ifs <;> rfl

/-- Each cascade leaves the other's variables, and the sum. -/
theorem low_frame (s : AdcState) (val : UInt16) :
    (s.low val).maxs = s.maxs ∧ (s.low val).sumVal = s.sumVal := by
  simp only [low]
  split_ifs <;> exact ⟨rfl, rfl⟩

theorem high_frame (s : AdcState) (val : UInt16) :
    (s.high val).mins = s.mins ∧ (s.high val).sumVal = s.sumVal := by
  simp only [high]
  split_ifs <;> exact ⟨rfl, rfl⟩

/-- **One round.** -/
theorem sample_spec {s : AdcState} (hs : s.Sorted) (val : UInt16) :
    (s.sample val).mins = keep (· ≤ ·) 3 s.mins val.toNat ∧
      (s.sample val).maxs = keep (· ≥ ·) 3 s.maxs val.toNat ∧
      (s.sample val).sumVal = s.sumVal + val.toUInt32 := by
  obtain ⟨hmaxs, hsum⟩ := s.low_frame val
  obtain ⟨hmins, hsum'⟩ := (s.low val).high_frame val
  refine ⟨?_, ?_, ?_⟩
  · exact hmins.trans (low_mins hs.mins val)
  · rw [← hmaxs]
    exact high_maxs (by rw [hmaxs]; exact hs.maxs) val
  · show ((s.low val).high val).sumVal + val.toUInt32 = _
    rw [hsum', hsum]

theorem Sorted.sample {s : AdcState} (hs : s.Sorted) (val : UInt16) : (s.sample val).Sorted := by
  obtain ⟨hmins, hmaxs, _⟩ := sample_spec hs val
  refine ⟨?_, ?_⟩
  · rw [hmins]
    exact keep_pairwise _ hs.mins 3 _
  · rw [hmaxs]
    exact keep_pairwise _ hs.maxs 3 _

/-! ### All of them -/

/-- **The loop** keeps the six readings, and adds up all of them. -/
theorem samples_spec (vals : List UInt16) {s : AdcState} (hs : s.Sorted) :
    (vals.foldl sample s).mins = (vals.map UInt16.toNat).foldl (keep (· ≤ ·) 3) s.mins ∧
      (vals.foldl sample s).maxs = (vals.map UInt16.toNat).foldl (keep (· ≥ ·) 3) s.maxs ∧
      (vals.foldl sample s).sumVal.toNat =
        (s.sumVal.toNat + (vals.map UInt16.toNat).sum) % 4294967296 := by
  induction vals generalizing s with
  | nil =>
    refine ⟨rfl, rfl, ?_⟩
    exact (Nat.mod_eq_of_lt s.sumVal.toNat_lt).symm
  | cons val vals ih =>
    obtain ⟨hmins, hmaxs, hsum⟩ := sample_spec hs val
    obtain ⟨ihmins, ihmaxs, ihsum⟩ := ih (hs.sample val)
    simp only [List.foldl_cons, List.map_cons, List.sum_cons]
    refine ⟨by rw [ihmins, hmins], by rw [ihmaxs, hmaxs], ?_⟩
    rw [ihsum, hsum, UInt32.toNat_add, UInt16.toNat_toUInt32]
    omega

theorem start_sorted : start.Sorted := by
  refine ⟨?_, ?_⟩
  · show [4095, 4095, 4095].Pairwise (· ≤ ·)
    decide
  · show [0, 0, 0].Pairwise (· ≥ ·)
    decide

end AdcState

theorem foldl_sub (vs : List UInt16) {sum : UInt32} (h : (vs.map UInt16.toNat).sum ≤ sum.toNat) :
    NoUnderflow sum vs ∧ (vs.foldl (fun sum v => sum - v.toUInt32) sum).toNat =
      sum.toNat - (vs.map UInt16.toNat).sum := by
  induction vs generalizing sum with
  | nil => exact ⟨trivial, rfl⟩
  | cons v vs ih =>
    rw [List.map_cons, List.sum_cons] at h ⊢
    have hle : v.toUInt32 ≤ sum := by
      rw [UInt32.le_iff_toNat_le, UInt16.toNat_toUInt32]
      omega
    have hsub : (sum - v.toUInt32).toNat = sum.toNat - v.toNat := by
      rw [UInt32.toNat_sub_of_le _ _ hle, UInt16.toNat_toUInt32]
    have hleft : (vs.map UInt16.toNat).sum ≤ (sum - v.toUInt32).toNat := by
      rw [hsub]
      omega
    obtain ⟨hrest, hsum⟩ := ih hleft
    refine ⟨⟨hle, hrest⟩, ?_⟩
    rw [List.foldl_cons, hsum, hsub]
    omega

/-- The readings of a call. -/
def readings (adc : Nat → UInt16) (num : UInt8) : List Nat :=
  (List.range num.toNat).map fun i => (adc i).toNat

section Call

variable {adc : Nat → UInt16} {num : UInt8}

theorem readings_length (adc : Nat → UInt16) (num : UInt8) :
    (readings adc num).length = num.toNat := by
  rw [readings, List.length_map, List.length_range]

theorem mem_readings (hadc : ∀ i < num.toNat, (adc i).toNat ≤ 4095) :
    ∀ x ∈ readings adc num, x ≤ 4095 := by
  intro x hx
  obtain ⟨i, hi, rfl⟩ := List.mem_map.mp hx
  exact hadc i (List.mem_range.mp hi)

/-- **What the loop leaves**: the three smallest readings, the three largest, and
the sum. -/
theorem adcLoop_spec (hnum : 3 ≤ num.toNat) (hadc : ∀ i < num.toNat, (adc i).toNat ≤ 4095) :
    (adcLoop adc num).mins = least (· ≤ ·) 3 (readings adc num) ∧
      (adcLoop adc num).maxs = least (· ≥ ·) 3 (readings adc num) ∧
      (adcLoop adc num).sumVal.toNat = (readings adc num).sum := by
  have hmem := mem_readings hadc
  have hlen := readings_length adc num
  have hvals : readings adc num = ((List.range num.toNat).map adc).map UInt16.toNat := by
    rw [readings, List.map_map]
    rfl
  obtain ⟨hmins, hmaxs, hsum⟩ :=
    AdcState.samples_spec ((List.range num.toNat).map adc) AdcState.start_sorted
  rw [List.foldl_map, ← adcLoop, ← hvals] at hmins hmaxs hsum
  refine ⟨?_, ?_, ?_⟩
  · rw [hmins]
    exact foldl_keep_replicate (· ≤ ·) hmem (by omega)
  · rw [hmaxs]
    exact foldl_keep_replicate (· ≥ ·) (fun x _ => Nat.zero_le x) (by omega)
  · have hbound : (readings adc num).sum ≤ (readings adc num).length * 4095 :=
      List.sum_le_card_nsmul _ 4095 hmem
    have hnum8 := num.toNat_lt
    rw [hsum, show AdcState.start.sumVal.toNat = 0 from rfl, Nat.zero_add]
    exact Nat.mod_eq_of_lt (by omega)

/-- **What is taken from the sum** are six of the readings, so that nothing goes
below zero and the others are left. -/
theorem adcLoop_subtracted (hnum : 6 ≤ num.toNat)
    (hadc : ∀ i < num.toNat, (adc i).toNat ≤ 4095) :
    NoUnderflow (adcLoop adc num).sumVal (adcLoop adc num).subtrahends ∧
      ((adcLoop adc num).subtrahends.foldl (fun sum v => sum - v.toUInt32)
        (adcLoop adc num).sumVal).toNat = (trim 3 (readings adc num)).sum := by
  obtain ⟨hmins, hmaxs, hsum⟩ := adcLoop_spec (by omega) hadc
  have hlen := readings_length adc num
  have hparts := sum_trim (k := 3) (l := readings adc num) (by omega)
  rw [← hmins, ← hmaxs] at hparts
  have hsix : ((adcLoop adc num).subtrahends.map UInt16.toNat).sum =
      (adcLoop adc num).mins.sum + (adcLoop adc num).maxs.sum := by
    simp only [AdcState.subtrahends, AdcState.mins, AdcState.maxs, List.map_cons, List.map_nil,
      List.sum_cons, List.sum_nil]
    omega
  obtain ⟨hunder, hrest⟩ := foldl_sub (adcLoop adc num).subtrahends
    (by omega : _ ≤ (adcLoop adc num).sumVal.toNat)
  exact ⟨hunder, by omega⟩

theorem divisor_toNat (hnum : 6 ≤ num.toNat) : (num.toUInt32 - 6).toNat = num.toNat - 6 := by
  have hle : (6 : UInt32) ≤ num.toUInt32 := by
    rw [UInt32.le_iff_toNat_le, UInt8.toNat_toUInt32]
    exact hnum
  rw [UInt32.toNat_sub_of_le _ _ hle, UInt8.toNat_toUInt32]
  rfl

/-- **The trimmed mean.**  For 7 readings or more the result is the mean of the
readings without the three smallest and the three largest, rounded down; no
subtraction goes below zero, and the result lies between the fourth smallest and
the fourth largest reading. -/
theorem getAvgAdc_trimmed (hnum : 7 ≤ num.toNat) (hadc : ∀ i < num.toNat, (adc i).toNat ≤ 4095) :
    NoUnderflow (adcLoop adc num).sumVal (adcLoop adc num).subtrahends ∧
      ∃ avg, getAvgAdc adc num = some avg ∧
        avg.toNat = (trim 3 (readings adc num)).sum / (num.toNat - 6) ∧
        ∃ a b, ((readings adc num).insertionSort (· ≤ ·))[3]? = some a ∧
          ((readings adc num).insertionSort (· ≤ ·))[num.toNat - 4]? = some b ∧
          a ≤ avg.toNat ∧ avg.toNat ≤ b := by
  have hlen := readings_length adc num
  obtain ⟨hunder, hrest⟩ := adcLoop_subtracted (by omega) hadc
  obtain ⟨a, b, ha, hb, hmem, hlow, hhigh⟩ := trim_mean (k := 3) (l := readings adc num) (by omega)
  have hindex : (readings adc num).length - 3 - 1 = num.toNat - 4 := by omega
  rw [hindex] at hb
  rw [hlen, show 2 * 3 = 6 from rfl] at hlow hhigh
  have hb4095 := mem_readings hadc b hmem
  have hne : num ≠ 6 := by
    rintro rfl
    exact absurd hnum (by decide)
  -- the division in 32 bits, and the result in 16
  have havg : ((((adcLoop adc num).subtrahends.foldl (fun sum v => sum - v.toUInt32)
      (adcLoop adc num).sumVal) / (num.toUInt32 - 6)).toUInt16).toNat =
      (trim 3 (readings adc num)).sum / (num.toNat - 6) := by
    rw [UInt32.toNat_toUInt16, UInt32.toNat_div, divisor_toNat (by omega), hrest,
      Nat.mod_eq_of_lt (by omega)]
  refine ⟨hunder, _, if_neg hne, havg, a, b, ha, hb, ?_⟩
  rw [havg]
  exact ⟨hlow, hhigh⟩

end Call

/-- Readings at both ends of the range. -/
def edges (i : Nat) : UInt16 := if i < 4 then 4095 else 0

theorem getAvgAdc_edges :
    NoUnderflow (adcLoop edges 7).sumVal (adcLoop edges 7).subtrahends ∧
      ∃ avg, getAvgAdc edges 7 = some avg ∧
        avg.toNat = (trim 3 (readings edges 7)).sum / ((7 : UInt8).toNat - 6) ∧
        ∃ a b, ((readings edges 7).insertionSort (· ≤ ·))[3]? = some a ∧
          ((readings edges 7).insertionSort (· ≤ ·))[(7 : UInt8).toNat - 4]? = some b ∧
          a ≤ avg.toNat ∧ avg.toNat ≤ b :=
  getAvgAdc_trimmed (by decide) (by decide)

end EnresLogger
