import Mathlib.Data.List.GetD
import Mathlib.Tactic.Common
import Mathlib.Tactic.IntervalCases

/-!
# The clock

`RTC_MCP7940` in `RTClib.cpp` writes a time into the registers of the chip, two
decimal digits a byte, and reads it back.  Some bits of these registers are the
chip's own: `Returns` says what its data sheet says about a read that follows a
write.

`now` takes the start bit off the seconds and skips the day of the week.  The
month it takes as it is, with the bit by which the chip marks a leap year, and
that bit counts as 20 months: `now_adjust`.
-/

namespace EnresLogger

/-! ### The library -/

/-- The year counts from 2000. -/
structure DateTime where
  yOff : UInt8
  m : UInt8
  d : UInt8
  hh : UInt8
  mm : UInt8
  ss : UInt8
  deriving DecidableEq, Repr

namespace DateTime

/-- `DateTime(year, month, day, hour, min, sec)` -/
def ofYear (year : UInt16) (month day hour min sec : UInt8) : DateTime where
  yOff := (if 2000 ≤ year then year - 2000 else year).toUInt8
  m := month
  d := day
  hh := hour
  mm := min
  ss := sec

def year (dt : DateTime) : UInt16 := 2000 + dt.yOff.toUInt16

end DateTime

def bcd2bin (val : UInt8) : UInt8 := val - (6 : UInt8) * (val >>> 4)

def bin2bcd (val : UInt8) : UInt8 := val + 6 * (val / 10)

/-- The time registers, in the order of their addresses. -/
structure TimeRegisters where
  seconds : UInt8
  minutes : UInt8
  hours : UInt8
  weekday : UInt8
  day : UInt8
  month : UInt8
  year : UInt8
  deriving DecidableEq, Repr

namespace RTC_MCP7940

/-- What `adjust(dt)` writes, from location 0 on. -/
def adjust (dt : DateTime) : TimeRegisters where
  seconds := bin2bcd dt.ss ||| 0x80
  minutes := bin2bcd dt.mm
  hours := bin2bcd dt.hh
  weekday := 0x8
  day := bin2bcd dt.d
  month := bin2bcd dt.m
  year := bin2bcd (dt.year - 2000).toUInt8

/-- `now()`, on the seven bytes it is sent. -/
def now (r : TimeRegisters) : DateTime :=
  let ss := bcd2bin (r.seconds &&& 0x7F)
  let mm := bcd2bin r.minutes
  let hh := bcd2bin r.hours
  let d := bcd2bin r.day
  let m := bcd2bin r.month
  let y := (bcd2bin r.year).toUInt16 + 2000
  .ofYear y m d hh mm ss

end RTC_MCP7940

/-! ### Dates -/

def LeapYear (y : Nat) : Prop := y % 4 = 0 ∧ (y % 100 ≠ 0 ∨ y % 400 = 0)

instance (y : Nat) : Decidable (LeapYear y) :=
  inferInstanceAs (Decidable (y % 4 = 0 ∧ (y % 100 ≠ 0 ∨ y % 400 = 0)))

def daysInMonth : List Nat := [31, 28, 31, 30, 31, 30, 31, 31, 30, 31, 30, 31]

namespace DateTime

/-- The days of the month. -/
def monthDays (dt : DateTime) : Nat :=
  if dt.m = 2 ∧ LeapYear (2000 + dt.yOff.toNat) then 29 else daysInMonth.getD (dt.m.toNat - 1) 0

/-- A time from 2000-01-01 to the end of 2099. -/
structure Valid (dt : DateTime) : Prop where
  year : dt.yOff.toNat ≤ 99
  month : 1 ≤ dt.m.toNat ∧ dt.m.toNat ≤ 12
  day : 1 ≤ dt.d.toNat ∧ dt.d.toNat ≤ dt.monthDays
  hour : dt.hh.toNat < 24
  minute : dt.mm.toNat < 60
  second : dt.ss.toNat < 60

theorem monthDays_le (dt : DateTime) : dt.monthDays ≤ 31 := by
  rw [monthDays]
  split
  · decide
  · rw [List.getD_eq_getElem?_getD]
    cases h : daysInMonth[dt.m.toNat - 1]? with
    | none => exact Nat.zero_le 31
    | some n =>
      have hall : ∀ n ∈ daysInMonth, n ≤ 31 := by decide
      exact hall n (List.mem_of_getElem? h)

end DateTime

/-! ### The chip -/

namespace TimeRegisters

/-- The year in the registers, two digits after 2000. -/
def storedYear (r : TimeRegisters) : Nat := 2000 + (r.year.toNat / 16 * 10 + r.year.toNat % 16)

end TimeRegisters

/-- **The data sheet.**  A register is read as it was written but for its status
bits: the start bit in bit 7 of the seconds, the bits 3 to 5 of the weekday, and
bit 5 of the month, which the chip sets if and only if the year is a leap year. -/
structure Returns (put got : TimeRegisters) : Prop where
  seconds : got.seconds &&& 0x7F = put.seconds &&& 0x7F
  minutes : got.minutes = put.minutes
  hours : got.hours = put.hours
  weekday : got.weekday &&& 0xC7 = put.weekday &&& 0xC7
  day : got.day = put.day
  month : got.month = if LeapYear put.storedYear then put.month ||| 0x20 else put.month &&& 0xDF
  year : got.year = put.year

/-- A chip that has nothing to report but the leap year. -/
def mcp7940 (put : TimeRegisters) : TimeRegisters :=
  { put with month := if LeapYear put.storedYear then put.month ||| 0x20 else put.month &&& 0xDF }

theorem mcp7940_returns (put : TimeRegisters) : Returns put (mcp7940 put) :=
  ⟨rfl, rfl, rfl, rfl, rfl, rfl, rfl⟩

/-! ### Two digits -/

theorem bin2bcd_toNat {v : UInt8} (h : v.toNat ≤ 99) :
    (bin2bcd v).toNat = 16 * (v.toNat / 10) + v.toNat % 10 := by
  rw [bin2bcd, UInt8.toNat_add, UInt8.toNat_mul, UInt8.toNat_div]
  show (v.toNat + 6 * (v.toNat / 10) % 256) % 256 = _
  omega

theorem bcd2bin_toNat (v : UInt8) : (bcd2bin v).toNat = v.toNat - 6 * (v.toNat / 16) := by
  have hv := v.toNat_lt
  have hsix : ((6 : UInt8) * (v >>> 4)).toNat = 6 * (v.toNat / 16) := by
    rw [UInt8.toNat_mul, UInt8.toNat_shiftRight]
    show 6 * (v.toNat >>> 4) % 256 = _
    rw [Nat.shiftRight_eq_div_pow]
    omega
  rw [bcd2bin, UInt8.toNat_sub_of_le _ _ (by rw [UInt8.le_iff_toNat_le, hsix]; omega), hsix]

/-- **Two digits come back.** -/
theorem bcd2bin_bin2bcd {v : UInt8} (h : v.toNat ≤ 99) : bcd2bin (bin2bcd v) = v := by
  apply UInt8.toNat_inj.mp
  rw [bcd2bin_toNat, bin2bcd_toNat h]
  omega

theorem forall_lt_of_ofNat {n : Nat} {P : UInt8 → Prop} (h : ∀ k < n, P (UInt8.ofNat k)) {v : UInt8}
    (hv : v.toNat < n) : P v := by
  have hk := h v.toNat hv
  rw [UInt8.ofNat_toNat] at hk
  exact hk

theorem seconds_mask {v : UInt8} (h : v.toNat < 60) :
    (bin2bcd v ||| 0x80) &&& 0x7F = bin2bcd v :=
  forall_lt_of_ofNat (n := 60) (P := fun v => (bin2bcd v ||| 0x80) &&& 0x7F = bin2bcd v)
    (by decide) h

/-- A month leaves bit 5 alone; with that bit it reads as 20 more. -/
theorem month_bit {v : UInt8} (h : v.toNat ≤ 12) :
    bcd2bin (bin2bcd v &&& 0xDF) = v ∧ bcd2bin (bin2bcd v ||| 0x20) = v + 20 :=
  forall_lt_of_ofNat (n := 13)
    (P := fun v => bcd2bin (bin2bcd v &&& 0xDF) = v ∧ bcd2bin (bin2bcd v ||| 0x20) = v + 20)
    (by decide) (Nat.lt_succ_of_le h)

/-! ### There and back -/

namespace RTC_MCP7940

variable {dt : DateTime} {got : TimeRegisters}

theorem year_back (v : UInt8) :
    2000 ≤ v.toUInt16 + 2000 ∧ (v.toUInt16 + 2000 - 2000).toUInt8 = v := by
  constructor
  · have hv := v.toNat_lt
    rw [UInt16.le_iff_toNat_le, UInt16.toNat_add, UInt8.toNat_toUInt16]
    show 2000 ≤ (v.toNat + 2000) % 65536
    omega
  · rw [UInt16.add_sub_cancel, UInt8.toUInt8_toUInt16]

theorem adjust_year (dt : DateTime) : (adjust dt).year = bin2bcd dt.yOff := by
  show bin2bcd (2000 + dt.yOff.toUInt16 - 2000).toUInt8 = _
  rw [UInt16.add_comm, (year_back dt.yOff).2]

theorem storedYear_adjust (hdt : dt.Valid) : (adjust dt).storedYear = 2000 + dt.yOff.toNat := by
  rw [TimeRegisters.storedYear, adjust_year, bin2bcd_toNat hdt.year]
  omega

theorem now_eq (r : TimeRegisters) :
    now r = ⟨bcd2bin r.year, bcd2bin r.month, bcd2bin r.day, bcd2bin r.hours, bcd2bin r.minutes,
      bcd2bin (r.seconds &&& 0x7F)⟩ := by
  obtain ⟨hle, hback⟩ := year_back (bcd2bin r.year)
  rw [now, DateTime.ofYear, if_pos hle, hback]

/-- **What comes back**: the time that was set, in a leap year with 20 added to
the month. -/
theorem now_adjust (hdt : dt.Valid) (h : Returns (adjust dt) got) :
    now got =
      if LeapYear (2000 + dt.yOff.toNat) then { dt with m := dt.m + 20 } else dt := by
  have hd := Nat.le_trans hdt.day.2 dt.monthDays_le
  have hmonth := h.month
  rw [storedYear_adjust hdt] at hmonth
  have hfields : now got = { dt with m := bcd2bin got.month } := by
    rw [now_eq, h.year, h.day, h.hours, h.minutes, h.seconds, adjust_year]
    simp only [adjust]
    rw [bcd2bin_bin2bcd hdt.year, bcd2bin_bin2bcd (by omega : dt.d.toNat ≤ 99),
      bcd2bin_bin2bcd (Nat.le_trans (Nat.le_of_lt hdt.hour) (by decide)),
      bcd2bin_bin2bcd (Nat.le_trans (Nat.le_of_lt hdt.minute) (by decide)),
      seconds_mask hdt.second, bcd2bin_bin2bcd (Nat.le_trans (Nat.le_of_lt hdt.second) (by decide))]
  rw [hfields, hmonth]
  obtain ⟨hclear, hset⟩ := month_bit hdt.month.2
  split
  · rw [show (adjust dt).month = bin2bcd dt.m from rfl, hset]
  · rw [show (adjust dt).month = bin2bcd dt.m from rfl, hclear]

/-- **The clock reads as it was set in every year that is not a leap year, and in
no other.** -/
theorem now_adjust_iff (hdt : dt.Valid) (h : Returns (adjust dt) got) :
    now got = dt ↔ ¬ LeapYear (2000 + dt.yOff.toNat) := by
  rw [now_adjust hdt h]
  by_cases hleap : LeapYear (2000 + dt.yOff.toNat)
  · rw [if_pos hleap]
    refine iff_of_false (fun hsame => ?_) (not_not_intro hleap)
    have hm := congrArg (fun dt : DateTime => dt.m.toNat) hsame
    simp only [UInt8.toNat_add] at hm
    have hm12 := hdt.month.2
    change (dt.m.toNat + 20) % 256 = dt.m.toNat at hm
    omega
  · rw [if_neg hleap]
    exact iff_of_true rfl hleap

/-- The last second of February 2023. -/
theorem now_adjust_common :
    now (mcp7940 (adjust (.ofYear 2023 2 28 23 59 59))) = .ofYear 2023 2 28 23 59 59 :=
  (@now_adjust_iff (.ofYear 2023 2 28 23 59 59) _
    ⟨by decide, by decide, by decide, by decide, by decide, by decide⟩
    (mcp7940_returns _)).mpr (by decide)

/-- A day in June of the year 2020 reads as a day of the month 26. -/
theorem not_now_adjust :
    now (mcp7940 (adjust (.ofYear 2020 6 15 12 30 45))) = .ofYear 2020 26 15 12 30 45 ∧
      ¬ ∀ dt got, dt.Valid → Returns (adjust dt) got → now got = dt := by
  have hread : now (mcp7940 (adjust (.ofYear 2020 6 15 12 30 45))) =
      .ofYear 2020 26 15 12 30 45 := by decide
  refine ⟨hread, fun h => ?_⟩
  have hsame := h (.ofYear 2020 6 15 12 30 45) _
    ⟨by decide, by decide, by decide, by decide, by decide, by decide⟩ (mcp7940_returns _)
  rw [hread] at hsame
  exact absurd hsame (by decide)

end RTC_MCP7940

end EnresLogger
