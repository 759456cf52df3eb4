import Lsc100.Basis.Gregorian
import Lsc100.Net.Response

/-! The weekday that `kt_SetSysTime` works out for the clock. `%` of C keeps the sign, so the
formula is right only where its sum is not negative, and on Saturdays. -/

namespace Lsc100

open Gregorian

/-- `time.ucWeek` behind `dec_to_bcd`. -/
def ucWeekOf (year month day : Int) : UInt8 :=
  decToBcd (UInt8.ofNat ((calculateDayOfWeek year month day).emod 256).toNat)

theorem ofRequest_ucWeek (t : SystemTime) : (RtcTime.ofRequest t).ucWeek =
    ucWeekOf ((bcdToDec t.ucYear).toNat + 2000) (bcdToDec t.ucMonth).toNat
      (bcdToDec t.ucDay).toNat :=
  rfl

/-- The weekday from Sunday = 0 on, also in the register of the clock. -/
structure WeekdayRight (d : Date) : Prop where
  nonneg : 0 ≤ calculateDayOfWeek d.year d.month d.day
  le_six : calculateDayOfWeek d.year d.month d.day ≤ 6
  weekday : calculateDayOfWeek d.year d.month d.day = d.weekday
  register : (ucWeekOf d.year d.month d.day).toNat = d.weekday

/-- What the formula adds up, in the year that begins in March. -/
def weekdaySum (d : Date) : Nat :=
  d.day + 13 * (d.marchMonth + 1) / 5 + d.marchYear % 100 + d.marchYear % 100 / 4 +
    d.marchYear / 100 / 4

/-- What the formula takes off again. -/
def weekdayLess (d : Date) : Nat := 2 * (d.marchYear / 100)

theorem calculateDayOfWeek_eq {d : Date} (h : 1 ≤ d.year) :
    calculateDayOfWeek d.year d.month d.day =
      if ((weekdaySum d : Int) - weekdayLess d).tmod 7 = 0 then 6
      else ((weekdaySum d : Int) - weekdayLess d).tmod 7 - 1 := by
  have hm : (if (d.month : Int) < 3 then (d.month : Int) + 12 else d.month) = d.marchMonth := by
    rw [Date.marchMonth]
    split <;> split <;> omega
  have hy : (if (d.month : Int) < 3 then (d.year : Int) - 1 else d.year) = d.marchYear := by
    rw [Date.marchYear]
    split <;> split <;> omega
  have hyear : (0 : Int) ≤ d.marchYear := Int.natCast_nonneg _
  have hmonth : (0 : Int) ≤ 13 * (d.marchMonth + 1) := by omega
  simp only [calculateDayOfWeek, hm, hy]
  rw [Int.tdiv_eq_ediv_of_nonneg hmonth, Int.tmod_eq_emod_of_nonneg hyear,
    Int.tdiv_eq_ediv_of_nonneg (Int.emod_nonneg _ (by decide)), Int.tdiv_eq_ediv_of_nonneg hyear,
    Int.tdiv_eq_ediv_of_nonneg (Int.ediv_nonneg hyear (by decide))]
  rfl

theorem month_mod {m : Nat} (h : 3 ≤ m) (h' : m ≤ 14) :
    13 * (m + 1) / 5 % 7 = ((153 * m - 457) / 5 + 3) % 7 := by
  interval_cases m <;> rfl

/-- The days of a year count one, the leap days of a century and of its years one each. -/
theorem year_sum (y : Nat) : 365 * y + y / 4 + y / 400 + 2 * (y / 100) =
    y / 100 + (y % 100 + y % 100 / 4 + y / 100 / 4) + 7 * (5218 * (y / 100) + 52 * (y % 100)) := by
  have hy := Nat.div_add_mod y 100
  have h4 : y / 4 = 25 * (y / 100) + y % 100 / 4 := by omega
  have h400 : y / 400 = y / 100 / 4 := by omega
  omega

/-- The sum counts the days of the week from Saturday on. -/
theorem weekdaySum_emod {d : Date} (h : 1971 ≤ d.year) :
    ((weekdaySum d : Int) - weekdayLess d) % 7 = ((d.weekday + 1) % 7 : Nat) := by
  have hmarch := d.dayNumber_march h
  obtain ⟨hlow, hhigh⟩ := d.marchMonth_bounds
  have hmonth := month_mod hlow hhigh
  have hyear : 1970 ≤ d.marchYear := by
    rw [Date.marchYear]
    split <;> omega
  obtain ⟨n, hn⟩ := Nat.exists_eq_add_of_le hyear
  have hclosed := daysBeforeYear_closed (n + 1)
  have hadd : 1970 + (n + 1) = d.marchYear + 1 := by omega
  have hadd' : 1969 + (n + 1) = d.marchYear := by omega
  have hsum := year_sum d.marchYear
  rw [hadd, hadd'] at hclosed
  rw [weekdaySum, weekdayLess, Date.weekday]
  generalize 13 * (d.marchMonth + 1) / 5 = month at *
  generalize (153 * d.marchMonth - 457) / 5 = before at *
  generalize d.marchYear % 100 / 4 = leaps at *
  generalize d.marchYear / 100 / 4 = quads at *
  generalize d.marchYear / 4 = fours at *
  generalize d.marchYear / 400 = fourhundreds at *
  generalize d.marchYear % 100 = yy at *
  generalize d.marchYear / 100 = cc at *
  omega

theorem weekday_lt (d : Date) : d.weekday < 7 := Nat.mod_lt _ (by decide)

theorem toNat_ucWeek {w : Nat} (h : w < 7) :
    (decToBcd (UInt8.ofNat ((w : Int).emod 256).toNat)).toNat = w := by
  interval_cases w <;> rfl

/-- The weekday is right where the sum is not negative, and where a negative sum is a multiple
of 7. -/
theorem weekdayRight_iff (d : Date) (h : 2000 ≤ d.year) :
    WeekdayRight d ↔ weekdayLess d ≤ weekdaySum d ∨ d.weekday = 6 := by
  have hmod := weekdaySum_emod (d := d) (by omega)
  have hlt := weekday_lt d
  have hresult := calculateDayOfWeek_eq (d := d) (by omega)
  constructor
  · intro hright
    by_contra hneg
    rw [not_or, Nat.not_le] at hneg
    obtain ⟨hneg, hsaturday⟩ := hneg
    have hrem : ((weekdaySum d : Int) - weekdayLess d).tmod 7 ≠ 0 := by
      intro h0
      have hdvd := Int.dvd_of_tmod_eq_zero h0
      omega
    have hle : ((weekdaySum d : Int) - weekdayLess d).tmod 7 ≤ 0 := by
      rw [← Int.neg_neg ((weekdaySum d : Int) - weekdayLess d), Int.neg_tmod]
      have hpos := Int.tmod_nonneg 7 (a := -((weekdaySum d : Int) - weekdayLess d)) (by omega)
      omega
    have hnonneg := hright.nonneg
    rw [hresult, if_neg hrem] at hnonneg
    omega
  · intro hcases
    have hweekday : calculateDayOfWeek d.year d.month d.day = d.weekday := by
      rw [hresult]
      obtain hnonneg | hsaturday := hcases
      · rw [Int.tmod_eq_emod_of_nonneg (by omega)]
        split <;> omega
      · have hdvd : (7 : Int) ∣ (weekdaySum d : Int) - weekdayLess d := by omega
        rw [if_pos (Int.tmod_eq_zero_of_dvd hdvd), hsaturday]
        rfl
    refine ⟨by omega, by omega, hweekday, ?_⟩
    rw [ucWeekOf, hweekday]
    exact toNat_ucWeek hlt

def marchFirst : Date :=
  ⟨2000, 3, 1, Nat.succ_pos 2, Nat.le_of_ble_eq_true rfl, Nat.succ_pos 0, Nat.le_of_ble_eq_true rfl⟩

/-- A Wednesday is worked out as -4, which is 0x92 in the register. -/
theorem weekday_wrong : calculateDayOfWeek 2000 3 1 = -4 ∧ marchFirst.weekday = 3 ∧
    (RtcTime.ofRequest ⟨0x00, 0x03, 0x01, 0x00, 0x00, 0x00⟩).ucWeek = 0x92 ∧
    ¬ ∀ d : Date, 2000 ≤ d.year → WeekdayRight d := by
  refine ⟨by decide, by decide, by rw [ofRequest_ucWeek]; decide, fun h => ?_⟩
  exact absurd (h marchFirst (by decide)).nonneg (by decide)

theorem weekdayRight_iff_marchFirst : 2000 ≤ marchFirst.year ∧
    (WeekdayRight marchFirst ↔
      weekdayLess marchFirst ≤ weekdaySum marchFirst ∨ marchFirst.weekday = 6) :=
  ⟨by decide, weekdayRight_iff marchFirst (by decide)⟩

end Lsc100
