import Mathlib.Tactic.IntervalCases
import Lsc100.Basis.Gregorian
import Lsc100.Calendar

/-! `datetime_to_timestamp` and `timestamp_to_datetime` against the calendar. The
loops of the one count days up from 1970, those of the other count them down. -/

namespace Lsc100

open Gregorian

/-- The fields of a time from 2000 on, in binary. -/
def SystemTime.ofTime (t : Gregorian.Time) : SystemTime where
  ucYear := .ofNat (t.date.year - 2000)
  ucMonth := .ofNat t.date.month
  ucDay := .ofNat t.date.day
  ucHour := .ofNat t.hour
  ucMin := .ofNat t.min
  ucScd := .ofNat t.sec

/-- What the range check of `datetime_to_timestamp` lets through besides the year. -/
structure InRange (month day hour min sec : UInt8) : Prop where
  month : 1 ≤ month ∧ month ≤ 12
  day : 1 ≤ day ∧ day ≤ 31
  hour : hour ≤ 23
  min : min ≤ 59
  sec : sec ≤ 59

/-- The days of the years and months before, as 86400 seconds each, and the time of day. -/
def exactSeconds (year : UInt16) (month day hour min sec : UInt8) : Nat :=
  86400 * (daysBeforeYear year.toNat + daysBeforeMonth year.toNat month.toNat + (day.toNat - 1)) +
    3600 * hour.toNat + 60 * min.toNat + sec.toNat

theorem isLeapYear_iff (year : UInt16) : isLeapYear year = true ↔ IsLeap year.toNat := by
  simp only [isLeapYear, IsLeap, Bool.or_eq_true, Bool.and_eq_true, beq_iff_eq, bne_iff_ne,
    ← UInt16.toNat_inj, ne_eq, UInt16.toNat_mod, UInt16.reduceToNat]
  omega

theorem toNat_getDaysOfYear (year : UInt16) :
    (getDaysOfYear year).toNat = yearLength year.toNat := by
  by_cases hleap : isLeapYear year = true
  · rw [getDaysOfYear, if_pos hleap, yearLength, if_pos ((isLeapYear_iff year).mp hleap)]
    rfl
  · rw [getDaysOfYear, if_neg hleap, yearLength, if_neg (mt (isLeapYear_iff year).mpr hleap)]
    rfl

/-- The two copies of the leap rule agree. -/
theorem daysOfYearMacro_eq (y : UInt16) : daysOfYearMacro y = yearLength y.toNat := by
  rw [← toNat_getDaysOfYear, getDaysOfYear]
  have hmacro : isLeapYearMacro y = isLeapYear y := rfl
  rw [daysOfYearMacro, hmacro]
  split <;> rfl

theorem toNat_getDaysOfMonth (year : UInt16) {month : UInt8} (h : 1 ≤ month.toNat)
    (h' : month.toNat ≤ 12) :
    (getDaysOfMonth year month).toNat = monthLength year.toNat month.toNat := by
  obtain ⟨m, hm⟩ : ∃ m, m = month.toNat := ⟨_, rfl⟩
  have hmonth : month = UInt8.ofNat m := by rw [hm, UInt8.ofNat_toNat]
  rw [← hm] at h h' ⊢
  rw [hmonth]
  by_cases hleap : isLeapYear year = true
  · have hspec := (isLeapYear_iff year).mp hleap
    interval_cases m <;> simp [getDaysOfMonth, monthLength, hleap, hspec]
  · have hspec : ¬ IsLeap year.toNat := mt (isLeapYear_iff year).mpr hleap
    interval_cases m <;> simp [getDaysOfMonth, monthLength, hleap, hspec]

/-- The two copies of the month table agree. -/
theorem daysInThisMonth_eq (y : UInt16) {m : UInt8} (h : 1 ≤ m) :
    (if m == 2 && isLeapYearMacro y then 29 else daysInMonth.getD (m - 1).toNat 0) =
      getDaysOfMonth y m := by
  rw [UInt8.toNat_sub_of_le _ _ h]
  rfl

/-- A loop that adds up days does not overflow while the sum is small. -/
theorem toNat_foldl_add {f : Nat → UInt32} {g : Nat → Nat} {a n : Nat} (total : UInt32)
    (hf : ∀ i, a ≤ i → i < a + n → (f i).toNat = g i)
    (hlt : total.toNat + ∑ i ∈ Finset.Ico a (a + n), g i < 2 ^ 32) :
    ((List.range' a n).foldl (fun total i => total + f i) total).toNat =
      total.toNat + ∑ i ∈ Finset.Ico a (a + n), g i := by
  induction n with
  | zero => simp
  | succ n ih =>
    rw [← Nat.add_assoc, Finset.sum_Ico_succ_top (Nat.le_add_right a n), ← Nat.add_assoc] at hlt ⊢
    rw [List.range'_concat, List.foldl_append, List.foldl_cons, List.foldl_nil, Nat.one_mul,
      UInt32.toNat_add, ih (fun i hi hi' => hf i hi (by omega)) (by omega),
      hf (a + n) (by omega) (by omega)]
    exact Nat.mod_eq_of_lt hlt

theorem daysBeforeYear_lt {year : UInt16} (hyear : 1970 ≤ year.toNat) :
    daysBeforeYear year.toNat < 2 ^ 25 := by
  have hend : 1970 + (year.toNat - 1970) = year.toNat := by omega
  have hbound := (daysBeforeYear_bounds (year.toNat - 1970)).2
  have hlt := year.toNat_lt
  rw [hend] at hbound
  omega

theorem toNat_yearDays (year : UInt16) (hyear : 1970 ≤ year.toNat) :
    ((List.range' 1970 (year.toNat - 1970)).foldl
      (fun total y => total + (getDaysOfYear (UInt16.ofNat y)).toUInt32) (0 : UInt32)).toNat =
      daysBeforeYear year.toNat := by
  have hend : 1970 + (year.toNat - 1970) = year.toNat := by omega
  have hbound := daysBeforeYear_lt hyear
  have hlt := year.toNat_lt
  have hsum := toNat_foldl_add (f := fun y => (getDaysOfYear (UInt16.ofNat y)).toUInt32)
    (g := yearLength) (a := 1970) (n := year.toNat - 1970) 0 (fun i _ hi => ?_) ?_
  · rw [hsum, hend]
    exact Nat.zero_add _
  · have hval : (UInt16.ofNat i).toNat = i :=
      UInt16.toNat_ofNat'.trans (Nat.mod_eq_of_lt (by omega))
    rw [UInt16.toNat_toUInt32, toNat_getDaysOfYear, hval]
  · rw [hend]
    have hzero : (0 : UInt32).toNat = 0 := rfl
    rw [daysBeforeYear] at hbound
    omega

theorem toNat_monthDays (year : UInt16) {month : UInt8} (h : 1 ≤ month.toNat)
    (h' : month.toNat ≤ 12) (total : UInt32) (hlt : total.toNat < 2 ^ 31) :
    ((List.range' 1 (month.toNat - 1)).foldl
      (fun total m => total + (getDaysOfMonth year (UInt8.ofNat m)).toUInt32) total).toNat =
      total.toNat + daysBeforeMonth year.toNat month.toNat := by
  have hend : 1 + (month.toNat - 1) = month.toNat := by omega
  have hbound := Nat.le_trans (daysBeforeMonth_le (y := year.toNat) (Nat.le_trans h' (by decide)))
    (yearLength_le _)
  have hsum := toNat_foldl_add (f := fun m => (getDaysOfMonth year (UInt8.ofNat m)).toUInt32)
    (g := monthLength year.toNat) (a := 1) (n := month.toNat - 1) total (fun i hi hi' => ?_) ?_
  · rw [hsum, hend]
    rfl
  · have hval : (UInt8.ofNat i).toNat = i :=
      UInt8.toNat_ofNat'.trans (Nat.mod_eq_of_lt (by omega))
    rw [UInt8.toNat_toUInt32, toNat_getDaysOfMonth year (by omega) (by omega), hval]
  · rw [hend]
    rw [daysBeforeMonth] at hbound
    omega

theorem datetimeToTimestamp_eq {year : UInt16} {month day hour min sec : UInt8}
    (hyear : 1970 ≤ year) (h : InRange month day hour min sec) :
    (datetimeToTimestamp year month day hour min sec).toNat =
      if exactSeconds year month day hour min sec % 2 ^ 32 < 3600 * hour.toNat then 0
      else exactSeconds year month day hour min sec % 2 ^ 32 := by
  obtain ⟨⟨hmonth, hmonth'⟩, ⟨hday, hday'⟩, hhour, hmin, hsec⟩ := h
  have hrange : ¬ (year < 1970 ∨ month < 1 ∨ 12 < month ∨ day < 1 ∨ 31 < day ∨ 23 < hour ∨
      59 < min ∨ 59 < sec) := by
    simp only [not_or, UInt16.not_lt, UInt8.not_lt]
    exact ⟨hyear, hmonth, hmonth', hday, hday', hhour, hmin, hsec⟩
  rw [UInt16.le_iff_toNat_le] at hyear
  rw [UInt8.le_iff_toNat_le] at hmonth hmonth'
  have hylt := daysBeforeYear_lt hyear
  have hyears := toNat_yearDays year hyear
  have hmonths := toNat_monthDays year hmonth hmonth' ((List.range' 1970
    (year.toNat - 1970)).foldl (fun total y => total + (getDaysOfYear (UInt16.ofNat y)).toUInt32)
    (0 : UInt32)) (by omega)
  have hmle := Nat.le_trans (daysBeforeMonth_le (y := year.toNat)
    (Nat.le_trans hmonth' (by decide))) (yearLength_le _)
  have hdlt := day.toNat_lt
  rw [hyears] at hmonths
  rw [datetimeToTimestamp, if_neg hrange]
  dsimp only
  generalize (List.range' 1 (month.toNat - 1)).foldl
    (fun total m => total + (getDaysOfMonth year (UInt8.ofNat m)).toUInt32) _ = total at hmonths ⊢
  have htotal : (total + (day - 1).toUInt32).toNat =
      daysBeforeYear year.toNat + daysBeforeMonth year.toNat month.toNat + (day.toNat - 1) := by
    rw [UInt32.toNat_add, UInt8.toNat_toUInt32, UInt8.toNat_sub_of_le _ _ hday, hmonths]
    refine Nat.mod_eq_of_lt (Nat.lt_of_le_of_lt ?_ (?_ : 2 ^ 26 < 2 ^ 32))
    · omega
    · decide
  generalize total + (day - 1).toUInt32 = days at htotal ⊢
  have hhours : (hour.toUInt32 * 3600).toNat = 3600 * hour.toNat := by
    have hlt := hour.toNat_lt
    have hfactor : (3600 : UInt32).toNat = 3600 := rfl
    rw [UInt32.toNat_mul, UInt8.toNat_toUInt32, hfactor]
    omega
  have htimestamp : (days * 86400 + hour.toUInt32 * 3600 + min.toUInt32 * 60 + sec.toUInt32).toNat =
      exactSeconds year month day hour min sec % 2 ^ 32 := by
    have hdays : (86400 : UInt32).toNat = 86400 := rfl
    have hmins : (60 : UInt32).toNat = 60 := rfl
    rw [exactSeconds, ← htotal, UInt32.toNat_add, UInt32.toNat_add, UInt32.toNat_add, hhours,
      UInt32.toNat_mul, UInt32.toNat_mul, UInt8.toNat_toUInt32, UInt8.toNat_toUInt32, hdays, hmins]
    omega
  simp only [UInt32.lt_iff_toNat_lt, hhours, htimestamp]
  split
  · rfl
  · exact htimestamp

/-- The timestamp is exact below 2^32 and 0 from there on, except for times that are a
multiple of 2^32 seconds and at least as much as the hours of the day make up. -/
theorem datetimeToTimestamp_exact_iff (year : UInt16) (month day hour min sec : UInt8)
    (hyear : 1970 ≤ year) (h : InRange month day hour min sec) :
    (datetimeToTimestamp year month day hour min sec).toNat =
        (if exactSeconds year month day hour min sec < 2 ^ 32 then
          exactSeconds year month day hour min sec else 0) ↔
      exactSeconds year month day hour min sec < 2 ^ 32 ∨
        ∃ k, k * 2 ^ 32 ≤ exactSeconds year month day hour min sec ∧
          exactSeconds year month day hour min sec < k * 2 ^ 32 + max (3600 * hour.toNat) 1 := by
  have hhours : 3600 * hour.toNat ≤ exactSeconds year month day hour min sec := by
    rw [exactSeconds]
    omega
  rw [datetimeToTimestamp_eq hyear h]
  generalize exactSeconds year month day hour min sec = t at hhours ⊢
  by_cases hlt : t < 2 ^ 32
  · rw [if_pos hlt, Nat.mod_eq_of_lt hlt, if_neg (by omega)]
    exact ⟨fun _ => .inl hlt, fun _ => rfl⟩
  · rw [if_neg hlt]
    have hdiv := Nat.div_add_mod t (2 ^ 32)
    have hmod := Nat.mod_lt t (Nat.two_pow_pos 32)
    have hsmall : 3600 * hour.toNat < 2 ^ 32 := by
      have := hour.toNat_lt
      omega
    constructor
    · intro hzero
      refine .inr ⟨t / 2 ^ 32, by omega, ?_⟩
      split at hzero <;> omega
    · rintro (hlt' | ⟨k, hk, hk'⟩)
      · exact absurd hlt' hlt
      · have hquot : t / 2 ^ 32 = k := by
          refine Nat.div_eq_of_lt_le hk ?_
          rw [Nat.succ_mul]
          omega
        rw [hquot] at hdiv
        split <;> omega

theorem datetimeToTimestamp_exact_iff_first :
    (datetimeToTimestamp 2026 3 27 8 50 0).toNat = exactSeconds 2026 3 27 8 50 0 :=
  ((datetimeToTimestamp_exact_iff 2026 3 27 8 50 0 (by decide)
    ⟨by decide, by decide, by decide, by decide, by decide⟩).mpr (.inl (by decide +kernel))).trans
    (if_pos (by decide +kernel))

/-- 1 January 2107 is beyond 2^32 seconds, and is not answered with 0. -/
theorem datetimeToTimestamp_wrap_unnoticed :
    InRange 1 1 0 0 0 ∧ 2 ^ 32 ≤ exactSeconds 2107 1 1 0 0 0 ∧
      datetimeToTimestamp 2107 1 1 0 0 0 = 28315904 :=
  ⟨⟨by decide, by decide, by decide, by decide, by decide⟩, by decide +kernel⟩

theorem yearOfDays_spec (days : Nat) {y : UInt16} (hy : 1970 ≤ y.toNat)
    (hdays : y.toNat + days / 365 < 2 ^ 16) :
    let r := yearOfDays days y
    daysBeforeYear r.2.toNat + r.1 = daysBeforeYear y.toNat + days ∧
      r.1 < yearLength r.2.toNat ∧ 1970 ≤ r.2.toNat := by
  induction days, y using yearOfDays.induct with
  | case1 days y hle ih =>
    have hlen := yearLength_ge y.toNat
    have hlt := y.toNat_lt
    rw [daysOfYearMacro_eq] at hle ih
    have hquot : (days - yearLength y.toNat) / 365 + 1 ≤ days / 365 := by omega
    have hnext : (y + 1).toNat = y.toNat + 1 :=
      (UInt16.toNat_add ..).trans (Nat.mod_eq_of_lt (show y.toNat + 1 < 2 ^ 16 by omega))
    rw [yearOfDays, daysOfYearMacro_eq, if_pos hle]
    have hrec := ih (by omega) (by omega)
    rw [hnext, daysBeforeYear_succ hy] at hrec
    refine ⟨?_, hrec.2⟩
    omega
  | case2 days y hle =>
    rw [daysOfYearMacro_eq] at hle
    rw [yearOfDays, daysOfYearMacro_eq, if_neg hle]
    exact ⟨rfl, Nat.lt_of_not_le hle, hy⟩

/-- The loop over the months ends in the month of the day, before the months are through. -/
theorem monthOfDays_spec (y : UInt16) (n days : Nat) {m : UInt8} (hm : 1 ≤ m.toNat)
    (hn : m.toNat + n = 13)
    (hdays : daysBeforeMonth y.toNat m.toNat + days < daysBeforeMonth y.toNat 13) :
    let r := monthOfDays y n days m
    daysBeforeMonth y.toNat r.2.toNat + r.1 = daysBeforeMonth y.toNat m.toNat + days ∧
      r.1 < monthLength y.toNat r.2.toNat ∧ 1 ≤ r.2.toNat ∧ r.2.toNat ≤ 12 := by
  induction n generalizing days m with
  | zero =>
    rw [show m.toNat = 13 from hn] at hdays
    omega
  | succ n ih =>
    have hm' : 1 ≤ m := UInt8.le_iff_toNat_le.mpr hm
    have hlen := toNat_getDaysOfMonth y hm (by omega)
    rw [monthOfDays, daysInThisMonth_eq y hm']
    dsimp only
    by_cases hlt : days < (getDaysOfMonth y m).toNat
    · rw [if_pos hlt]
      rw [hlen] at hlt
      exact ⟨rfl, hlt, hm, (by omega : m.toNat ≤ 12)⟩
    · rw [if_neg hlt]
      have hnext : (m + 1).toNat = m.toNat + 1 :=
        (UInt8.toNat_add ..).trans (Nat.mod_eq_of_lt (show m.toNat + 1 < 2 ^ 8 by omega))
      have hsucc := daysBeforeMonth_succ y.toNat hm
      have hrec := ih (days - (getDaysOfMonth y m).toNat) (m := m + 1) (by omega) (by omega)
        (by rw [hnext]; omega)
      rw [hnext] at hrec
      refine ⟨?_, hrec.2⟩
      omega

theorem toUInt8_eq_ofNat {x : UInt32} {n : Nat} (h : x.toNat = n) : x.toUInt8 = UInt8.ofNat n := by
  rw [← UInt8.toNat_inj, UInt32.toNat_toUInt8, UInt8.toNat_ofNat', h]

theorem timestampToDatetime_time (timestamp : UInt32) :
    ∃ t : Gregorian.Time, 1970 ≤ t.date.year ∧ t.seconds = timestamp.toNat ∧
      (2000 ≤ t.date.year → timestampToDatetime timestamp = .ofTime t) := by
  have hlt := timestamp.toNat_lt
  have hday : (86400 : UInt32).toNat = 86400 := rfl
  have hhour : (3600 : UInt32).toNat = 3600 := rfl
  have hmin : (60 : UInt32).toNat = 60 := rfl
  have hdays : (timestamp / 86400).toNat = timestamp.toNat / 86400 := by
    rw [UInt32.toNat_div, hday]
  have hsecs : (timestamp % 86400).toNat = timestamp.toNat % 86400 := by
    rw [UInt32.toNat_mod, hday]
  obtain ⟨hyear, hrest, hyear'⟩ := yearOfDays_spec (timestamp.toNat / 86400) (y := 1970)
    (Nat.le_refl 1970) (show 1970 + _ < _ by omega)
  obtain ⟨r, hr⟩ : ∃ r, r = yearOfDays (timestamp.toNat / 86400) 1970 := ⟨_, rfl⟩
  rw [← hr] at hyear hrest hyear'
  obtain ⟨hmonth, hrest', hmonth', hmonth''⟩ :=
    monthOfDays_spec r.2 12 r.1 (m := 1) (Nat.le_refl 1) rfl (by
      rw [daysBeforeMonth_thirteen]
      exact (Nat.zero_add _).symm ▸ hrest)
  obtain ⟨q, hq⟩ : ∃ q, q = monthOfDays r.2 12 r.1 1 := ⟨_, rfl⟩
  rw [← hq] at hmonth hrest' hmonth' hmonth''
  refine ⟨⟨⟨r.2.toNat, q.2.toNat, q.1 + 1, hmonth', hmonth'', Nat.succ_pos _, hrest'⟩,
    timestamp.toNat % 86400 / 3600, timestamp.toNat % 86400 % 3600 / 60,
    timestamp.toNat % 86400 % 60, by omega, by omega, by omega⟩, hyear', ?_, fun h2000 => ?_⟩
  · have hmonths : daysBeforeMonth r.2.toNat q.2.toNat + q.1 = r.1 := hmonth.trans (Nat.zero_add _)
    have hyears : daysBeforeYear r.2.toNat + r.1 = timestamp.toNat / 86400 :=
      hyear.trans (Nat.zero_add _)
    simp only [Time.seconds, Date.dayNumber]
    omega
  · have hle : (2000 : UInt16) ≤ r.2 := UInt16.le_iff_toNat_le.mpr h2000
    rw [timestampToDatetime, hdays, ← hr]
    dsimp only
    rw [← hq, SystemTime.ofTime]
    simp only [SystemTime.mk.injEq, UInt8.ofNat_toNat, true_and]
    refine ⟨?_, ?_, ?_, ?_⟩
    · rw [← UInt8.toNat_inj, UInt16.toNat_toUInt8, UInt8.toNat_ofNat',
        UInt16.toNat_sub_of_le _ _ hle]
      rfl
    · exact toUInt8_eq_ofNat (by rw [UInt32.toNat_div, hsecs, hhour])
    · exact toUInt8_eq_ofNat (by rw [UInt32.toNat_div, UInt32.toNat_mod, hsecs, hhour, hmin])
    · exact toUInt8_eq_ofNat (by rw [UInt32.toNat_mod, hsecs, hmin])

/-- 7 February 2106, 06:28:15, the last second below 2^32. -/
def lastTime : Gregorian.Time :=
  ⟨⟨2106, 2, 7, by decide, by decide, by decide, by decide⟩, 6, 28, 15, by decide, by decide,
    by decide⟩

theorem lastTime_seconds : lastTime.seconds = 2 ^ 32 - 1 := by decide +kernel

theorem year_le_of_seconds {t : Gregorian.Time} (hyear : 1970 ≤ t.date.year)
    (h : t.seconds < 2 ^ 32) : t.date.year ≤ 2106 := by
  have hdays := (Date.year_interval hyear).1
  have hbound := (daysBeforeYear_bounds (t.date.year - 1970)).1
  rw [Nat.add_sub_cancel' hyear] at hbound
  rw [Time.seconds] at h
  omega

theorem le_year_of_seconds {t : Gregorian.Time} (hyear : 1970 ≤ t.date.year)
    (h : 946684800 ≤ t.seconds) : 2000 ≤ t.date.year := by
  by_contra hlt
  have hbefore : daysBeforeYear (t.date.year + 1) ≤ daysBeforeYear 2000 :=
    daysBeforeYear_mono (by omega)
  have hdays : daysBeforeYear 2000 = 10957 := by decide +kernel
  have hmax := (Date.year_interval hyear).2
  have hhour := t.hour_lt
  have hmin := t.min_lt
  have hsec := t.sec_lt
  rw [Time.seconds] at h
  omega

theorem inRange_time (t : Gregorian.Time) :
    InRange (.ofNat t.date.month) (.ofNat t.date.day) (.ofNat t.hour) (.ofNat t.min)
      (.ofNat t.sec) := by
  have hmonth := t.date.month_le
  have hday := Nat.le_trans t.date.day_le (monthLength_le ..)
  have hsmall {n : Nat} (h : n ≤ 59) : (UInt8.ofNat n).toNat = n :=
    UInt8.toNat_ofNat'.trans (Nat.mod_eq_of_lt (Nat.lt_of_le_of_lt h (by decide)))
  constructor
  all_goals simp only [UInt8.le_iff_toNat_le]
  · rw [hsmall (Nat.le_trans hmonth (by decide))]
    exact ⟨t.date.month_pos, hmonth⟩
  · rw [hsmall (Nat.le_trans hday (by decide))]
    exact ⟨t.date.day_pos, hday⟩
  · rw [hsmall (Nat.le_trans (Nat.le_of_lt t.hour_lt) (by decide))]
    exact Nat.le_of_lt_succ t.hour_lt
  · rw [hsmall (Nat.le_of_lt_succ t.min_lt)]
    exact Nat.le_of_lt_succ t.min_lt
  · rw [hsmall (Nat.le_of_lt_succ t.sec_lt)]
    exact Nat.le_of_lt_succ t.sec_lt

theorem exactSeconds_time {t : Gregorian.Time} (hyear : t.date.year < 2 ^ 16) :
    exactSeconds (.ofNat t.date.year) (.ofNat t.date.month) (.ofNat t.date.day) (.ofNat t.hour)
      (.ofNat t.min) (.ofNat t.sec) = t.seconds := by
  have hmonth := t.date.month_le
  have hday := Nat.le_trans t.date.day_le (monthLength_le ..)
  have hhour := t.hour_lt
  have hmin := t.min_lt
  have hsec := t.sec_lt
  simp only [exactSeconds, Time.seconds, Date.dayNumber, UInt16.toNat_ofNat', UInt8.toNat_ofNat']
  rw [Nat.mod_eq_of_lt hyear, Nat.mod_eq_of_lt (by omega), Nat.mod_eq_of_lt (by omega),
    Nat.mod_eq_of_lt (by omega), Nat.mod_eq_of_lt (by omega), Nat.mod_eq_of_lt (by omega)]

theorem datetimeToTimestamp_time {t : Gregorian.Time} (hyear : 1970 ≤ t.date.year)
    (h : t.seconds < 2 ^ 32) :
    (datetimeToTimestamp (.ofNat t.date.year) (.ofNat t.date.month) (.ofNat t.date.day)
      (.ofNat t.hour) (.ofNat t.min) (.ofNat t.sec)).toNat = t.seconds := by
  have hlast := year_le_of_seconds hyear h
  have hrange : 1970 ≤ UInt16.ofNat t.date.year := by
    rw [UInt16.le_iff_toNat_le, UInt16.toNat_ofNat', Nat.mod_eq_of_lt (by omega)]
    exact hyear
  have hhour : (UInt8.ofNat t.hour).toNat = t.hour :=
    UInt8.toNat_ofNat'.trans (Nat.mod_eq_of_lt (Nat.lt_trans t.hour_lt (by decide)))
  rw [datetimeToTimestamp_eq hrange (inRange_time t), exactSeconds_time (by omega), hhour,
    Nat.mod_eq_of_lt h, if_neg]
  rw [Time.seconds]
  omega

/-- From 2000 to the last second below 2^32 the timestamp of a time is the number of
seconds that pass from 1970 to it, and both conversions are inverse to each other. -/
theorem timestamp_calendar :
    (∀ t : Gregorian.Time, 2000 ≤ t.date.year → (∃ n, Time.next^[n] t = lastTime) →
      let timestamp := datetimeToTimestamp (.ofNat t.date.year) (.ofNat t.date.month)
        (.ofNat t.date.day) (.ofNat t.hour) (.ofNat t.min) (.ofNat t.sec)
      Time.next^[timestamp.toNat] .epoch = t ∧ timestampToDatetime timestamp = .ofTime t) ∧
    ∀ timestamp : UInt32, 946684800 ≤ timestamp →
      let time := timestampToDatetime timestamp
      datetimeToTimestamp (2000 + time.ucYear.toUInt16) time.ucMonth time.ucDay time.ucHour
        time.ucMin time.ucScd = timestamp := by
  refine ⟨fun t h2000 ⟨n, hn⟩ => ?_, fun timestamp hstart => ?_⟩
  · have hyear : 1970 ≤ t.date.year := Nat.le_trans (by decide) h2000
    have hsum := (Time.seconds_iterate hyear n).2
    rw [hn, lastTime_seconds] at hsum
    have hstamp := datetimeToTimestamp_time hyear (by omega)
    refine ⟨by rw [hstamp, Time.next_iterate_seconds hyear], ?_⟩
    obtain ⟨u, huyear, huseconds, hu⟩ := timestampToDatetime_time (datetimeToTimestamp
      (.ofNat t.date.year) (.ofNat t.date.month) (.ofNat t.date.day) (.ofNat t.hour) (.ofNat t.min)
      (.ofNat t.sec))
    obtain rfl : u = t := Time.seconds_inj huyear hyear (huseconds.trans hstamp)
    exact hu h2000
  · obtain ⟨t, hyear, hseconds, ht⟩ := timestampToDatetime_time timestamp
    have hlt : t.seconds < 2 ^ 32 := hseconds ▸ timestamp.toNat_lt
    have hlast := year_le_of_seconds hyear hlt
    have h2000 : 2000 ≤ t.date.year :=
      le_year_of_seconds hyear (hseconds ▸ UInt32.le_iff_toNat_le.mp hstart)
    have hucYear : 2000 + (UInt8.ofNat (t.date.year - 2000)).toUInt16 =
        UInt16.ofNat t.date.year := by
      rw [← UInt16.toNat_inj, UInt16.toNat_add, UInt8.toNat_toUInt16, UInt8.toNat_ofNat',
        UInt16.toNat_ofNat']
      have hbase : (2000 : UInt16).toNat = 2000 := rfl
      omega
    rw [ht h2000]
    simp only [SystemTime.ofTime, hucYear]
    rw [← UInt32.toNat_inj, datetimeToTimestamp_time hyear hlt, hseconds]

theorem timestamp_calendar_last :
    timestampToDatetime (datetimeToTimestamp 2106 2 7 6 28 15) = ⟨106, 2, 7, 6, 28, 15⟩ ∧
      ∃ time, time = timestampToDatetime 946684800 ∧
        datetimeToTimestamp (2000 + time.ucYear.toUInt16) time.ucMonth time.ucDay time.ucHour
          time.ucMin time.ucScd = 946684800 :=
  ⟨(timestamp_calendar.1 lastTime (by decide) ⟨0, rfl⟩).2, _, rfl,
    timestamp_calendar.2 946684800 (by decide)⟩

end Lsc100
