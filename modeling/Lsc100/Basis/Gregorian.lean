import Mathlib.Algebra.BigOperators.Intervals
import Mathlib.Algebra.Order.BigOperators.Group.Finset
import Mathlib.Logic.Function.Iterate
import Mathlib.Tactic.IntervalCases

/-! The proleptic Gregorian calendar: dates, the day after a date, the second after
a time, and the numbers of days and seconds since 1 January 1970. -/

namespace Gregorian

def IsLeap (y : Nat) : Prop := 4 ∣ y ∧ (100 ∣ y → 400 ∣ y)

instance : DecidablePred IsLeap := fun _ => inferInstanceAs (Decidable (_ ∧ _))

def monthLength (y : Nat) : Nat → Nat
  | 2 => if IsLeap y then 29 else 28
  | 4 | 6 | 9 | 11 => 30
  | _ => 31

def yearLength (y : Nat) : Nat := if IsLeap y then 366 else 365

structure Date where
  year : Nat
  month : Nat
  day : Nat
  month_pos : 0 < month
  month_le : month ≤ 12
  day_pos : 0 < day
  day_le : day ≤ monthLength year month
  deriving DecidableEq

structure Time where
  date : Date
  hour : Nat
  min : Nat
  sec : Nat
  hour_lt : hour < 24
  min_lt : min < 60
  sec_lt : sec < 60
  deriving DecidableEq

theorem monthLength_ge (y m : Nat) : 28 ≤ monthLength y m := by
  unfold monthLength
  split <;> (try split) <;> decide

theorem monthLength_le (y m : Nat) : monthLength y m ≤ 31 := by
  unfold monthLength
  split <;> (try split) <;> decide

theorem yearLength_ge (y : Nat) : 365 ≤ yearLength y := by
  unfold yearLength
  split <;> decide

theorem yearLength_le (y : Nat) : yearLength y ≤ 366 := by
  unfold yearLength
  split <;> decide

namespace Date

def epoch : Date := ⟨1970, 1, 1, by decide, by decide, by decide, by decide⟩

def next (d : Date) : Date :=
  if hday : d.day < monthLength d.year d.month then
    ⟨d.year, d.month, d.day + 1, d.month_pos, d.month_le, Nat.succ_pos _, hday⟩
  else if hmonth : d.month < 12 then
    ⟨d.year, d.month + 1, 1, Nat.succ_pos _, hmonth, Nat.one_pos,
      Nat.le_trans (by decide) (monthLength_ge _ _)⟩
  else
    ⟨d.year + 1, 1, 1, Nat.one_pos, by decide, Nat.one_pos,
      Nat.le_trans (by decide) (monthLength_ge _ _)⟩

end Date

namespace Time

def epoch : Time := ⟨.epoch, 0, 0, 0, by decide, by decide, by decide⟩

def next (t : Time) : Time :=
  if hsec : t.sec + 1 < 60 then
    ⟨t.date, t.hour, t.min, t.sec + 1, t.hour_lt, t.min_lt, hsec⟩
  else if hmin : t.min + 1 < 60 then
    ⟨t.date, t.hour, t.min + 1, 0, t.hour_lt, hmin, by decide⟩
  else if hhour : t.hour + 1 < 24 then
    ⟨t.date, t.hour + 1, 0, 0, hhour, by decide, by decide⟩
  else ⟨t.date.next, 0, 0, 0, by decide, by decide, by decide⟩

end Time

def daysBeforeYear (y : Nat) : Nat := ∑ i ∈ Finset.Ico 1970 y, yearLength i

def daysBeforeMonth (y m : Nat) : Nat := ∑ i ∈ Finset.Ico 1 m, monthLength y i

theorem daysBeforeYear_succ {y : Nat} (h : 1970 ≤ y) :
    daysBeforeYear (y + 1) = daysBeforeYear y + yearLength y :=
  Finset.sum_Ico_succ_top h _

theorem daysBeforeMonth_succ (y : Nat) {m : Nat} (h : 0 < m) :
    daysBeforeMonth y (m + 1) = daysBeforeMonth y m + monthLength y m :=
  Finset.sum_Ico_succ_top h _

@[simp] theorem daysBeforeYear_epoch : daysBeforeYear 1970 = 0 := rfl

@[simp] theorem daysBeforeMonth_one (y : Nat) : daysBeforeMonth y 1 = 0 := rfl

theorem daysBeforeMonth_thirteen (y : Nat) : daysBeforeMonth y 13 = yearLength y := by
  rw [daysBeforeMonth, Finset.sum_Ico_eq_sum_range]
  simp only [Nat.add_one_sub_one, Finset.sum_range_succ, Finset.sum_range_zero, monthLength,
    yearLength]
  split <;> rfl

theorem daysBeforeYear_mono : Monotone daysBeforeYear := fun _ _ h =>
  Finset.sum_le_sum_of_subset (Finset.Ico_subset_Ico_right h)

theorem daysBeforeMonth_mono (y : Nat) : Monotone (daysBeforeMonth y) := fun _ _ h =>
  Finset.sum_le_sum_of_subset (Finset.Ico_subset_Ico_right h)

theorem daysBeforeYear_bounds (n : Nat) :
    365 * n ≤ daysBeforeYear (1970 + n) ∧ daysBeforeYear (1970 + n) ≤ 366 * n := by
  induction n with
  | zero => exact ⟨Nat.zero_le _, Nat.zero_le _⟩
  | succ n ih =>
    have hge := yearLength_ge (1970 + n)
    have hle := yearLength_le (1970 + n)
    have hsucc := daysBeforeYear_succ (Nat.le_add_right 1970 n)
    rw [Nat.add_assoc] at hsucc
    omega

theorem daysBeforeMonth_le {y m : Nat} (h : m ≤ 13) : daysBeforeMonth y m ≤ yearLength y :=
  daysBeforeMonth_thirteen y ▸ daysBeforeMonth_mono y h

/-- Only one interval between the values of a monotone function holds a number. -/
theorem eq_of_mem_interval {f : Nat → Nat} (hf : Monotone f) {n i j : Nat}
    (hi : f i ≤ n ∧ n < f (i + 1)) (hj : f j ≤ n ∧ n < f (j + 1)) : i = j := by
  rcases Nat.lt_trichotomy i j with hlt | heq | hgt
  · have hle : f (i + 1) ≤ f j := hf hlt
    omega
  · exact heq
  · have hle : f (j + 1) ≤ f i := hf hgt
    omega

namespace Date

def dayNumber (d : Date) : Nat :=
  daysBeforeYear d.year + daysBeforeMonth d.year d.month + (d.day - 1)

theorem ext_fields {d e : Date} (hyear : d.year = e.year) (hmonth : d.month = e.month)
    (hday : d.day = e.day) : d = e := by
  cases d
  cases e
  simp only [mk.injEq]
  exact ⟨hyear, hmonth, hday⟩

theorem month_interval (d : Date) :
    daysBeforeMonth d.year d.month + (d.day - 1) < daysBeforeMonth d.year (d.month + 1) := by
  have hpos := d.day_pos
  have hle := d.day_le
  rw [daysBeforeMonth_succ _ d.month_pos]
  omega

theorem year_interval {d : Date} (h : 1970 ≤ d.year) :
    daysBeforeYear d.year ≤ d.dayNumber ∧ d.dayNumber < daysBeforeYear (d.year + 1) := by
  have hmonth := d.month_interval
  have hmono : daysBeforeMonth d.year (d.month + 1) ≤ yearLength d.year :=
    daysBeforeMonth_le (Nat.succ_le_succ d.month_le)
  rw [daysBeforeYear_succ h, dayNumber]
  omega

theorem dayNumber_next {d : Date} (h : 1970 ≤ d.year) : d.next.dayNumber = d.dayNumber + 1 := by
  have hpos := d.day_pos
  have hle := d.day_le
  unfold next
  split
  · simp only [dayNumber]
    omega
  · split
    · simp only [dayNumber]
      rw [daysBeforeMonth_succ _ d.month_pos]
      omega
    · have hmonth : d.month = 12 := Nat.le_antisymm d.month_le (by omega)
      have hyear := daysBeforeMonth_succ d.year d.month_pos
      rw [hmonth, daysBeforeMonth_thirteen, ← hmonth] at hyear
      simp only [dayNumber, daysBeforeMonth_one]
      rw [daysBeforeYear_succ h]
      omega

theorem year_le_next (d : Date) : d.year ≤ d.next.year := by
  unfold next
  split
  · exact Nat.le_refl _
  · split
    · exact Nat.le_refl _
    · exact Nat.le_succ _

theorem dayNumber_inj {d e : Date} (hd : 1970 ≤ d.year) (he : 1970 ≤ e.year)
    (h : d.dayNumber = e.dayNumber) : d = e := by
  have heyear := year_interval he
  rw [← h] at heyear
  have hyear : d.year = e.year := eq_of_mem_interval daysBeforeYear_mono (year_interval hd) heyear
  have hrest : daysBeforeMonth d.year d.month + (d.day - 1) =
      daysBeforeMonth d.year e.month + (e.day - 1) := by
    simp only [dayNumber, hyear] at h ⊢
    omega
  have hmonth : d.month = e.month := by
    have heint := e.month_interval
    rw [← hyear] at heint
    exact eq_of_mem_interval (daysBeforeMonth_mono d.year) ⟨Nat.le_add_right _ _, d.month_interval⟩
      ⟨hrest ▸ Nat.le_add_right _ _, hrest ▸ heint⟩
  refine ext_fields hyear hmonth ?_
  have hdpos := d.day_pos
  have hepos := e.day_pos
  rw [hmonth] at hrest
  omega

end Date

namespace Time

def seconds (t : Time) : Nat :=
  86400 * t.date.dayNumber + 3600 * t.hour + 60 * t.min + t.sec

theorem seconds_next {t : Time} (h : 1970 ≤ t.date.year) : t.next.seconds = t.seconds + 1 := by
  have hsec := t.sec_lt
  have hmin := t.min_lt
  have hhour := t.hour_lt
  unfold next
  split
  · simp only [seconds]
    omega
  · split
    · simp only [seconds]
      omega
    · split
      · simp only [seconds]
        omega
      · simp only [seconds, Date.dayNumber_next h]
        omega

theorem year_le_next (t : Time) : t.date.year ≤ t.next.date.year := by
  unfold next
  split
  · exact Nat.le_refl _
  · split
    · exact Nat.le_refl _
    · split
      · exact Nat.le_refl _
      · exact t.date.year_le_next

theorem seconds_iterate {t : Time} (h : 1970 ≤ t.date.year) (n : Nat) :
    1970 ≤ (next^[n] t).date.year ∧ (next^[n] t).seconds = t.seconds + n := by
  induction n with
  | zero => exact ⟨h, rfl⟩
  | succ n ih =>
    rw [Function.iterate_succ_apply']
    refine ⟨Nat.le_trans ih.1 (year_le_next _), ?_⟩
    rw [seconds_next ih.1, ih.2, Nat.add_assoc]

theorem seconds_inj {t u : Time} (ht : 1970 ≤ t.date.year) (hu : 1970 ≤ u.date.year)
    (h : t.seconds = u.seconds) : t = u := by
  have htsec := t.sec_lt
  have htmin := t.min_lt
  have hthour := t.hour_lt
  have husec := u.sec_lt
  have humin := u.min_lt
  have huhour := u.hour_lt
  simp only [seconds] at h
  have hdate : t.date = u.date := Date.dayNumber_inj ht hu (by omega)
  cases t
  cases u
  simp only at hdate
  subst hdate
  simp only [mk.injEq, true_and]
  simp only at h
  omega

/-- The seconds are those that pass from the epoch to the time. -/
theorem next_iterate_seconds {t : Time} (h : 1970 ≤ t.date.year) : next^[t.seconds] epoch = t := by
  have hrun := seconds_iterate (t := epoch) (by decide) t.seconds
  have hepoch : epoch.seconds = 0 := rfl
  rw [hepoch, Nat.zero_add] at hrun
  exact seconds_inj hrun.1 h hrun.2

end Time

theorem yearLength_add (y : Nat) : yearLength (y + 1) + ((y + 1) / 100 - y / 100) =
    365 + ((y + 1) / 4 - y / 4) + ((y + 1) / 400 - y / 400) := by
  have h100 : 400 ∣ y + 1 → 100 ∣ y + 1 := Nat.dvd_trans (by decide)
  have h4 : 100 ∣ y + 1 → 4 ∣ y + 1 := Nat.dvd_trans (by decide)
  rw [Nat.succ_div, Nat.succ_div, Nat.succ_div, yearLength]
  by_cases hd : 4 ∣ y + 1 <;> by_cases hc : 100 ∣ y + 1 <;> by_cases hq : 400 ∣ y + 1 <;>
    simp_all [IsLeap]

/-- The leap days are every fourth year, without three of four centuries. -/
theorem daysBeforeYear_closed (n : Nat) : daysBeforeYear (1970 + n) + 719162 + (1969 + n) / 100 =
    365 * (1969 + n) + (1969 + n) / 4 + (1969 + n) / 400 := by
  induction n with
  | zero => rfl
  | succ n ih =>
    have hsucc := daysBeforeYear_succ (Nat.le_add_right 1970 n)
    have hyear := yearLength_add (1969 + n)
    have h4 := Nat.div_le_div_right (c := 4) (Nat.le_succ (1969 + n))
    have h100 := Nat.div_le_div_right (c := 100) (Nat.le_succ (1969 + n))
    have h400 := Nat.div_le_div_right (c := 400) (Nat.le_succ (1969 + n))
    have h1970 : 1969 + n + 1 = 1970 + n := by omega
    rw [Nat.add_assoc] at hsucc
    simp only [Nat.succ_eq_add_one, h1970] at hyear h4 h100 h400
    rw [hsucc]
    omega

namespace Date

/-- The day of the week, from Sunday = 0 on; the epoch is a Thursday. -/
def weekday (d : Date) : Nat := (d.dayNumber + 4) % 7

/-- The years that begin in March: January and February are months 13 and 14 of the year before. -/
def marchYear (d : Date) : Nat := if d.month < 3 then d.year - 1 else d.year

def marchMonth (d : Date) : Nat := if d.month < 3 then d.month + 12 else d.month

theorem marchMonth_bounds (d : Date) : 3 ≤ d.marchMonth ∧ d.marchMonth ≤ 14 := by
  have hpos := d.month_pos
  have hle := d.month_le
  rw [marchMonth]
  split <;> omega

/-- From March on only the months behind a month count, and these have fixed lengths. -/
theorem daysBeforeMonth_march (y : Nat) {m : Nat} (h : 3 ≤ m) (h' : m ≤ 12) :
    daysBeforeMonth y m + 306 = yearLength y + (153 * m - 457) / 5 := by
  induction m, h using Nat.le_induction with
  | base =>
    rw [daysBeforeMonth_succ _ (by decide), daysBeforeMonth_succ _ (by decide),
      daysBeforeMonth_one, yearLength]
    simp only [monthLength]
    split <;> rfl
  | succ m hm ih =>
    have ih := ih (by omega)
    rw [daysBeforeMonth_succ _ (by omega)]
    have hle : m ≤ 11 := Nat.le_of_succ_le_succ h'
    have hlen : monthLength y m = (153 * (m + 1) - 457) / 5 - (153 * m - 457) / 5 := by
      interval_cases m <;> rfl
    omega

/-- In a year that begins in March the months before a month have the same length in every
year. -/
theorem dayNumber_march {d : Date} (h : 1971 ≤ d.year) :
    d.dayNumber + 307 =
      daysBeforeYear (d.marchYear + 1) + (153 * d.marchMonth - 457) / 5 + d.day := by
  have hpos := d.day_pos
  have hmonth := d.month_pos
  have hmonth' := d.month_le
  rw [dayNumber, marchYear, marchMonth]
  by_cases hm : d.month < 3
  · rw [if_pos hm, if_pos hm, Nat.sub_add_cancel (by omega)]
    obtain h1 | h2 : d.month = 1 ∨ d.month = 2 := by omega
    · rw [h1, daysBeforeMonth_one]
      omega
    · rw [h2, daysBeforeMonth_succ _ Nat.one_pos, daysBeforeMonth_one]
      simp only [monthLength]
      omega
  · rw [if_neg hm, if_neg hm, daysBeforeYear_succ (by omega)]
    have hmonth := daysBeforeMonth_march d.year (by omega) hmonth'
    omega

end Date

end Gregorian
