import Mathlib.Logic.Basic

/-! Calendar time as the device keeps it: BCD fields of the clock, and the number
of seconds since 1970 from `utils.c`, in 32 bits. -/

namespace Lsc100

structure SystemTime where
  ucYear : UInt8
  ucMonth : UInt8
  ucDay : UInt8
  ucHour : UInt8
  ucMin : UInt8
  ucScd : UInt8
  deriving DecidableEq, Repr

def SystemTime.bytes (t : SystemTime) : List UInt8 :=
  [t.ucYear, t.ucMonth, t.ucDay, t.ucHour, t.ucMin, t.ucScd]

def SystemTime.ofBytes (b : Nat → UInt8) : SystemTime := ⟨b 0, b 1, b 2, b 3, b 4, b 5⟩

@[simp] theorem SystemTime.length_bytes (t : SystemTime) : t.bytes.length = 6 := rfl

theorem SystemTime.ofBytes_eq {t : SystemTime} {b : Nat → UInt8}
    (h : ∀ k < 6, b k = t.bytes.getD k 0) : SystemTime.ofBytes b = t := by
  simp only [ofBytes, h 0 (by decide), h 1 (by decide), h 2 (by decide), h 3 (by decide),
    h 4 (by decide), h 5 (by decide)]
  rfl

theorem SystemTime.ofBytes_congr {b c : Nat → UInt8} (h : ∀ k < 6, b k = c k) :
    SystemTime.ofBytes b = SystemTime.ofBytes c := by
  simp only [ofBytes, h 0 (by decide), h 1 (by decide), h 2 (by decide), h 3 (by decide),
    h 4 (by decide), h 5 (by decide)]

def isLeapYear (year : UInt16) : Bool :=
  (year % 4 == 0 && year % 100 != 0) || year % 400 == 0

def getDaysOfYear (year : UInt16) : UInt16 := if isLeapYear year then 366 else 365

def getDaysOfMonth (year : UInt16) (month : UInt8) : UInt8 :=
  if month == 2 && isLeapYear year then 29
  else [31, 28, 31, 30, 31, 30, 31, 31, 30, 31, 30, 31].getD (month.toNat - 1) 0

/-- Dates out of range are 0, and so is what is seen to overflow. -/
def datetimeToTimestamp (year : UInt16) (month day hour min sec : UInt8) : UInt32 :=
  if year < 1970 ∨ month < 1 ∨ 12 < month ∨ day < 1 ∨ 31 < day ∨ 23 < hour ∨ 59 < min ∨
      59 < sec then 0
  else
    let totalDays := (List.range' 1970 (year.toNat - 1970)).foldl
      (fun total y => total + (getDaysOfYear (UInt16.ofNat y)).toUInt32) (0 : UInt32)
    let totalDays := (List.range' 1 (month.toNat - 1)).foldl
      (fun total m => total + (getDaysOfMonth year (UInt8.ofNat m)).toUInt32) totalDays
    let totalDays := totalDays + (day - 1).toUInt32
    let timestamp := totalDays * 86400 + hour.toUInt32 * 3600 + min.toUInt32 * 60 + sec.toUInt32
    if timestamp < hour.toUInt32 * 3600 then 0 else timestamp

/-- `IS_LEAP_YEAR` -/
def isLeapYearMacro (y : UInt16) : Bool := (y % 4 == 0 && y % 100 != 0) || y % 400 == 0

def daysInMonth : List UInt8 := [31, 28, 31, 30, 31, 30, 31, 31, 30, 31, 30, 31]

/-- `IS_LEAP_YEAR(y) ? 366 : 365` -/
def daysOfYearMacro (y : UInt16) : Nat := if isLeapYearMacro y then 366 else 365

theorem daysOfYearMacro_pos (y : UInt16) : 0 < daysOfYearMacro y := by
  unfold daysOfYearMacro
  split <;> decide

/-- The loop of `timestamp_to_datetime` over the years: what is left of `days`, and the year. -/
def yearOfDays (days : Nat) (y : UInt16) : Nat × UInt16 :=
  if daysOfYearMacro y ≤ days then yearOfDays (days - daysOfYearMacro y) (y + 1) else (days, y)
termination_by days
decreasing_by
  have hpos := daysOfYearMacro_pos y
  omega

/-- The loop over the months `m` to 12, `n` of them. -/
def monthOfDays (y : UInt16) : Nat → Nat → UInt8 → Nat × UInt8
  | 0, days, m => (days, m)
  | n + 1, days, m =>
    let daysInThisMonth :=
      if m == 2 && isLeapYearMacro y then 29 else daysInMonth.getD (m - 1).toNat 0
    if days < daysInThisMonth.toNat then (days, m)
    else monthOfDays y n (days - daysInThisMonth.toNat) (m + 1)

def timestampToDatetime (timestamp : UInt32) : SystemTime :=
  let secsOfDay := timestamp % 86400
  let (days, y) := yearOfDays (timestamp / 86400).toNat 1970
  let (days, m) := monthOfDays y 12 days 1
  { ucYear := (y - 2000).toUInt8
    ucMonth := m
    ucDay := UInt8.ofNat (days + 1)
    ucHour := (secsOfDay / 3600).toUInt8
    ucMin := (secsOfDay % 3600 / 60).toUInt8
    ucScd := (secsOfDay % 60).toUInt8 }

def decToBcd (decVal : UInt8) : UInt8 := (((decVal / 10) &&& 0x0F) <<< 4) ||| (decVal % 10)

def bcdToDec (bcdVal : UInt8) : UInt8 := (bcdVal >>> 4) * 10 + (bcdVal &&& 0x0F)

/-- The conversion the request handlers make. -/
def SystemTime.timestamp (t : SystemTime) : UInt32 :=
  datetimeToTimestamp ((bcdToDec t.ucYear).toUInt16 + 2000) (bcdToDec t.ucMonth) (bcdToDec t.ucDay)
    (bcdToDec t.ucHour) (bcdToDec t.ucMin) (bcdToDec t.ucScd)

example : (SystemTime.mk 0x26 0x03 0x27 0x08 0x50 0x00).timestamp = 1774601400 := by decide +kernel

end Lsc100
