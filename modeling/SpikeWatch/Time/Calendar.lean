/-!
# The calendar

Days and dates of the Gregorian calendar, carried on to all years before and after.  A year is
counted here from its March on, so that the day that only leap years have is the last one of its
year, of its four years, of its century and of its four hundred years.
-/

set_option autoImplicit false

namespace SpikeWatch

/-- A date of the calendar. -/
structure Date where
  year : Int
  month : Nat
  day : Nat
  deriving DecidableEq

namespace Date

/-- Every fourth year is a leap year, but not at the end of a century, unless it is a fourth one. -/
def isLeapYear (year : Int) : Bool := year % 4 == 0 && (year % 100 != 0 || year % 400 == 0)

/-- The number of days in a month of a year. -/
def daysInMonth (year : Int) (month : Nat) : Nat :=
  if month = 2 then (if isLeapYear year then 29 else 28)
  else if month = 4 ∨ month = 6 ∨ month = 9 ∨ month = 11 then 30 else 31

/-- Month and day exist in the year. -/
def IsValid (d : Date) : Prop :=
  1 ≤ d.month ∧ d.month ≤ 12 ∧ 1 ≤ d.day ∧ d.day ≤ daysInMonth d.year d.month

instance (d : Date) : Decidable d.IsValid := by unfold IsValid; infer_instance

/-- Days from the first of March of the year zero to the beginning of 1970. -/
def epochDay : Int := 719468

/-- The days from the beginning of 1970 to a date. -/
def toDays (d : Date) : Int :=
  let year := if d.month ≤ 2 then d.year - 1 else d.year
  let month : Int := (d.month + 9) % 12
  365 * year + year / 4 - year / 100 + year / 400 + (153 * month + 2) / 5 + d.day - 1 - epochDay

/-- The date so many days after the beginning of 1970. -/
def ofDays (days : Int) : Date :=
  let days := days + epochDay
  let cycle := days / 146097
  let inCycle := days % 146097
  -- the last day of the four hundred years would begin a fifth century, and that of four years a
  -- fifth year
  let century := min 3 (inCycle / 36524)
  let inCentury := inCycle - 36524 * century
  let four := inCentury / 1461
  let inFour := inCentury % 1461
  let one := min 3 (inFour / 365)
  let dayOfYear := inFour - 365 * one
  let year := 400 * cycle + 100 * century + 4 * four + one
  let month := (5 * dayOfYear + 2) / 153
  let day := dayOfYear - (153 * month + 2) / 5 + 1
  if month < 10 then ⟨year, (month + 3).toNat, day.toNat⟩
  else ⟨year + 1, (month - 9).toNat, day.toNat⟩

end Date

end SpikeWatch
