import SpikeWatch.Time.Calendar
import Mathlib.Tactic.IntervalCases

/-!
# Days and dates

The calendar is gone through day by day: a month has so many days, a year twelve months, and only
some years have a day more in February.  Counting days by a formula comes to the same.

* `Date.next` is the day after a date, and `IsDay n d` says that going through the calendar from the
  beginning of 1970 on takes `n` days to `d`.
* `marchYear`, `marchDay` and `ofMarch`: dates by years that begin in March, and back.
* `isDay_iff`: the formula of `toDays` counts those days, and `isDay_ofDays`: `ofDays` finds the
  date for each number of them.
-/

set_option autoImplicit false

namespace SpikeWatch.Date

/-! ## From day to day -/

/-- The day after a date. -/
def next (d : Date) : Date :=
  if d.day < daysInMonth d.year d.month then ⟨d.year, d.month, d.day + 1⟩
  else if d.month < 12 then ⟨d.year, d.month + 1, 1⟩
  else ⟨d.year + 1, 1, 1⟩

/-- The calendar, gone through from the beginning of 1970 on, comes to a date after so many days; a
date before that is so many days back. -/
inductive IsDay : Int → Date → Prop
  | epoch : IsDay 0 ⟨1970, 1, 1⟩
  | next {n : Int} {d : Date} : IsDay n d → IsDay (n + 1) d.next
  | previous {n : Int} {d : Date} : d.IsValid → IsDay (n + 1) d.next → IsDay n d

/-- The days that a year has in February beyond twenty-eight. -/
def leapDays (year : Int) : Int := if isLeapYear year then 1 else 0

variable {d : Date} {year day n : Int}

/-- The years with a day more: each fourth, but of those that end a century only each fourth
again. -/
theorem isLeapYear_iff :
    isLeapYear year = true ↔ year % 4 = 0 ∧ (year % 100 ≠ 0 ∨ year % 400 = 0) := by
  simp [isLeapYear]

theorem leapDays_eq_one_or_zero (year : Int) :
    leapDays year = 1 ∧ year % 4 = 0 ∧ (year % 100 ≠ 0 ∨ year % 400 = 0) ∨
      leapDays year = 0 ∧ ¬ (year % 4 = 0 ∧ (year % 100 ≠ 0 ∨ year % 400 = 0)) := by
  rw [← isLeapYear_iff, leapDays]
  split <;> simp_all

/-- February is the only month whose length depends on the year. -/
theorem daysInMonth_two (year : Int) : (daysInMonth year 2 : Int) = 28 + leapDays year := by
  rw [daysInMonth, leapDays, if_pos rfl]
  split <;> rfl

theorem one_le_daysInMonth (year : Int) (month : Nat) : 1 ≤ daysInMonth year month := by
  rw [daysInMonth]
  split_ifs <;> decide

theorem daysInMonth_le (year : Int) (month : Nat) : daysInMonth year month ≤ 31 := by
  rw [daysInMonth]
  split_ifs <;> decide

/-! ## Years that begin in March -/

/-- Days from the first of March of the year zero to that of another year. -/
def marchStart (year : Int) : Int := 365 * year + year / 4 - year / 100 + year / 400

/-- Days from the first of March to the beginning of a month, months counted from March on. -/
def monthStart (month : Int) : Int := (153 * month + 2) / 5

/-- The year that a date lies in, if years begin in March. -/
def marchYear (d : Date) : Int := if d.month ≤ 2 then d.year - 1 else d.year

/-- The months from March before a date to the month of the date. -/
def marchMonth (d : Date) : Int := (d.month + 9) % 12

/-- The days from the first of March before a date to the date. -/
def marchDay (d : Date) : Int := monthStart d.marchMonth + d.day - 1

/-- A year that begins in March has the day. -/
def InMarchYear (year day : Int) : Prop := 0 ≤ day ∧ day < 365 + leapDays (year + 1)

/-- The date of a day of a year that begins in March. -/
def ofMarch (year day : Int) : Date :=
  let month := (5 * day + 2) / 153
  let day := day - monthStart month + 1
  if month < 10 then ⟨year, (month + 3).toNat, day.toNat⟩
  else ⟨year + 1, (month - 9).toNat, day.toNat⟩

/-- A year that begins in March ends with the February of the next one, and is as long as this makes
it. -/
theorem marchStart_add_one (year : Int) :
    marchStart (year + 1) = marchStart year + 365 + leapDays (year + 1) := by
  have := leapDays_eq_one_or_zero (year + 1)
  simp only [marchStart]
  omega

theorem marchStart_mono {year' : Int} (h : year ≤ year') : marchStart year ≤ marchStart year' := by
  simp only [marchStart]
  omega

/-- All other months have the length that the formula for their starts gives. -/
theorem daysInMonth_eq (year : Int) {month : Nat} (hfirst : 1 ≤ month) (hlast : month ≤ 12)
    (h : month ≠ 2) : (daysInMonth year month : Int) =
      monthStart ((month + 9) % 12 + 1) - monthStart ((month + 9) % 12) := by
  interval_cases month <;> first | rfl | exact absurd rfl h

/-- Counting days by the formula, in terms of years that begin in March. -/
theorem toDays_eq (d : Date) : d.toDays = marchStart d.marchYear + d.marchDay - epochDay := by
  simp only [toDays, marchStart, marchYear, marchDay, marchMonth, monthStart]
  omega

/-- A day lies in its month, and only February, which is the last one, ends with the year. -/
theorem le_daysInMonth_iff (hfirst : 1 ≤ d.month) (hlast : d.month ≤ 12) :
    d.day ≤ daysInMonth d.year d.month ↔
      d.marchDay < monthStart (d.marchMonth + 1) ∧
        d.marchDay < 365 + leapDays (d.marchYear + 1) := by
  have hleap := leapDays_eq_one_or_zero (d.marchYear + 1)
  simp only [marchDay, marchMonth, monthStart]
  by_cases hfebruary : d.month = 2
  · have hyear : d.marchYear + 1 = d.year := by
      rw [marchYear, if_pos (by omega), Int.sub_add_cancel]
    have hdays := daysInMonth_two d.year
    rw [hfebruary]
    rw [hyear] at hleap ⊢
    omega
  · have hdays := daysInMonth_eq d.year hfirst hlast hfebruary
    simp only [monthStart] at hdays
    omega

/-- January and February belong to the year before. -/
theorem marchMonth_marchYear (hfirst : 1 ≤ d.month) (hlast : d.month ≤ 12) :
    d.marchMonth = d.month + 9 ∧ 10 ≤ d.marchMonth ∧ d.marchYear = d.year - 1 ∨
      d.marchMonth = d.month - 3 ∧ d.marchMonth < 10 ∧ d.marchYear = d.year := by
  simp only [marchMonth, marchYear]
  split <;> omega

/-- A date is found again from its year and its day in March years. -/
theorem ofMarch_marchYear_marchDay (h : d.IsValid) : ofMarch d.marchYear d.marchDay = d := by
  obtain ⟨hfirst, hlast, hday, hle⟩ := h
  obtain ⟨hend, -⟩ := (le_daysInMonth_iff hfirst hlast).1 hle
  have hmonth : (5 * d.marchDay + 2) / 153 = d.marchMonth := by
    simp only [marchDay, monthStart] at hend ⊢
    omega
  have hday : d.marchDay - monthStart d.marchMonth + 1 = d.day := by
    rw [marchDay]
    omega
  rw [ofMarch]
  simp only [hmonth, hday]
  rcases marchMonth_marchYear hfirst hlast with ⟨hmonth, hlate, hyear⟩ | ⟨hmonth, hearly, hyear⟩
  · rw [if_neg (by omega), hmonth, hyear]
    simp only [Int.sub_add_cancel, Int.add_sub_cancel, Int.toNat_natCast]
  · rw [if_pos hearly, hmonth, hyear]
    simp only [Int.sub_add_cancel, Int.toNat_natCast]

/-- The day of a valid date is one of its year. -/
theorem inMarchYear_of_isValid (h : d.IsValid) : InMarchYear d.marchYear d.marchDay := by
  obtain ⟨hfirst, hlast, hday, hle⟩ := h
  refine ⟨?_, ((le_daysInMonth_iff hfirst hlast).1 hle).2⟩
  simp only [marchDay, marchMonth, monthStart]
  omega

/-- A day of a year that begins in March has a date. -/
theorem ofMarch_spec (h : InMarchYear year day) :
    (ofMarch year day).IsValid ∧ (ofMarch year day).marchYear = year ∧
      (ofMarch year day).marchDay = day := by
  obtain ⟨hnonneg, hlt⟩ := h
  have hleap := leapDays_eq_one_or_zero (year + 1)
  generalize hd : ofMarch year day = d
  rw [ofMarch] at hd
  -- The month is found from the day by a division: any five months in a row have 153 days, if
  -- February is not among them.
  obtain ⟨hmonth, hfirst, hlast, hyear⟩ : d.marchMonth = (5 * day + 2) / 153 ∧
      1 ≤ d.month ∧ d.month ≤ 12 ∧ d.marchYear = year := by
    subst hd
    simp only [marchMonth, marchYear]
    split <;> simp <;> omega
  have hdayOfMonth : (d.day : Int) = day - monthStart d.marchMonth + 1 ∧ 1 ≤ d.day := by
    rw [hmonth]
    subst hd
    simp only [monthStart]
    split <;> simp <;> omega
  have hday : d.marchDay = day := by
    rw [marchDay]
    omega
  refine ⟨⟨hfirst, hlast, hdayOfMonth.2, (le_daysInMonth_iff hfirst hlast).2 ?_⟩, hyear, hday⟩
  rw [hday, hyear, hmonth, monthStart]
  omega

/-- An earlier year ends before a later one begins. -/
theorem marchStart_add_lt {year' day' : Int} (h : InMarchYear year day)
    (h' : InMarchYear year' day') (hlt : year < year') :
    marchStart year + day < marchStart year' + day' := by
  have hnext := marchStart_add_one year
  have hmono := marchStart_mono (show year + 1 ≤ year' from hlt)
  obtain ⟨-, hday⟩ := h
  obtain ⟨hday', -⟩ := h'
  omega

/-- A number of days belongs to one year and one day in it. -/
theorem marchStart_add_inj {year' day' : Int} (h : InMarchYear year day)
    (h' : InMarchYear year' day') (heq : marchStart year + day = marchStart year' + day') :
    year = year' ∧ day = day' := by
  rcases lt_trichotomy year year' with hlt | rfl | hgt
  · exact absurd heq (marchStart_add_lt h h' hlt).ne
  · exact ⟨rfl, Int.add_left_cancel heq⟩
  · exact absurd heq.symm (marchStart_add_lt h' h hgt).ne

/-! ## Counting days -/

section Cycles

variable {cycle century four one : Int}

/-- How the days of four hundred years are made up, of centuries, of groups of four years, and of
years. -/
theorem marchStart_cycles (hcentury : 0 ≤ century ∧ century ≤ 3) (hfour : 0 ≤ four ∧ four ≤ 24)
    (hone : 0 ≤ one ∧ one ≤ 3) :
    marchStart (400 * cycle + 100 * century + 4 * four + one) =
      146097 * cycle + 36524 * century + 1461 * four + 365 * one := by
  simp only [marchStart]
  omega

/-- The last year of four is a leap year, unless it is the last one of a hundred years that are not
the last of four hundred. -/
theorem leapDays_cycles (hfour : 0 ≤ four ∧ four ≤ 24) (h : four = 24 → century = 3) :
    leapDays (400 * cycle + 100 * century + 4 * four + 3 + 1) = 1 := by
  have := leapDays_eq_one_or_zero (400 * cycle + 100 * century + 4 * four + 3 + 1)
  omega

end Cycles

/-- The date of a number of days is found in the years that begin in March. -/
theorem exists_ofDays_eq (days : Int) : ∃ year day, InMarchYear year day ∧
    marchStart year + day = days + epochDay ∧ ofDays days = ofMarch year day := by
  -- Four hundred years repeat; the last century of them, and the last year of four, may be a day
  -- longer than the others, which is what the minima are for.
  let cycle := (days + epochDay) / 146097
  let inCycle := (days + epochDay) % 146097
  let century := min 3 (inCycle / 36524)
  let inCentury := inCycle - 36524 * century
  let four := inCentury / 1461
  let inFour := inCentury % 1461
  let one := min 3 (inFour / 365)
  have hcentury : 0 ≤ century ∧ century ≤ 3 := by omega
  have hinCentury : 0 ≤ inCentury ∧ (inCentury < 36524 ∨ inCentury = 36524 ∧ century = 3) := by
    omega
  have hfour : 0 ≤ four ∧ four ≤ 24 := by omega
  have hone : 0 ≤ one ∧ one ≤ 3 := by omega
  refine ⟨400 * cycle + 100 * century + 4 * four + one, inFour - 365 * one, ⟨?_, ?_⟩, ?_, rfl⟩
  · omega
  · have hleap := leapDays_eq_one_or_zero (400 * cycle + 100 * century + 4 * four + one + 1)
    by_cases hlast : inFour = 1460
    · have hthree : one = 3 := by omega
      rw [hthree, leapDays_cycles hfour (by omega)]
      omega
    · omega
  · rw [marchStart_cycles hcentury hfour hone]
    omega

/-- The date for a number of days is a valid one. -/
theorem isValid_ofDays (days : Int) : (ofDays days).IsValid := by
  obtain ⟨year, day, hin, -, heq⟩ := exists_ofDays_eq days
  exact heq ▸ (ofMarch_spec hin).1

/-- The date found for a number of days is so many days away. -/
theorem toDays_ofDays (days : Int) : (ofDays days).toDays = days := by
  obtain ⟨year, day, hin, hsum, heq⟩ := exists_ofDays_eq days
  obtain ⟨-, hyear, hday⟩ := ofMarch_spec hin
  rw [heq, toDays_eq, hyear, hday]
  omega

/-- No other date of the calendar is so many days away. -/
theorem ofDays_toDays (h : d.IsValid) : ofDays d.toDays = d := by
  obtain ⟨year, day, hin, hsum, heq⟩ := exists_ofDays_eq d.toDays
  obtain ⟨rfl, rfl⟩ := marchStart_add_inj hin (inMarchYear_of_isValid h) (by
    rw [hsum, toDays_eq]
    omega)
  rw [heq, ofMarch_marchYear_marchDay h]

example : toDays ⟨2000, 2, 29⟩ = 11016 ∧ ofDays 11016 = ⟨2000, 2, 29⟩ := by decide

/-- **A number of days is that of one date.** -/
theorem toDays_inj {e : Date} (hd : d.IsValid) (he : e.IsValid) :
    d.toDays = e.toDays ↔ d = e :=
  ⟨fun h => by rw [← ofDays_toDays hd, h, ofDays_toDays he], congrArg toDays⟩

theorem isValid_next (h : d.IsValid) : d.next.IsValid := by
  obtain ⟨hfirst, hlast, hday, hle⟩ := h
  rw [next]
  split
  · next hinMonth => exact ⟨hfirst, hlast, Nat.le_add_left 1 _, hinMonth⟩
  · split
    · next hinYear => exact ⟨Nat.le_add_left 1 _, hinYear, Nat.le_refl 1, one_le_daysInMonth _ _⟩
    · exact ⟨Nat.le_refl 1, Nat.le_add_left 1 11, Nat.le_refl 1, one_le_daysInMonth _ _⟩

/-- Going on by a day adds one to the number of days. -/
theorem toDays_next (h : d.IsValid) : d.next.toDays = d.toDays + 1 := by
  obtain ⟨hfirst, hlast, hday, hle⟩ := h
  rw [next]
  split
  · simp only [toDays]
    omega
  · next hend =>
    have hlastDay : d.day = daysInMonth d.year d.month := by omega
    -- February is the last month of its year here, and the only one whose length depends on it.
    by_cases hfebruary : d.month = 2
    · have hdays := daysInMonth_two d.year
      have hleap := leapDays_eq_one_or_zero d.year
      rw [if_pos (by omega)]
      rw [hfebruary] at hlastDay
      simp only [toDays, hfebruary]
      omega
    · have hdays := daysInMonth_eq d.year hfirst hlast hfebruary
      simp only [monthStart] at hdays
      split
      · next hinYear =>
        have hshift : ((d.month + 1 : Nat) + 9 : Int) % 12 = (d.month + 9) % 12 + 1 := by omega
        simp only [toDays, hshift]
        omega
      · simp only [toDays]
        omega

/-- The next day has the next number. -/
theorem next_ofDays (days : Int) : (ofDays days).next = ofDays (days + 1) := by
  have hvalid := isValid_ofDays days
  refine (toDays_inj (isValid_next hvalid) (isValid_ofDays _)).1 ?_
  rw [toDays_next hvalid, toDays_ofDays, toDays_ofDays]

/-- **Each number of days has its date.** -/
theorem isDay_ofDays (days : Int) : IsDay days (ofDays days) := by
  induction days using Int.induction_on with
  | zero => exact .epoch
  | succ i ih => exact next_ofDays i ▸ ih.next
  | pred i ih =>
    refine .previous (isValid_ofDays _) ?_
    rwa [next_ofDays, Int.sub_add_cancel]

/-- **The formula counts the days of the calendar.** -/
theorem isDay_iff : IsDay n d ↔ d.IsValid ∧ d.toDays = n := by
  refine ⟨fun h => ?_, fun ⟨hvalid, hdays⟩ => ?_⟩
  · induction h with
    | epoch => decide
    | next h ih =>
      obtain ⟨hvalid, rfl⟩ := ih
      exact ⟨isValid_next hvalid, toDays_next hvalid⟩
    | previous hvalid h ih =>
      have hnext := toDays_next hvalid
      exact ⟨hvalid, by omega⟩
  · rw [← ofDays_toDays hvalid, hdays]
    exact isDay_ofDays n

end SpikeWatch.Date
