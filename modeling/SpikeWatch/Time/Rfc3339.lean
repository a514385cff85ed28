import SpikeWatch.Time.Instant
import SpikeWatch.Time.Calendar
import SpikeWatch.Decimal.Digits

/-!
# Instants as text

Each instant has a moment, a date and a time of day in universal time.  Moments are written as
RFC 3339 has it: the fraction of the second has as few groups of three digits as show it whole, and
a year that does not have four digits carries a sign.  `Moment.ofText?` reads a moment back, and
`Instant.ofText?` the instant.
-/

set_option autoImplicit false

namespace SpikeWatch

open Decimal

/-- A date and a time of day in universal time. -/
structure Moment where
  date : Date
  hour : Nat
  minute : Nat
  second : Nat
  /-- The nanoseconds since the last whole second. -/
  nanos : Nat
  deriving DecidableEq

namespace Moment

/-- The calendar has the date, and the day has the time. -/
structure IsValid (m : Moment) : Prop where
  date : m.date.IsValid
  hour : m.hour < 24
  minute : m.minute < 60
  second : m.second < 60
  nanos : m.nanos < 1000000000

instance (m : Moment) : Decidable m.IsValid :=
  decidable_of_iff (m.date.IsValid ∧ m.hour < 24 ∧ m.minute < 60 ∧ m.second < 60 ∧
    m.nanos < 1000000000) ⟨fun ⟨h₁, h₂, h₃, h₄, h₅⟩ => ⟨h₁, h₂, h₃, h₄, h₅⟩,
      fun h => ⟨h.date, h.hour, h.minute, h.second, h.nanos⟩⟩

/-! ## Writing -/

/-- A year: four digits from 0 to 9999, else a sign and at least four digits. -/
def yearText (year : Int) : List Char :=
  if 0 ≤ year ∧ year ≤ 9999 then padded 4 year.natAbs
  else (if year < 0 then '-' else '+') :: padded 4 year.natAbs

/-- The fraction of a second, in none, three, six or nine digits. -/
def fractionText (nanos : Nat) : List Char :=
  if nanos = 0 then []
  else if nanos % 1000000 = 0 then '.' :: padded 3 (nanos / 1000000)
  else if nanos % 1000 = 0 then '.' :: padded 6 (nanos / 1000)
  else '.' :: padded 9 nanos

/-- The characters of a moment: date, time of day, and the distance from universal time, which is
always none. -/
def chars (m : Moment) : List Char :=
  yearText m.date.year ++ '-' :: padded 2 m.date.month ++ '-' :: padded 2 m.date.day ++
    'T' :: padded 2 m.hour ++ ':' :: padded 2 m.minute ++ ':' :: padded 2 m.second ++
    fractionText m.nanos ++ ['+', '0', '0', ':', '0', '0']

/-- A moment as text. -/
def text (m : Moment) : String := String.ofList m.chars

/-! ## Reading -/

/-- A number of exactly `width` digits, and what follows it. -/
def readNumber? (width : Nat) (cs : List Char) : Option (Nat × List Char) :=
  let ds := cs.take width
  if ds.length = width ∧ ds.all Char.isDigit then some (ofDigits ds, cs.drop width) else none

/-- The number of all digits that come first, at least `width` of them, and what follows it. -/
def readDigits? (width : Nat) (cs : List Char) : Option (Nat × List Char) :=
  let ds := cs.takeWhile Char.isDigit
  if ds.length < width then none else some (ofDigits ds, cs.drop ds.length)

/-- A year: a sign, if there is one, and four digits or more. -/
def readYear? : List Char → Option (Int × List Char)
  | '-' :: r => (readDigits? 4 r).map fun (year, r) => (-(year : Int), r)
  | '+' :: r => (readDigits? 4 r).map fun (year, r) => ((year : Int), r)
  | r => (readDigits? 4 r).map fun (year, r) => ((year : Int), r)

/-- The nanoseconds of a fraction of up to nine digits, which may be absent. -/
def readFraction? : List Char → Option (Nat × List Char)
  | '.' :: r =>
    let ds := r.takeWhile Char.isDigit
    if ds.isEmpty ∨ 9 < ds.length then none
    else some (ofDigits ds * Nat.pow 10 (9 - ds.length), r.drop ds.length)
  | r => some (0, r)

/-- What follows a given character. -/
def expect? (c : Char) : List Char → Option (List Char)
  | d :: r => if d = c then some r else none
  | [] => none

/-- The moment that characters stand for.  It is looked at whether each part has its digits, but not
whether the calendar has the date. -/
def ofChars? (cs : List Char) : Option Moment := do
  let (year, cs) ← readYear? cs
  let cs ← expect? '-' cs
  let (month, cs) ← readNumber? 2 cs
  let cs ← expect? '-' cs
  let (day, cs) ← readNumber? 2 cs
  let cs ← expect? 'T' cs
  let (hour, cs) ← readNumber? 2 cs
  let cs ← expect? ':' cs
  let (minute, cs) ← readNumber? 2 cs
  let cs ← expect? ':' cs
  let (second, cs) ← readNumber? 2 cs
  let (nanos, cs) ← readFraction? cs
  if cs = ['+', '0', '0', ':', '0', '0'] then some ⟨⟨year, month, day⟩, hour, minute, second, nanos⟩
  else none

/-- The moment that a text stands for. -/
def ofText? (s : String) : Option Moment := ofChars? s.toList

/-! ## The instant of a moment -/

/-- The instant of a moment, if there is such a moment and it lies in the range of instants. -/
def instant? (m : Moment) : Option Instant :=
  if m.IsValid then
    Instant.ofNanos? ((m.date.toDays * 86400 + m.hour * 3600 + m.minute * 60 + m.second) *
      1000000000 + m.nanos)
  else none

end Moment

namespace Instant

/-- The date and time of day of an instant. -/
def moment (t : Instant) : Moment :=
  let time := (t.seconds % 86400).toNat
  { date := Date.ofDays (t.seconds / 86400)
    hour := time / 3600
    minute := time / 60 % 60
    second := time % 60
    nanos := t.subsecond }

/-- The instant as date and time of day in universal time. -/
def text (t : Instant) : String := t.moment.text

/-- The instant of a date and time of day in universal time. -/
def ofText? (s : String) : Option Instant := (Moment.ofText? s).bind Moment.instant?

end Instant

end SpikeWatch
