import SpikeWatch.Binary.Number
import SpikeWatch.Decimal.Digits

/-!
# The shortest decimal of a floating-point number

Among all decimals that round to a given number, the ones with the fewest digits are the shortest,
and of those the nearest to the number is chosen.  Everything is exact: on the scale `10 ^ -places`
the number, and the two points half-way to its neighbours, are whole.

`Scientific.ofCode` walks through the powers of ten from the greatest one that does not exceed the
number downwards.  On each grid only the two neighbours of the number can be the nearest point, and
the first grid with a point inside the interval wins.  On the last grid, of step one, the number
itself is a point, so a decimal is always found.
-/

set_option autoImplicit false

namespace SpikeWatch.Decimal

/-- A positive decimal `significand * 10 ^ exponent`. -/
structure Scientific where
  significand : Nat
  exponent : Int
  deriving DecidableEq

/-- Which of two equally near decimals is taken. -/
inductive Tie where
  /-- The one with the even last digit. -/
  | toEven
  /-- The greater one. -/
  | up
  deriving DecidableEq

/-- The numbers that round to the same floating-point number, on a scale on which all three points
are whole. -/
structure Interval where
  low : Nat
  middle : Nat
  high : Nat
  /-- The ends belong to it: a tie goes to the even code. -/
  closed : Bool

namespace Interval

/-- Whether a number rounds to the same floating-point number as the middle does. -/
def contains (i : Interval) (n : Nat) : Bool :=
  if i.closed then decide (i.low ≤ n ∧ n ≤ i.high) else decide (i.low < n ∧ n < i.high)

/-- The multiple of `step` inside the interval that is nearest to its middle, divided by `step`. -/
def nearestMultiple? (i : Interval) (tie : Tie) (step : Nat) : Option Nat :=
  let below := i.middle / step
  let above := below + 1
  match i.contains (below * step), i.contains (above * step) with
  | false, false => none
  | true, false => some below
  | false, true => some above
  | true, true =>
    let toBelow := i.middle - below * step
    let toAbove := above * step - i.middle
    -- both neighbours on the grid lie inside, so the nearer one is taken
    if toBelow < toAbove then some below
    else if toAbove < toBelow then some above
    else match tie with
      | .up => some above
      | .toEven => some (if below % 2 = 0 then below else above)

/-- The first grid, of steps `10 ^ power` downwards, that has a point in the interval. -/
def shortest (i : Interval) (tie : Tie) : Nat → Nat × Nat
  | 0 => (i.middle, 0)
  | power + 1 =>
    match i.nearestMultiple? tie (Nat.pow 10 (power + 1)) with
    | some n => (n, power + 1)
    | none => shortest i tie power

end Interval

/-- Moves zeros at the end of the significand into the exponent, at most `fuel` of them. -/
def stripZeros : Nat → Scientific → Scientific
  | 0, s => s
  | fuel + 1, s =>
    if s.significand % 10 = 0 then stripZeros fuel ⟨s.significand / 10, s.exponent + 1⟩ else s

/-- The interval of a positive finite code, and the number of decimal places of its scale.  The
point half-way between two codes is a whole number of half units, and a half unit has
`unitPlaces + 1` decimal places. -/
def Interval.ofCode (F : Format) (code : Nat) : Interval × Nat :=
  let places := F.unitPlaces + 1
  let scale := Nat.pow 5 places
  let here := F.units code
  (⟨(F.units (code - 1) + here) * scale, 2 * here * scale, (here + F.units (code + 1)) * scale,
    code % 2 == 0⟩, places)

/-- The shortest decimal that rounds to a positive finite code, and the nearest of those. -/
def Scientific.ofCode (F : Format) (tie : Tie) (code : Nat) : Scientific :=
  let (interval, places) := Interval.ofCode F code
  let (n, power) := interval.shortest tie ((digits interval.middle).length - 1)
  stripZeros (digits n).length ⟨n, power - places⟩

end SpikeWatch.Decimal
