import SpikeWatch.Decimal.Shortest

/-!
# Laying out a number as text

Once the digits are chosen, all else about the text of a number is a matter of convention, and one
`Layout` records it: how far positional writing goes, whether a whole number shows its point, and
which way ties between two shortest decimals go.  `Layout.exchange`, `Layout.plain` and
`Layout.pointedPlain` are the three conventions that the library writes.
-/

set_option autoImplicit false

namespace SpikeWatch.Decimal

/-- The conventions for the text of a number. -/
structure Layout where
  /-- The exponents of the leading digit that are written without an exponent mark; `none` means
  all of them. -/
  positional : Option (Int × Int)
  /-- A whole number in positional writing ends in `.0`. -/
  pointed : Bool
  tie : Tie
  notANumber : String
  infinity : String

namespace Layout

/-- Numbers in exchanged data: positional from the fifth place behind the point to the sixteenth
before it, always told from integers by a point or an exponent.  The format has no word for what is
not finite and puts its word for nothing there. -/
def exchange : Layout where
  positional := some (-5, 15)
  pointed := true
  tie := .toEven
  notANumber := "null"
  infinity := "null"

/-- Numbers in messages: always positional, whole numbers without a point. -/
def plain : Layout where
  positional := none
  pointed := false
  tie := .up
  notANumber := "NaN"
  infinity := "inf"

/-- Numbers in messages that must show that they are not integers. -/
def pointedPlain : Layout := { plain with pointed := true }

end Layout

namespace Scientific

/-- Positional writing: the digits with the point put in, and zeros where digits are missing. -/
def positional (s : Scientific) (pointed : Bool) : List Char :=
  let ds := digits s.significand
  if 0 ≤ s.exponent then
    ds ++ List.replicate s.exponent.toNat '0' ++ if pointed then ['.', '0'] else []
  else
    let places := (-s.exponent).toNat
    if places < ds.length then
      ds.take (ds.length - places) ++ '.' :: ds.drop (ds.length - places)
    else '0' :: '.' :: List.replicate (places - ds.length) '0' ++ ds

/-- The exponent of the leading digit. -/
def leadingExponent (s : Scientific) : Int :=
  s.exponent + ((digits s.significand).length - 1 : Nat)

/-- Writing with an exponent mark: one digit before the point, and the exponent with its sign. -/
def marked (s : Scientific) : List Char :=
  let mantissa := match digits s.significand with
    | [] => []
    | [d] => [d]
    | d :: ds => d :: '.' :: ds
  let e := s.leadingExponent
  mantissa ++ 'e' :: (if e < 0 then '-' else '+') :: digits e.natAbs

/-- The text of a positive decimal: positional as far as the conventions go, else with an exponent
mark. -/
def layOut (s : Scientific) (layout : Layout) : List Char :=
  match layout.positional with
  | none => s.positional layout.pointed
  | some (first, last) =>
    if first ≤ s.leadingExponent ∧ s.leadingExponent ≤ last then s.positional layout.pointed
    else s.marked

end Scientific

end Decimal

open Decimal in
/-- The text of a number under the given conventions. -/
def Binary.layOut {F : Format} (layout : Layout) : Binary F → List Char
  | .nan => layout.notANumber.toList
  | .number negative code _ =>
    let magnitude :=
      if code = 0 then (if layout.pointed then ['0', '.', '0'] else ['0'])
      else if code = F.infinityCode then layout.infinity.toList
      else (Scientific.ofCode F layout.tie code).layOut layout
    if negative ∧ (code < F.infinityCode ∨ layout.positional.isNone) then '-' :: magnitude
    else magnitude

end SpikeWatch
