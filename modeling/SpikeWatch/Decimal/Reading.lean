import SpikeWatch.Binary.Number
import SpikeWatch.Decimal.Digits

/-!
# Reading a number from text

The text of a number is an optional sign and then either a word (`inf`, `infinity` or `nan`, in any
mixture of cases) or a decimal: digits with at most one point among them, at least one digit in all,
and an optional exponent.  The decimal is rounded once.
-/

set_option autoImplicit false

namespace SpikeWatch

open Decimal

namespace Decimal

/-- A signed exponent: an optional sign and at least one digit, and nothing after them. -/
def readExponent? (cs : List Char) : Option Int :=
  let (negative, ds) := match cs with
    | '-' :: r => (true, r)
    | '+' :: r => (false, r)
    | r => (false, r)
  if ds.isEmpty ∨ ¬ ds.all Char.isDigit then none
  else some (if negative then -(ofDigits ds : Int) else ofDigits ds)

/-- An unsigned decimal, as its digits and the power of ten that they are to be multiplied by. -/
def readDecimal? (cs : List Char) : Option (Nat × Int) :=
  let whole := cs.takeWhile Char.isDigit
  let (fraction, rest) := match cs.dropWhile Char.isDigit with
    | '.' :: r => (r.takeWhile Char.isDigit, r.dropWhile Char.isDigit)
    | r => ([], r)
  if whole.isEmpty && fraction.isEmpty then none
  else
    let digits := ofDigits (whole ++ fraction)
    match rest with
    | [] => some (digits, -fraction.length)
    | c :: r =>
      if c = 'e' ∨ c = 'E' then (readExponent? r).map fun e => (digits, e - fraction.length)
      else none

end Decimal

/-- The number that a text stands for, if it is the text of a number. -/
def Binary.ofText? {F : Format} (cs : List Char) : Option (Binary F) :=
  let (negative, rest) := match cs with
    | '-' :: r => (true, r)
    | '+' :: r => (false, r)
    | r => (false, r)
  let word := String.ofList (rest.map Char.toLower)
  if word = "inf" ∨ word = "infinity" then some (.infinity negative)
  else if word = "nan" then some .nan
  else (readDecimal? rest).map fun (digits, exponent) => .ofDecimal negative digits exponent

end SpikeWatch
