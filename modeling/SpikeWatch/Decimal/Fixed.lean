import SpikeWatch.Decimal.Layout

/-!
# Numbers with a fixed number of places

Rounds the exact binary value, a half going to the even digit.
-/

set_option autoImplicit false

namespace SpikeWatch

open Decimal

/-- The text of a number with the given number of digits behind the point; with none of them the
point is left out as well. -/
def Binary.fixed {F : Format} (places : Nat) : Binary F → List Char
  | .nan => Layout.plain.notANumber.toList
  | .number negative code _ =>
    let magnitude :=
      if code = F.infinityCode then Layout.plain.infinity.toList
      else
        let ds := padded (places + 1) (roundHalfEven (F.units code * Nat.pow 10 places) F.one)
        if places = 0 then ds
        else ds.take (ds.length - places) ++ '.' :: ds.drop (ds.length - places)
    if negative then '-' :: magnitude else magnitude

end SpikeWatch
