/-!
# Decimal digits

Natural numbers as runs of decimal digits, most significant first, and back.
-/

set_option autoImplicit false

namespace SpikeWatch.Decimal

/-- The decimal digits of a number, most significant first; zero has one digit. -/
def digits (n : Nat) : List Char := Nat.toDigits 10 n

/-- The digits of a number, with zeros in front up to the given width. -/
def padded (width n : Nat) : List Char :=
  let ds := digits n
  List.replicate (width - ds.length) '0' ++ ds

/-- The value of one decimal digit. -/
def digitValue (c : Char) : Nat := c.toNat - '0'.toNat

/-- The number that a run of decimal digits stands for. -/
def ofDigits (ds : List Char) : Nat := ds.foldl (fun n c => 10 * n + digitValue c) 0

/-- The digits of an integer, behind a minus sign if it is negative. -/
def signed (n : Int) : List Char := if n < 0 then '-' :: digits n.natAbs else digits n.natAbs

end SpikeWatch.Decimal
