/-!
# Binary floating-point formats

A format is given by the widths of its fraction and exponent fields.  Its non-negative values are
numbered in increasing order by a *code*: the exponent field followed by the fraction field, read
as one natural number.

* `Format.units` is the value of a code, counted in the format's smallest positive number
  `2 ^ -unitPlaces`.  In these units every finite value is a natural number, so all rounding is
  exact arithmetic on naturals.
* `roundHalfEven` rounds a quotient to the nearest natural number, a half going to the even one.
* `Format.nearestCode` rounds a quotient of units to the nearest code, and `infinityCode` from
  half-way above the largest finite value on.
-/

set_option autoImplicit false

namespace SpikeWatch

/-- A binary floating-point format, by the widths of its fields. -/
structure Format where
  fractionBits : Nat
  exponentBits : Nat
  /-- With at least one fraction bit there is room for a value that is not a number. -/
  fractionBits_pos : 0 < fractionBits := by decide
  deriving DecidableEq

namespace Format

/-- Thirty-two bits, twenty-three of them for the fraction. -/
def single : Format where
  fractionBits := 23
  exponentBits := 8

/-- Sixty-four bits, fifty-two of them for the fraction. -/
def double : Format where
  fractionBits := 52
  exponentBits := 11

variable (F : Format)

/-- The smallest positive number is `2 ^ -unitPlaces`. -/
def unitPlaces : Nat := Nat.pow 2 (F.exponentBits - 1) - 2 + F.fractionBits

/-- The number of units in one. -/
def one : Nat := Nat.pow 2 F.unitPlaces

/-- The code above all finite codes: the exponent field is all ones, the fraction zero. -/
def infinityCode : Nat := (Nat.pow 2 F.exponentBits - 1) * Nat.pow 2 F.fractionBits

/-- The value of a code in units.  Exponent field zero means no hidden bit; each further exponent
doubles the distance between neighbours, save that the first two have the same. -/
def units (code : Nat) : Nat :=
  let exponent := code / Nat.pow 2 F.fractionBits
  let fraction := code % Nat.pow 2 F.fractionBits
  if exponent = 0 then fraction
  else (Nat.pow 2 F.fractionBits + fraction) * Nat.pow 2 (exponent - 1)

end Format

/-- The natural number nearest to `num / den`; of two equally near ones the even one. -/
def roundHalfEven (num den : Nat) : Nat :=
  let quotient := num / den
  let rest := 2 * (num % den)
  if rest < den then quotient
  else if den < rest then quotient + 1
  else if quotient % 2 = 0 then quotient else quotient + 1

namespace Format

/-- The code nearest to `num / den` units; of two equally near ones the even one.  The quotient is
rounded with as many bits as the fraction has room for, and a carry out of the fraction moves the
code into the next exponent by itself. -/
def nearestCode (F : Format) (num den : Nat) : Nat :=
  let shift := (num / den).log2 - F.fractionBits
  min F.infinityCode
    (shift * Nat.pow 2 F.fractionBits + roundHalfEven num (den * Nat.pow 2 shift))

theorem nearestCode_le (F : Format) (num den : Nat) : F.nearestCode num den ≤ F.infinityCode :=
  Nat.min_le_left _ _

end Format

/-! ## Roundings that can be told at sight -/

/-- A quotient without a rest is its own rounding. -/
theorem roundHalfEven_mul {den : Nat} (n : Nat) (h : 0 < den) :
    roundHalfEven (n * den) den = n := by
  simp [roundHalfEven, Nat.mul_div_cancel _ h, h]

end SpikeWatch
