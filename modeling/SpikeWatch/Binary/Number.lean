import SpikeWatch.Binary.Format

/-!
# Floating-point numbers

`Binary F` holds the values of the format `F`: signed codes up to infinity, and one value that is
not a number.  Arithmetic computes the exact result in units and rounds once.

* `ofNat`, `ofInt`, `ofDecimal` round a whole or decimal number to the format.
* `mul`, `div` and `convert` are the operations that the library needs.
* `<` and `≤` compare values: the two zeros are equal, and whatever is not a number compares false.
-/

set_option autoImplicit false

namespace SpikeWatch

/-- A value of a binary floating-point format. -/
inductive Binary (F : Format) where
  /-- Not a number. -/
  | nan
  /-- A number, zero and infinity included: its sign and the code of its magnitude. -/
  | number (negative : Bool) (code : Nat) (code_le : code ≤ F.infinityCode)
  deriving DecidableEq

/-- Numbers of sixty-four bits: thresholds, counts that are compared with them, and shares. -/
abbrev Double := Binary .double

/-- Numbers of thirty-two bits: the measurements that events carry. -/
abbrev Single := Binary .single

namespace Binary

variable {F : Format}

/-! ## Building numbers -/

/-- The number nearest to `num / den` units. -/
def ofUnits (negative : Bool) (num den : Nat) : Binary F :=
  .number negative (F.nearestCode num den) (F.nearestCode_le num den)

/-- Zero, of either sign. -/
def zero (negative : Bool) : Binary F := .number negative 0 (Nat.zero_le _)

/-- Infinity, of either sign. -/
def infinity (negative : Bool) : Binary F := .number negative F.infinityCode (Nat.le_refl _)

instance : Inhabited (Binary F) := ⟨zero false⟩

/-- The number nearest to a natural number. -/
def ofNat (n : Nat) : Binary F := ofUnits false (n * F.one) 1

theorem ofNat_zero : (ofNat 0 : Binary F) = zero false := by
  simp [ofNat, ofUnits, zero, Format.nearestCode, roundHalfEven]

/-- The number nearest to an integer; zero is positive. -/
def ofInt (n : Int) : Binary F := ofUnits (n < 0) (n.natAbs * F.one) 1

/-- The number nearest to `digits * 10 ^ exponent`.  The first two cases only avoid forming a huge
power: a positive decimal there lies beyond the largest number, or below half the smallest. -/
def ofDecimal (negative : Bool) (digits : Nat) (exponent : Int) : Binary F :=
  if digits = 0 then zero negative
  else if (Nat.pow 2 F.exponentBits : Int) ≤ exponent then infinity negative
  else if (digits.log2 + F.unitPlaces + 2 : Nat) ≤ -exponent then zero negative
  else if 0 ≤ exponent then ofUnits negative (digits * Nat.pow 10 exponent.toNat * F.one) 1
  else ofUnits negative (digits * F.one) (Nat.pow 10 (-exponent).toNat)

/-! ## Classes of values -/

/-- A number other than an infinity. -/
def isFinite : Binary F → Bool
  | nan => false
  | number _ code _ => code < F.infinityCode

/-- One of the two zeros. -/
def isZero : Binary F → Bool
  | nan => false
  | number _ code _ => code == 0

/-! ## Arithmetic -/

/-- The product, rounded once.  Zero times infinity is not a number. -/
def mul : Binary F → Binary F → Binary F
  | number s c _, number t d _ =>
    if c = F.infinityCode ∨ d = F.infinityCode then
      if c = 0 ∨ d = 0 then nan else infinity (s != t)
    else ofUnits (s != t) (F.units c * F.units d) F.one
  | _, _ => nan

/-- The quotient, rounded once.  Zero by zero and infinity by infinity are not numbers. -/
def div : Binary F → Binary F → Binary F
  | number s c _, number t d _ =>
    if c = F.infinityCode then
      if d = F.infinityCode then nan else infinity (s != t)
    else if d = F.infinityCode then zero (s != t)
    else if d = 0 then
      if c = 0 then nan else infinity (s != t)
    else ofUnits (s != t) (F.units c * F.one) (F.units d)
  | _, _ => nan

instance : Mul (Binary F) := ⟨mul⟩
instance : Div (Binary F) := ⟨div⟩

/-- The number with the other sign. -/
def neg : Binary F → Binary F
  | nan => nan
  | number s c h => number (!s) c h

instance : Neg (Binary F) := ⟨neg⟩

/-- The value in another format, rounded once. -/
def convert (G : Format) : Binary F → Binary G
  | nan => nan
  | number s c _ =>
    if c = F.infinityCode then infinity s
    else ofUnits s (F.units c * G.one) F.one

/-! ## Comparison -/

/-- The place of a number among all numbers: codes are in the order of magnitudes, and the two
zeros share a place. -/
def rank? : Binary F → Option Int
  | nan => none
  | number false c _ => some c
  | number true c _ => some (-c)

/-- Both are numbers, and the first is less. -/
def lt (x y : Binary F) : Bool :=
  match x.rank?, y.rank? with
  | some i, some j => i < j
  | _, _ => false

/-- Both are numbers, and the first is no greater. -/
def le (x y : Binary F) : Bool :=
  match x.rank?, y.rank? with
  | some i, some j => i ≤ j
  | _, _ => false

instance : LT (Binary F) := ⟨fun x y => lt x y = true⟩
instance : LE (Binary F) := ⟨fun x y => le x y = true⟩
instance (x y : Binary F) : Decidable (x < y) := inferInstanceAs (Decidable (lt x y = true))
instance (x y : Binary F) : Decidable (x ≤ y) := inferInstanceAs (Decidable (le x y = true))

/-! ## Bit patterns -/

/-- The interchange encoding: sign, exponent field, fraction field.  What is not a number has the
leading fraction bit set and no sign. -/
def bits : Binary F → Nat
  | nan => F.infinityCode + Nat.pow 2 (F.fractionBits - 1)
  | number s c _ => (if s then Nat.pow 2 (F.exponentBits + F.fractionBits) else 0) + c

end Binary

end SpikeWatch
