import SpikeWatch.Proofs.Binary.Neighbours

/-!
# Shares in percent

A share of whole numbers is rounded four times: both numbers, their quotient, and its product with
a hundred.  Each rounding keeps the order, so the whole share does, and two cases of it are exact.

* `Binary.percent` is the share, for whole numbers that sixty-four bits have room for.
* It grows with the part (`percent_mono`), is nothing of nothing (`percent_zero`) and a hundred of
  the whole (`percent_self`).
* However small a part is, its share is not rounded to zero (`zero_lt_percent`).
-/

set_option autoImplicit false

namespace SpikeWatch

namespace Format

variable (F : Format)

/-! ## Small quotients -/

theorem sumNext_zero : F.sumNext 0 = 1 := by
  have hone : 1 < 2 ^ F.fractionBits := Nat.one_lt_two_pow F.fractionBits_pos.ne'
  simp [sumNext, units, Nat.pow_eq, Nat.div_eq_of_lt hone, Nat.mod_eq_of_lt hone]

theorem units_zero : F.units 0 = 0 := by simp [units]

theorem nearestCode_zero (den : Nat) : F.nearestCode 0 den = 0 := by
  simp [nearestCode, roundHalfEven]

/-- Above half the smallest positive number, nothing is rounded to zero. -/
theorem nearestCode_pos {num den : Nat} (hden : 0 < den) (h : den < 2 * num)
    (hinfinity : 0 < F.infinityCode) : 0 < F.nearestCode num den := by
  refine F.lt_nearestCode_of_le hden hinfinity ?_ fun heq => ?_
  · rw [sumNext_zero]
    omega
  · rw [sumNext_zero] at heq
    omega

theorem units_pos {code : Nat} (h : 0 < code) : 0 < F.units code :=
  Nat.zero_lt_of_lt (F.units_strictMono h)

/-! ## Whole numbers and their quotients -/

/-- The code of a whole number. -/
def wholeCode (n : Nat) : Nat := F.nearestCode (n * F.one) 1

/-- The code of the quotient of two whole numbers. -/
def quotientCode (m n : Nat) : Nat :=
  F.nearestCode (F.units (F.wholeCode m) * F.one) (F.units (F.wholeCode n))

variable {m n : Nat}

/-- Rounding whole numbers keeps their order. -/
theorem wholeCode_mono (h : m ≤ n) : F.wholeCode m ≤ F.wholeCode n :=
  F.nearestCode_mono Nat.one_pos (Nat.mul_le_mul_right _ h)

/-- What is not zero is not rounded to zero. -/
theorem wholeCode_pos (h : 0 < n) (hinfinity : 0 < F.infinityCode) : 0 < F.wholeCode n := by
  have hone := Nat.mul_pos h F.one_pos
  exact F.nearestCode_pos Nat.one_pos (by omega) hinfinity

/-- A number by itself is one, whatever it is rounded to. -/
theorem quotientCode_self (h : 0 < F.wholeCode n) : F.quotientCode n n = F.wholeCode 1 := by
  have hquotient := F.nearestCode_mul_right F.one 1 (F.units_pos h)
  rw [Nat.one_mul, Nat.mul_comm] at hquotient
  rw [quotientCode, hquotient, wholeCode, Nat.one_mul]

end Format

namespace Binary

/-! ## Shares -/

/-- How many percent a part is of a whole. -/
def percent (part whole : Nat) : Double := ofNat part / ofNat whole * ofNat 100

variable {m m' n : Nat}

/-- Numbers of sixty-four bits are far from infinity. -/
theorem wholeCode_lt (h : n ≤ 2 ^ 64) : Format.double.wholeCode n < Format.double.infinityCode ∧
    Format.double.units (Format.double.wholeCode n) ≤ 2 ^ (64 + Format.double.unitPlaces) :=
  nearestCode_ofNat_le h (by decide)

theorem wholeCode_double_pos (h : 0 < n) : 0 < Format.double.wholeCode n :=
  Format.double.wholeCode_pos h (by decide)

theorem units_wholeCode_one :
    Format.double.units (Format.double.wholeCode 1) = Format.double.one := by
  decide +kernel

theorem wholeCode_hundred_lt : Format.double.wholeCode 100 < Format.double.infinityCode := by
  decide +kernel

/-- What is at least one stays so. -/
theorem one_le_units_wholeCode (h : 0 < n) (hn : n ≤ 2 ^ 64) :
    Format.double.one ≤ Format.double.units (Format.double.wholeCode n) :=
  units_wholeCode_one.ge.trans <|
    Format.double.units_mono (Format.double.wholeCode_mono h) (wholeCode_lt hn).1.le

/-- A quotient of two counts is finite. -/
theorem quotientCode_lt (hm : m ≤ 2 ^ 64) (hpos : 0 < n) (hn : n ≤ 2 ^ 64) :
    Format.double.quotientCode m n < Format.double.infinityCode := by
  have hplaces : 64 + Format.double.unitPlaces = 52 + 1086 := rfl
  have hunits := Nat.mul_le_mul (wholeCode_lt hm).2 (one_le_units_wholeCode hpos hn)
  rw [hplaces] at hunits
  exact (nearestCode_double_le (Format.double.units_pos (wholeCode_double_pos hpos))
    (by decide : 1086 ≤ 2045) hunits).1

/-- A quotient of two counts is not zero, unless the first count is. -/
theorem quotientCode_pos (h : 0 < m) (hm : m ≤ 2 ^ 64) (hpos : 0 < n) (hn : n ≤ 2 ^ 64) :
    0 < Format.double.quotientCode m n := by
  have hplaces : 64 + Format.double.unitPlaces ≤
      Format.double.unitPlaces + Format.double.unitPlaces := by decide
  have hunits : Format.double.units (Format.double.wholeCode n) ≤
      Format.double.units (Format.double.wholeCode m) * Format.double.one := by
    calc Format.double.units (Format.double.wholeCode n)
        ≤ 2 ^ (64 + Format.double.unitPlaces) := (wholeCode_lt hn).2
      _ ≤ 2 ^ (Format.double.unitPlaces + Format.double.unitPlaces) :=
        Nat.pow_le_pow_right (by decide) hplaces
      _ = Format.double.one * Format.double.one := by rw [Nat.pow_add, Format.one_eq]
      _ ≤ _ := Nat.mul_le_mul_right _ (one_le_units_wholeCode h hm)
  have hden := Format.double.units_pos (wholeCode_double_pos hpos)
  exact Format.double.nearestCode_pos hden (by omega) (by decide)

/-- The code of a share, which takes one more rounding than the quotient. -/
def percentCode (m n : Nat) : Nat :=
  Format.double.nearestCode (Format.double.units (Format.double.quotientCode m n) *
    Format.double.units (Format.double.wholeCode 100)) Format.double.one

/-- The code of a percentage is at most that of infinity. -/
theorem percentCode_le (m n : Nat) : percentCode m n ≤ Format.double.infinityCode :=
  Format.double.nearestCode_le _ _

/-- A percentage as it is computed: a quotient of two rounded counts, and its product with a
hundred. -/
theorem percent_eq (hm : m ≤ 2 ^ 64) (hpos : 0 < n) (hn : n ≤ 2 ^ 64) :
    percent m n = number false (percentCode m n) (percentCode_le m n) := by
  have hquotient : (ofNat m / ofNat n : Double) =
      number false (Format.double.quotientCode m n) (quotientCode_lt hm hpos hn).le :=
    number_div_number (wholeCode_lt hm).1 (wholeCode_lt hn).1 (wholeCode_double_pos hpos)
  rw [percent, hquotient]
  exact number_mul_number (quotientCode_lt hm hpos hn) wholeCode_hundred_lt

/-- **The larger the part, the larger its share.** -/
theorem percent_mono (h : m ≤ m') (hm : m' ≤ 2 ^ 64) (hpos : 0 < n) (hn : n ≤ 2 ^ 64) :
    percent m n ≤ percent m' n := by
  have hunits := Format.double.units_mono (Format.double.wholeCode_mono h) (wholeCode_lt hm).1.le
  have hquotient : Format.double.quotientCode m n ≤ Format.double.quotientCode m' n :=
    Format.double.nearestCode_mono (Format.double.units_pos (wholeCode_double_pos hpos))
      (Nat.mul_le_mul_right _ hunits)
  have hcode : percentCode m n ≤ percentCode m' n :=
    Format.double.nearestCode_mono Format.double.one_pos <| Nat.mul_le_mul_right _ <|
      Format.double.units_mono hquotient (quotientCode_lt hm hpos hn).le
  rw [percent_eq (h.trans hm) hpos hn, percent_eq hm hpos hn]
  exact number_le_number.2 hcode

/-- The whole is exactly a hundred percent of itself. -/
theorem percent_self (hpos : 0 < n) (hn : n ≤ 2 ^ 64) : percent n n = ofNat 100 := by
  have hcode : percentCode n n = Format.double.wholeCode 100 := by
    have hhundred := Format.double.nearestCode_mul_right
      (Format.double.units (Format.double.wholeCode 100)) 1 Format.double.one_pos
    rw [Nat.one_mul, Nat.mul_comm, Format.double.nearestCode_units wholeCode_hundred_lt.le]
      at hhundred
    rw [percentCode, Format.double.quotientCode_self (wholeCode_double_pos hpos),
      units_wholeCode_one]
    exact hhundred
  rw [percent_eq hn hpos hn]
  simp only [hcode]
  rfl

/-- Nothing is no percent. -/
theorem percent_zero (hpos : 0 < n) (hn : n ≤ 2 ^ 64) : percent 0 n = zero false := by
  have hwhole : Format.double.units (Format.double.wholeCode 0) = 0 := by decide +kernel
  have hcode : percentCode 0 n = 0 := by
    rw [percentCode, Format.quotientCode, hwhole, Nat.zero_mul, Format.nearestCode_zero,
      Format.units_zero, Nat.zero_mul, Format.nearestCode_zero]
  rw [percent_eq (Nat.zero_le _) hpos hn]
  simp only [hcode]
  rfl

/-- However small a part is, its share is not rounded to zero. -/
theorem zero_lt_percent (h : 0 < m) (hm : m ≤ 2 ^ 64) (hpos : 0 < n) (hn : n ≤ 2 ^ 64) :
    zero false < percent m n := by
  have hunits := Nat.mul_le_mul
    (Nat.succ_le_of_lt (Format.double.units_pos (quotientCode_pos h hm hpos hn)))
    (one_le_units_wholeCode (by decide : 0 < 100) (by decide))
  have hone := Format.double.one_pos
  rw [percent_eq hm hpos hn]
  refine number_lt_number.2 ?_
  exact Format.double.nearestCode_pos hone (by omega) (by decide)

end Binary

end SpikeWatch
