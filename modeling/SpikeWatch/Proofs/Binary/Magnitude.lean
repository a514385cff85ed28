import SpikeWatch.Proofs.Binary.Rounding

/-!
# Rounding and powers of two

A power of two is a number of every format that reaches it, so rounding never takes a value past
one.  This tells the magnitude of a product from those of its factors, up to the roundings of all
three.

The readers of numbers multiply or divide by a power of ten, which is itself rounded.  Its magnitude
is known from the powers of two around it, and this is enough to tell an ordinary number from one
that is out of range, without knowing the rounded value.

* `Format.nearestCode_le_two_pow` and `Format.two_pow_le_nearestCode` bound a rounded value by the
  powers of two around it.
* `Binary.isFinite_ofNat_mul_ofNat` and `Binary.not_isFinite_ofNat_mul_ofNat` say for numbers of
  sixty-four bits when a product of whole numbers is finite, and when it is not.
-/

set_option autoImplicit false

namespace SpikeWatch

/-! ## Powers of two -/

namespace Format

variable (F : Format)

/-- A power of two has the code at the start of its scale. -/
theorem units_two_pow (k : Nat) :
    F.units ((k + 1) * 2 ^ F.fractionBits) = 2 ^ (F.fractionBits + k) := by
  have hbit : 0 < 2 ^ F.fractionBits := by positivity
  simp only [units, Nat.pow_eq, Nat.mul_div_cancel _ hbit, Nat.mul_mod_left, Nat.add_zero,
    Nat.succ_ne_zero, if_false, Nat.add_sub_cancel, Nat.pow_add]

/-- **Rounding does not pass a power of two.** -/
theorem nearestCode_le_two_pow {num den k : Nat} (hden : 0 < den)
    (h : num ≤ 2 ^ (F.fractionBits + k) * den) :
    F.nearestCode num den ≤ (k + 1) * 2 ^ F.fractionBits := by
  have hquotient : num / den ≤ 2 ^ (F.fractionBits + k) := Nat.div_le_of_le_mul (by
    rw [Nat.mul_comm]; exact h)
  have hexcess : F.excess (num / den) ≤ k := by
    have := F.excess_mono hquotient
    rwa [excess, excess, Nat.log2_two_pow, Nat.add_sub_cancel_left] at this
  rw [nearestCode_eq]
  refine (Nat.min_le_right _ _).trans ?_
  rcases Nat.eq_or_lt_of_le hexcess with heq | hlt
  · -- the quotient is rounded with as many bits as the power has, so it stays below it
    have hsignificand : roundHalfEven num (den * 2 ^ k) ≤ 2 ^ F.fractionBits := by
      refine roundHalfEven_le (by positivity) (h.trans (le_of_eq ?_))
      rw [Nat.pow_add]
      ring
    rw [heq, Nat.succ_mul]
    exact Nat.add_le_add_left hsignificand _
  · have hsignificand := F.significand_le num hden
    have hstep := Nat.mul_le_mul_right (2 ^ F.fractionBits) (Nat.succ_le_of_lt hlt)
    rw [Nat.pow_succ] at hsignificand
    rw [Nat.succ_mul] at hstep ⊢
    omega

/-- **Rounding does not fall below a power of two.** -/
theorem two_pow_le_nearestCode {num den k : Nat} (hden : 0 < den)
    (h : 2 ^ (F.fractionBits + k) * den ≤ num) :
    min F.infinityCode ((k + 1) * 2 ^ F.fractionBits) ≤ F.nearestCode num den := by
  have hquotient : 2 ^ (F.fractionBits + k) ≤ num / den := (Nat.le_div_iff_mul_le hden).2 h
  have hexcess : k ≤ F.excess (num / den) := by
    have := F.excess_mono hquotient
    rwa [excess, Nat.log2_two_pow, Nat.add_sub_cancel_left] at this
  rw [nearestCode_eq]
  refine min_le_min_left _ ?_
  rcases Nat.eq_or_lt_of_le hexcess with heq | hlt
  · have hsignificand : 2 ^ F.fractionBits ≤ roundHalfEven num (den * 2 ^ k) := by
      refine le_roundHalfEven (by positivity) (le_trans (le_of_eq ?_) h)
      rw [Nat.pow_add]
      ring
    rw [← heq, Nat.succ_mul]
    exact Nat.add_le_add_left hsignificand _
  · exact (Nat.mul_le_mul_right _ hlt).trans (Nat.le_add_right _ _)

/-- A greater code is a greater number, up to infinity. -/
theorem units_mono {code code' : Nat} (h : code ≤ code') (h' : code' ≤ F.infinityCode) :
    F.units code ≤ F.units code' := by
  by_contra hlt
  have hcode := F.nearestCode_mono Nat.one_pos (Nat.le_of_lt (Nat.lt_of_not_le hlt))
  rw [F.nearestCode_units h', F.nearestCode_units (h.trans h')] at hcode
  exact hlt (by rw [Nat.le_antisymm h hcode])

/-- One is a power of two as well. -/
theorem one_eq : F.one = 2 ^ F.unitPlaces := by rw [one, Nat.pow_eq]

end Format

/-- Below the last power of two that is a number, rounding stays with the numbers. -/
theorem nearestCode_double_le {num den k : Nat} (hden : 0 < den) (hk : k ≤ 2045)
    (h : num ≤ 2 ^ (52 + k) * den) :
    Format.double.nearestCode num den < Format.double.infinityCode ∧
      Format.double.units (Format.double.nearestCode num den) ≤ 2 ^ (52 + k) := by
  have hcode : Format.double.nearestCode num den ≤ (k + 1) * 2 ^ 52 :=
    Format.double.nearestCode_le_two_pow hden h
  have hinfinity : (k + 1) * 2 ^ 52 < Format.double.infinityCode := by
    have : Format.double.infinityCode = 2047 * 2 ^ 52 := rfl
    omega
  refine ⟨hcode.trans_lt hinfinity, ?_⟩
  exact (Format.double.units_mono hcode hinfinity.le).trans (Format.double.units_two_pow k).le

/-- What has reached a power of two has it also after rounding, or is infinite. -/
theorem le_nearestCode_double {num den k : Nat} (hden : 0 < den) (h : 2 ^ (52 + k) * den ≤ num) :
    min Format.double.infinityCode ((k + 1) * 2 ^ 52) ≤ Format.double.nearestCode num den :=
  Format.double.two_pow_le_nearestCode hden h

namespace Binary

section Finite

variable {F : Format} {s t : Bool} {c d : Nat}

/-- A product of finite numbers is rounded once, from the exact product. -/
theorem number_mul_number (hc : c < F.infinityCode) (hd : d < F.infinityCode) :
    (number s c hc.le * number t d hd.le : Binary F) =
      ofUnits (s != t) (F.units c * F.units d) F.one := by
  change mul _ _ = _
  rw [mul, if_neg (not_or.2 ⟨hc.ne, hd.ne⟩)]

/-- So is a quotient, from the exact quotient. -/
theorem number_div_number (hc : c < F.infinityCode) (hd : d < F.infinityCode) (hpos : 0 < d) :
    (number s c hc.le / number t d hd.le : Binary F) =
      ofUnits (s != t) (F.units c * F.one) (F.units d) := by
  change div _ _ = _
  rw [div, if_neg hc.ne, if_neg hd.ne, if_neg hpos.ne']

/-- A product is finite if what it is rounded to is. -/
theorem isFinite_number_mul (hc : c < F.infinityCode) (hd : d < F.infinityCode)
    (h : F.nearestCode (F.units c * F.units d) F.one < F.infinityCode) :
    (number s c hc.le * number t d hd.le : Binary F).isFinite = true := by
  rw [number_mul_number hc hd]
  exact decide_eq_true h

end Finite

/-- A whole number up to a power of two is not rounded past it. -/
theorem nearestCode_ofNat_le {n a : Nat} (hn : n ≤ 2 ^ a) (ha : a ≤ 1023) :
    Format.double.nearestCode (n * Format.double.one) 1 < Format.double.infinityCode ∧
      Format.double.units (Format.double.nearestCode (n * Format.double.one) 1) ≤
        2 ^ (a + Format.double.unitPlaces) := by
  have hplaces : a + Format.double.unitPlaces = 52 + (a + 1022) := by
    have : Format.double.unitPlaces = 1074 := rfl
    omega
  have hunits : n * Format.double.one ≤ 2 ^ (52 + (a + 1022)) * 1 := by
    rw [← hplaces, Format.one_eq, Nat.pow_add, Nat.mul_one]
    exact Nat.mul_le_mul_right _ hn
  rw [hplaces]
  exact nearestCode_double_le Nat.one_pos (by omega) hunits

/-- The product of numbers below two powers of two is finite if the product of these is. -/
theorem isFinite_ofNat_mul_ofNat {m n a b : Nat} (hm : m ≤ 2 ^ a) (hn : n ≤ 2 ^ b)
    (hab : a + b ≤ 1023) : (ofNat m * ofNat n : Double).isFinite = true := by
  obtain ⟨hcode, hunits⟩ := nearestCode_ofNat_le hm (by omega)
  obtain ⟨hcode', hunits'⟩ := nearestCode_ofNat_le hn (by omega)
  have hplaces : a + Format.double.unitPlaces + b = 52 + (a + b + 1022) := by
    have : Format.double.unitPlaces = 1074 := rfl
    omega
  have hproduct := Nat.mul_le_mul hunits hunits'
  rw [Nat.pow_add 2 b, ← Nat.mul_assoc, ← Nat.pow_add, hplaces, ← Format.one_eq] at hproduct
  exact isFinite_number_mul hcode hcode'
    (nearestCode_double_le Format.double.one_pos (by omega) hproduct).1

/-- A factor that is infinite makes the product infinite, or no number at all. -/
theorem isFinite_number_mul_eq_false {F : Format} {s t : Bool} {c d : Nat}
    {hc : c ≤ F.infinityCode} {hd : d ≤ F.infinityCode}
    (h : c < F.infinityCode → d < F.infinityCode →
      F.infinityCode ≤ F.nearestCode (F.units c * F.units d) F.one) :
    (number s c hc * number t d hd : Binary F).isFinite = false := by
  change (mul _ _).isFinite = false
  rw [mul]
  split
  · split
    · rfl
    · exact decide_eq_false (lt_irrefl _)
  · next hfinite =>
    obtain ⟨hc', hd'⟩ := not_or.1 hfinite
    exact decide_eq_false (Nat.not_lt.2 (h (lt_of_le_of_ne hc hc') (lt_of_le_of_ne hd hd')))

/-- A whole number from a power of two on is not rounded below it. -/
theorem two_pow_le_units_ofNat {n a : Nat} (hn : 2 ^ a ≤ n)
    (h : Format.double.nearestCode (n * Format.double.one) 1 < Format.double.infinityCode) :
    2 ^ (a + Format.double.unitPlaces) ≤
      Format.double.units (Format.double.nearestCode (n * Format.double.one) 1) := by
  have hplaces : a + Format.double.unitPlaces = 52 + (a + 1022) := by
    have : Format.double.unitPlaces = 1074 := rfl
    omega
  have hunits : 2 ^ (52 + (a + 1022)) * 1 ≤ n * Format.double.one := by
    rw [← hplaces, Format.one_eq, Nat.pow_add, Nat.mul_one]
    exact Nat.mul_le_mul_right _ hn
  have hcode := le_nearestCode_double Nat.one_pos hunits
  rw [hplaces]
  exact (Format.double.units_two_pow (a + 1022)).ge.trans <|
    Format.double.units_mono ((min_le_iff.1 hcode).resolve_left (Nat.not_le.2 h)) h.le

/-- The product of numbers above two powers of two is not finite if the product of these is not. -/
theorem not_isFinite_ofNat_mul_ofNat {m n a b : Nat} (hm : 2 ^ a ≤ m) (hn : 2 ^ b ≤ n)
    (hab : 1024 ≤ a + b) : (ofNat m * ofNat n : Double).isFinite = false := by
  refine isFinite_number_mul_eq_false fun hfinite hfinite' => ?_
  have hplaces : a + Format.double.unitPlaces + b = 52 + (a + b + 1022) := by
    have : Format.double.unitPlaces = 1074 := rfl
    omega
  have hproduct := Nat.mul_le_mul (two_pow_le_units_ofNat hm hfinite)
    (two_pow_le_units_ofNat hn hfinite')
  rw [Nat.pow_add 2 b, ← Nat.mul_assoc, ← Nat.pow_add, hplaces, ← Format.one_eq] at hproduct
  have hcode := le_nearestCode_double Format.double.one_pos hproduct
  have hinfinity : Format.double.infinityCode ≤ (a + b + 1022 + 1) * 2 ^ 52 := by
    have : Format.double.infinityCode = 2047 * 2 ^ 52 := rfl
    omega
  exact (le_min (Nat.le_refl _) hinfinity).trans hcode

end Binary

end SpikeWatch
