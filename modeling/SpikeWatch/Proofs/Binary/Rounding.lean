import SpikeWatch.Proofs.Binary.Order
import Mathlib.Algebra.Order.Field.Rat
import Mathlib.Tactic.Linarith
import Mathlib.Tactic.Positivity
import Mathlib.Tactic.Ring

/-!
# Rounding keeps the order

A rule compares a count with its threshold only after the count has been rounded to a floating-point
number.  What makes that harmless is that rounding is monotone and leaves alone what needs none.

* `roundHalfEven_mono` and `roundHalfEven_mul` say so of rounding to whole numbers.
* `Format.nearestCode_mono` and `Format.nearestCode_units` say so of codes.  Where the exponent
  grows, the significands on its two sides are told apart by the hidden bit (`significand_le`,
  `le_significand`), so the carry out of the fraction never overtakes the next exponent.
* `Binary.toRat?` is the exact value of a finite number, and `Binary.le_ofNat` the consequence: a
  whole number that reaches a finite number still reaches it when it has been rounded.
-/

set_option autoImplicit false

namespace SpikeWatch

/-! ## Rounding to whole numbers -/

/-- Rounding does not go below the whole part of a quotient. -/
theorem div_le_roundHalfEven (num den : Nat) : num / den ≤ roundHalfEven num den := by
  simp only [roundHalfEven]
  split_ifs <;> omega

/-- It goes at most one above it. -/
theorem roundHalfEven_le_div_add_one (num den : Nat) :
    roundHalfEven num den ≤ num / den + 1 := by
  simp only [roundHalfEven]
  split_ifs <;> omega

/-- **Rounding to whole numbers is monotone.**  Quotients that lie between the same whole numbers
are told apart by their remainders. -/
theorem roundHalfEven_mono {num num' : Nat} (den : Nat) (h : num ≤ num') :
    roundHalfEven num den ≤ roundHalfEven num' den := by
  rcases Nat.eq_or_lt_of_le (Nat.div_le_div_right (c := den) h) with hq | hq
  · -- the quotients agree, so the rests are in the order of the numerators
    have hrest : num % den ≤ num' % den := by
      have h1 := Nat.div_add_mod num den
      have h2 := Nat.div_add_mod num' den
      rw [hq] at h1
      omega
    simp only [roundHalfEven, hq]
    split_ifs <;> omega
  · have h1 := roundHalfEven_le_div_add_one num den
    have h2 := div_le_roundHalfEven num' den
    omega

/-- Rounding does not go below a whole number that was reached. -/
theorem le_roundHalfEven {num den n : Nat} (hden : 0 < den) (h : n * den ≤ num) :
    n ≤ roundHalfEven num den :=
  (roundHalfEven_mul n hden).symm.le.trans (roundHalfEven_mono den h)

/-- Nor does it go above one that was not passed. -/
theorem roundHalfEven_le {num den n : Nat} (hden : 0 < den) (h : num ≤ n * den) :
    roundHalfEven num den ≤ n :=
  (roundHalfEven_mono den h).trans (roundHalfEven_mul n hden).le

/-! ## Rounding to codes -/

namespace Format

variable (F : Format)

/-- The binary places of a whole number for which a significand has no room. -/
def excess (n : Nat) : Nat := n.log2 - F.fractionBits

/-- A code is the scale and the significand that is rounded at this scale.  A significand that is
rounded up to the next power of two carries into the scale by the addition alone. -/
theorem nearestCode_eq (num den : Nat) :
    F.nearestCode num den = min F.infinityCode (F.excess (num / den) * 2 ^ F.fractionBits +
      roundHalfEven num (den * 2 ^ F.excess (num / den))) := by
  simp only [nearestCode, excess, Nat.pow_eq]

/-- A greater number has no lower scale. -/
theorem excess_mono {m n : Nat} (h : m ≤ n) : F.excess m ≤ F.excess n := by
  rcases Nat.eq_zero_or_pos m with rfl | hm
  · simp [excess]
  · have hlog : m.log2 ≤ n.log2 :=
      (Nat.le_log2 (by omega)).2 ((Nat.log2_self_le (by omega)).trans h)
    rw [excess, excess]
    omega

/-- The scale is high enough for the significand to have room. -/
theorem lt_of_excess (n : Nat) : n < 2 ^ (F.fractionBits + 1) * 2 ^ F.excess n := by
  calc n < 2 ^ (n.log2 + 1) := Nat.lt_log2_self
    _ ≤ 2 ^ (F.fractionBits + 1 + F.excess n) :=
      Nat.pow_le_pow_right (by omega) (by rw [excess]; omega)
    _ = 2 ^ (F.fractionBits + 1) * 2 ^ F.excess n := Nat.pow_add ..

/-- The scale is no higher than it has to be, so that the hidden bit is used. -/
theorem le_of_excess_pos {n : Nat} (h : 0 < F.excess n) :
    2 ^ F.fractionBits * 2 ^ F.excess n ≤ n := by
  have hlog : F.fractionBits + F.excess n = n.log2 := by rw [excess] at h ⊢; omega
  rw [← Nat.pow_add, hlog]
  refine Nat.log2_self_le ?_
  rintro rfl
  simp [excess] at h

/-- A significand may be rounded up to the next power of two, and no further. -/
theorem significand_le (num : Nat) {den : Nat} (hden : 0 < den) :
    roundHalfEven num (den * 2 ^ F.excess (num / den)) ≤ 2 ^ (F.fractionBits + 1) := by
  refine roundHalfEven_le (by positivity) ?_
  have hlt := (Nat.div_lt_iff_lt_mul hden).1 (F.lt_of_excess (num / den))
  calc num ≤ 2 ^ (F.fractionBits + 1) * 2 ^ F.excess (num / den) * den := hlt.le
    _ = 2 ^ (F.fractionBits + 1) * (den * 2 ^ F.excess (num / den)) := by ring

/-- Above the lowest scale, a significand has its hidden bit. -/
theorem le_significand {num den : Nat} (hden : 0 < den) (h : 0 < F.excess (num / den)) :
    2 ^ F.fractionBits ≤ roundHalfEven num (den * 2 ^ F.excess (num / den)) := by
  refine le_roundHalfEven (by positivity) ?_
  calc 2 ^ F.fractionBits * (den * 2 ^ F.excess (num / den))
      = 2 ^ F.fractionBits * 2 ^ F.excess (num / den) * den := by ring
    _ ≤ num := (Nat.le_div_iff_mul_le hden).1 (F.le_of_excess_pos h)

/-- **Rounding keeps the order.** -/
theorem nearestCode_mono {num num' den : Nat} (hden : 0 < den) (h : num ≤ num') :
    F.nearestCode num den ≤ F.nearestCode num' den := by
  have hexcess := F.excess_mono (Nat.div_le_div_right (c := den) h)
  rw [nearestCode_eq, nearestCode_eq]
  refine min_le_min_left _ ?_
  rcases Nat.eq_or_lt_of_le hexcess with heq | hlt
  · rw [heq]
    exact Nat.add_le_add_left (roundHalfEven_mono _ h) _
  · -- the smaller significand is at most twice the hidden bit, the larger one at least that bit
    have hupper := F.significand_le num hden
    have hlower := F.le_significand hden (Nat.zero_lt_of_lt hlt)
    have hstep := Nat.mul_le_mul_right (2 ^ F.fractionBits) (Nat.succ_le_of_lt hlt)
    rw [Nat.pow_succ] at hupper
    rw [Nat.succ_mul] at hstep
    omega

theorem one_pos : 0 < F.one := by
  rw [one, Nat.pow_eq]
  positivity

/-- **What a code stands for is rounded to that code.** -/
theorem nearestCode_units {code : Nat} (h : code ≤ F.infinityCode) :
    F.nearestCode (F.units code) 1 = code := by
  have hbit : 0 < 2 ^ F.fractionBits := by positivity
  have hcode := Nat.div_add_mod code (2 ^ F.fractionBits)
  have hfraction := Nat.mod_lt code hbit
  rw [nearestCode_eq, Nat.div_one, Nat.one_mul]
  simp only [units, Nat.pow_eq]
  generalize code / 2 ^ F.fractionBits = exponent at hcode ⊢
  generalize code % 2 ^ F.fractionBits = fraction at hcode hfraction ⊢
  split_ifs with hexponent
  · -- without a hidden bit the code is the fraction, and there is nothing to round
    have hnone : F.excess fraction = 0 := by
      rcases Nat.eq_zero_or_pos fraction with rfl | hpos
      · simp [excess]
      · have := (Nat.log2_lt (by omega)).2 hfraction
        rw [excess]
        omega
    have hround := roundHalfEven_mul fraction Nat.one_pos
    rw [Nat.mul_one] at hround
    rw [hnone, Nat.pow_zero, hround]
    rw [hexponent] at hcode
    omega
  · have hlog : ((2 ^ F.fractionBits + fraction) * 2 ^ (exponent - 1)).log2 =
        F.fractionBits + (exponent - 1) := by
      rw [Nat.log2_eq_iff (by positivity)]
      constructor
      · rw [Nat.pow_add]
        exact Nat.mul_le_mul_right _ (Nat.le_add_right _ _)
      · rw [Nat.pow_succ, Nat.pow_add, Nat.mul_right_comm]
        exact Nat.mul_lt_mul_of_pos_right (by omega) (by positivity)
    have hexcess : F.excess ((2 ^ F.fractionBits + fraction) * 2 ^ (exponent - 1)) =
        exponent - 1 := by
      rw [excess]
      omega
    rw [hexcess, roundHalfEven_mul _ (by positivity)]
    have hcarry : (exponent - 1) * 2 ^ F.fractionBits + 2 ^ F.fractionBits =
        2 ^ F.fractionBits * exponent := by
      rw [← Nat.succ_mul, Nat.mul_comm]
      congr 1
      omega
    omega

end Format

/-! ## Comparing with exact values -/

namespace Binary

variable {F : Format}

/-- The exact value of a finite number. -/
def toRat? : Binary F → Option ℚ
  | nan => none
  | number negative code _ =>
    if code < F.infinityCode then
      some ((if negative then -(F.units code : ℚ) else F.units code) / F.one)
    else none

/-- The two orders do not contradict each other.  The converse fails, since what is no number is not
comparable. -/
theorem not_lt_of_le {x y : Binary F} (h : x ≤ y) : ¬ y < x := by
  intro hlt
  change le x y = true at h
  change lt y x = true at hlt
  rw [le] at h
  rw [lt] at hlt
  cases hx : x.rank? <;> cases hy : y.rank? <;> simp [hx, hy] at h hlt
  omega

/-- **Whole numbers stay in order.** -/
theorem ofNat_le_ofNat {m n : Nat} (h : m ≤ n) : (ofNat m : Binary F) ≤ ofNat n :=
  number_le_number.2 (F.nearestCode_mono Nat.one_pos (Nat.mul_le_mul_right F.one h))

/-- **A whole number that reaches a finite number reaches it after rounding as well.** -/
theorem le_ofNat {x : Binary F} {value : ℚ} {n : Nat} (hx : x.toRat? = some value)
    (hn : value ≤ n) : x ≤ ofNat n := by
  change le x (ofNat n) = true
  match x with
  | nan => simp [toRat?] at hx
  | number true code _ =>
    simp only [le, rank?, ofNat, ofUnits, decide_eq_true_eq]
    omega
  | number false code hle =>
    simp only [toRat?, Bool.false_eq_true, if_false, Option.ite_none_right_eq_some,
      Option.some.injEq] at hx
    obtain ⟨-, rfl⟩ := hx
    have hone : (0 : ℚ) < F.one := by exact_mod_cast F.one_pos
    rw [div_le_iff₀ hone] at hn
    have hunits : F.units code ≤ n * F.one := by exact_mod_cast hn
    have hcode := F.nearestCode_mono Nat.one_pos hunits
    rw [F.nearestCode_units hle] at hcode
    exact number_le_number.2 hcode

end Binary

end SpikeWatch
