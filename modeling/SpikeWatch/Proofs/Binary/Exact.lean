import SpikeWatch.Proofs.Binary.Percent
import Mathlib

/-!
# Exact values

A finite number has an exact value, and numbers are in the order of their values.  So comparing two
finite numbers is comparing two rationals, and if a comparison is not the one that was meant, a
rounding has come before it.

* `Format.signedUnits` is the value at a place among all numbers, in units.  It is strictly
  monotone, which is all that `Binary.lt_iff_of_toRat?` needs.
* `Binary.toRat?_ofNat`: whole numbers up to `2 ^ 53` are not rounded.
-/

set_option autoImplicit false

namespace SpikeWatch

namespace Format

variable (F : Format)

/-- The value of the number at a place among all numbers, in units. -/
def signedUnits (place : Int) : Int := place.sign * F.units place.natAbs

theorem signedUnits_natCast (code : Nat) : F.signedUnits code = F.units code := by
  rcases Nat.eq_zero_or_pos code with rfl | hpos
  · simp [signedUnits, F.units_zero]
  · simp [signedUnits, Int.sign_natCast_of_ne_zero hpos.ne']

theorem signedUnits_neg (place : Int) : F.signedUnits (-place) = -F.signedUnits place := by
  simp [signedUnits]

theorem signedUnits_strictMono : StrictMono F.signedUnits := by
  intro i j hlt
  obtain ⟨c, rfl | rfl⟩ := i.eq_nat_or_neg <;> obtain ⟨d, rfl | rfl⟩ := j.eq_nat_or_neg <;>
    simp only [signedUnits_neg, signedUnits_natCast]
  · have := F.units_strictMono (Int.ofNat_lt.1 hlt)
    omega
  · omega
  · -- only one of the two can be zero
    rcases Nat.eq_zero_or_pos c with rfl | hpos
    · have := F.units_pos (show 0 < d by omega)
      omega
    · have := F.units_pos hpos
      omega
  · have := F.units_strictMono (show d < c by omega)
    omega

end Format

namespace Binary

variable {F : Format} {x y : Binary F} {a b : ℚ}

theorem exists_toRat?_of_isFinite (h : x.isFinite = true) : ∃ a, x.toRat? = some a := by
  match x, h with
  | number negative code _, h => exact ⟨_, if_pos (of_decide_eq_true h)⟩

/-- The exact value of a number is told by its place. -/
theorem exists_rank?_of_toRat? (h : x.toRat? = some a) :
    ∃ place, x.rank? = some place ∧ a = F.signedUnits place / F.one := by
  match x, h with
  | number negative code _, h =>
    simp only [toRat?, Option.ite_none_right_eq_some, Option.some.injEq] at h
    obtain ⟨-, rfl⟩ := h
    cases negative with
    | false => exact ⟨code, rfl, by simp [F.signedUnits_natCast]⟩
    | true => exact ⟨-code, rfl, by simp [F.signedUnits_neg, F.signedUnits_natCast]⟩

/-- **Finite numbers are in the order of their exact values.** -/
theorem lt_iff_of_toRat? (hx : x.toRat? = some a) (hy : y.toRat? = some b) : x < y ↔ a < b := by
  obtain ⟨i, hi, rfl⟩ := exists_rank?_of_toRat? hx
  obtain ⟨j, hj, rfl⟩ := exists_rank?_of_toRat? hy
  have hone : (0 : ℚ) < F.one := by exact_mod_cast F.one_pos
  rw [div_lt_div_iff_of_pos_right hone, Int.cast_lt, F.signedUnits_strictMono.lt_iff_lt]
  change lt x y = true ↔ _
  simp [lt, hi, hj]

/-- **Whole numbers up to `2 ^ 53` are not rounded.** -/
theorem toRat?_ofNat {n : Nat} (hn : n ≤ 2 ^ 53) : (ofNat n : Double).toRat? = some (n : ℚ) := by
  have hfinite : Format.double.wholeCode n < Format.double.infinityCode :=
    (wholeCode_lt (hn.trans (by decide))).1
  have hunits : Format.double.units (Format.double.wholeCode n) = n * Format.double.one := by
    rw [Format.wholeCode, Format.one_eq] at hfinite ⊢
    rcases Nat.lt_or_eq_of_le hn with hlt | rfl
    · exact Format.double.units_nearestCode hlt hfinite
    · -- one more than there is room for, but a power of two
      have hpower : 2 ^ 53 * 2 ^ Format.double.unitPlaces =
          1 * 2 ^ (53 + Format.double.unitPlaces) := by rw [Nat.one_mul, Nat.pow_add]
      rw [hpower] at hfinite ⊢
      exact Format.double.units_nearestCode (by decide) hfinite
  have hone : (Format.double.one : ℚ) ≠ 0 := by exact_mod_cast Format.double.one_pos.ne'
  change (if Format.double.wholeCode n < Format.double.infinityCode then
    some ((Format.double.units (Format.double.wholeCode n) : ℚ) / Format.double.one) else none) = _
  rw [if_pos hfinite, hunits, Nat.cast_mul, mul_div_cancel_right₀ _ hone]

end Binary

end SpikeWatch
