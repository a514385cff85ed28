import SpikeWatch.Binary.Number

/-!
# Comparing numbers

What is not a number compares false with everything, so it has to be excluded before a comparison
can be turned round: of two numbers, one is less than the other or is no less (`not_lt_iff`), and
what is no number is the only thing for which that fails.  Of two positive numbers, the one with the
smaller code is less (`number_lt_number`).
-/

set_option autoImplicit false

namespace SpikeWatch.Binary

variable {F : Format} {x y : Binary F}

theorem exists_rank?_of_ne_nan (h : x ≠ nan) : ∃ i, x.rank? = some i := by
  cases x with
  | nan => exact absurd rfl h
  | number negative code code_le => cases negative <;> exact ⟨_, rfl⟩

theorem not_lt_iff (hx : x ≠ nan) (hy : y ≠ nan) : ¬ x < y ↔ y ≤ x := by
  obtain ⟨i, hi⟩ := exists_rank?_of_ne_nan hx
  obtain ⟨j, hj⟩ := exists_rank?_of_ne_nan hy
  change ¬ lt x y = true ↔ le y x = true
  simp [lt, le, hi, hj]

example : ¬ (nan : Double) < ofNat 1 ∧ ¬ (ofNat 1 : Double) ≤ nan := by decide +kernel

theorem not_le_iff (hx : x ≠ nan) (hy : y ≠ nan) : ¬ x ≤ y ↔ y < x := by
  rw [← not_lt_iff hy hx, Classical.not_not]

theorem ne_nan_of_isFinite (h : x.isFinite = true) : x ≠ nan := by
  rintro rfl
  cases h

theorem ne_nan_of_lt (h : x < y) : y ≠ nan := by
  rintro rfl
  change lt x nan = true at h
  simp [lt, rank?] at h

theorem not_lt_nan (x : Binary F) : ¬ x < nan := fun h => ne_nan_of_lt h rfl

theorem ne_nan_of_le (h : x ≤ y) : x ≠ nan := by
  rintro rfl
  change le nan y = true at h
  simp [le, rank?] at h

theorem ofNat_ne_nan (n : Nat) : (ofNat n : Binary F) ≠ nan := nofun

theorem zero_ne_nan (negative : Bool) : (zero negative : Binary F) ≠ nan := nofun

/-! ## Positive numbers -/

section Positive

variable {c d : Nat} {hc : c ≤ F.infinityCode} {hd : d ≤ F.infinityCode}

/-- Positive numbers are in the order of their codes. -/
theorem number_le_number : (number false c hc : Binary F) ≤ number false d hd ↔ c ≤ d := by
  change le _ _ = true ↔ _
  simp [le, rank?]

theorem number_lt_number : (number false c hc : Binary F) < number false d hd ↔ c < d := by
  change lt _ _ = true ↔ _
  simp [lt, rank?]

end Positive

end SpikeWatch.Binary
