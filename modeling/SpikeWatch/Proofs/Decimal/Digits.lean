import SpikeWatch.Decimal.Digits
import Mathlib.Tactic.IntervalCases

/-!
# Digits and their numbers

Written digits read back as the number they were written for, and they begin with a zero only for
zero itself.

Padding puts zeros in front, which change the text and not the number.  A number that needs more
digits than the width has all of them.
-/

set_option autoImplicit false

namespace SpikeWatch.Decimal

/-- The value of digits, from the left and on top of what was read already, as the library counts
it. -/
theorem foldl_digitValue_eq (ds : List Char) (n : Nat) :
    ds.foldl (fun n c => 10 * n + digitValue c) n = Nat.ofDigitChars 10 ds n :=
  Nat.ofDigitChars_eq_foldl.symm

/-- **Digits are read back.** -/
theorem ofDigits_digits (n : Nat) : ofDigits (digits n) = n :=
  (foldl_digitValue_eq _ 0).trans Nat.ofDigitChars_ten_toDigits

theorem digits_ne_nil (n : Nat) : digits n ≠ [] := Nat.toDigits_ne_nil

theorem isDigit_of_mem_digits {n : Nat} {c : Char} (h : c ∈ digits n) : c.isDigit = true :=
  Nat.isDigit_of_mem_toDigits (by decide) (by decide) h

theorem all_isDigit_digits (n : Nat) : (digits n).all Char.isDigit :=
  List.all_eq_true.2 fun _ h => isDigit_of_mem_digits h

theorem digits_of_lt {n : Nat} (h : n < 10) : digits n = [n.digitChar] :=
  Nat.toDigits_of_lt_base h

/-- The last digit is behind those of the tenth part. -/
theorem digits_of_ge {n : Nat} (h : 10 ≤ n) :
    digits n = digits (n / 10) ++ [(n % 10).digitChar] :=
  Nat.toDigits_of_base_le (by decide) h

/-- No zero stands in front of further digits. -/
theorem eq_zero_of_head?_digits {n : Nat} (h : (digits n).head? = some '0') : n = 0 := by
  induction n using Nat.strong_induction_on with
  | _ n ih =>
    rcases Nat.lt_or_ge n 10 with hlt | hge
    · rw [digits_of_lt hlt, List.head?_cons, Option.some_inj] at h
      interval_cases n <;> first | rfl | cases h
    · rw [digits_of_ge hge, List.head?_append, Option.or_eq_some_iff] at h
      have hfirst : (digits (n / 10)).head? = some '0' := by
        refine h.resolve_right fun hnone => ?_
        exact digits_ne_nil _ (List.head?_eq_none_iff.1 hnone.1)
      have := ih (n / 10) (by omega) hfirst
      omega

/-- A leading zero stands alone, as the grammar of numbers asks. -/
theorem length_digits_of_head? {n : Nat} (h : (digits n).head? = some '0') :
    (digits n).length = 1 := by
  rw [eq_zero_of_head?_digits h, digits_of_lt (by decide), List.length_singleton]

/-- How long a number is, by the powers of ten. -/
theorem length_digits_le_iff {n k : Nat} (hk : 0 < k) : (digits n).length ≤ k ↔ n < 10 ^ k :=
  Nat.length_toDigits_le_iff (by decide) hk

theorem lt_length_digits {n k : Nat} (h : 10 ^ k ≤ n) : k < (digits n).length := by
  rcases Nat.eq_zero_or_pos k with rfl | hk
  · exact List.length_pos_iff.2 (digits_ne_nil n)
  · exact Nat.lt_of_not_le fun hle => absurd ((length_digits_le_iff hk).1 hle) (Nat.not_lt.2 h)

/-! ## Digits behind zeros -/

theorem le_length_padded (width n : Nat) : width ≤ (padded width n).length := by
  rw [padded, List.length_append, List.length_replicate]
  omega

/-- A number that has room in the width fills it exactly. -/
theorem length_padded {width n : Nat} (hwidth : 0 < width) (h : n < 10 ^ width) :
    (padded width n).length = width := by
  have := (length_digits_le_iff hwidth).2 h
  rw [padded, List.length_append, List.length_replicate]
  omega

theorem padded_ne_nil (width n : Nat) : padded width n ≠ [] :=
  List.append_ne_nil_of_right_ne_nil _ (digits_ne_nil n)

theorem isDigit_of_mem_padded {width n : Nat} {c : Char} (h : c ∈ padded width n) :
    c.isDigit = true := by
  rcases List.mem_append.1 h with hzero | hdigit
  · rw [List.eq_of_mem_replicate hzero]
    rfl
  · exact isDigit_of_mem_digits hdigit

theorem ofDigits_replicate_append (k : Nat) (ds : List Char) :
    ofDigits (List.replicate k '0' ++ ds) = ofDigits ds := by
  induction k with
  | zero => rfl
  | succ k ih => exact ih

/-- Padded digits are read back as well. -/
theorem ofDigits_padded (width n : Nat) : ofDigits (padded width n) = n :=
  (ofDigits_replicate_append _ _).trans (ofDigits_digits n)

example : padded 3 7 = ['0', '0', '7'] ∧ ofDigits ['0', '0', '7'] = 7 := by decide

end SpikeWatch.Decimal
