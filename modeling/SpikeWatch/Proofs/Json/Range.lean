import SpikeWatch.Proofs.Binary.Magnitude
import SpikeWatch.Proofs.Json.Numbers

/-!
# Numbers in range

A number of `w` digits in front of the point and the exponent `e` lies below `10 ^ (w + e)`,
whatever its digits are, and not below `10 ^ (w + e - 1)` if the first one is not zero.

Only part of the digits may be collected, and the number that they make is bounded by their count:
`k` digits make a number below `10 ^ k`, and `collectDigits_bounds` says so for any digits behind a
number that is there already.  All else is a comparison of powers of ten and of two.

* `NumberText.isSome_numeral?_of_le` says that it is read if `w + e` is at most 307.
* `NumberText.numeral?_eq_none_of_ge` says that it is refused if `w + e` is at least 310.

The largest number lies between `10 ^ 308` and `10 ^ 309`.
-/

set_option autoImplicit false

namespace SpikeWatch

namespace Json

/-- The power is the whole number, as long as it is not cut off on the way. -/
theorem powerOfTen_eq {exponent : Nat} (h : exponent ≤ 1023) :
    powerOfTen exponent = .ofNat (10 ^ exponent) := by
  have hsmall : ¬ (Nat.pow 2 Format.double.exponentBits : Int) ≤ exponent := by
    have : Nat.pow 2 Format.double.exponentBits = 2048 := rfl
    omega
  rw [powerOfTen, Binary.ofDecimal, if_neg Nat.one_ne_zero, if_neg hsmall, if_neg (by omega),
    if_pos (Int.natCast_nonneg _), Nat.one_mul, Int.toNat_natCast, Nat.pow_eq, Binary.ofNat]

/-- A significand of `k` digits at most, times a power of ten. -/
theorem isSome_magnitude?_of_le {significand k : Nat} {exponent : Int}
    (hsignificand : significand < 10 ^ k) (h : k + exponent ≤ 307) :
    (magnitude? significand exponent).isSome = true := by
  rw [magnitude?]
  by_cases hneg : exponent < 0
  · rw [if_pos hneg]
    rfl
  · obtain ⟨e, rfl⟩ := Int.eq_ofNat_of_zero_le (Int.not_lt.1 hneg)
    have hfinite : (.ofNat significand * powerOfTen e : Double).isFinite = true := by
      rw [powerOfTen_eq (by omega)]
      refine Binary.isFinite_ofNat_mul_ofNat Nat.lt_log2_self.le Nat.lt_log2_self.le ?_
      -- Both logarithms are rounded down, and so the bound has to leave room for two bits.
      have hproduct : 2 ^ (significand.log2 + (10 ^ e).log2) < 2 ^ 1022 :=
        calc 2 ^ (significand.log2 + (10 ^ e).log2)
            = 2 ^ significand.log2 * 2 ^ (10 ^ e).log2 := Nat.pow_add ..
          _ ≤ 10 ^ k * 10 ^ e := by
            refine Nat.mul_le_mul ?_ (Nat.log2_self_le (by positivity))
            rcases Nat.eq_zero_or_pos significand with rfl | hpos
            · exact Nat.one_le_pow _ _ (by omega)
            · exact (Nat.log2_self_le hpos.ne').trans hsignificand.le
          _ = 10 ^ (k + e) := (Nat.pow_add ..).symm
          _ ≤ 10 ^ 307 := Nat.pow_le_pow_right (by omega) (by omega)
          _ < 2 ^ 1022 := by decide +kernel
      have := (Nat.pow_lt_pow_iff_right (by omega)).1 hproduct
      omega
    rw [if_neg hneg, if_neg (by omega)]
    simp only [Int.toNat_natCast, if_pos hfinite]
    rfl

theorem ne_zero_of_pow_le {significand k : Nat} (h : 10 ^ k ≤ 10 * significand) :
    significand ≠ 0 := by
  rintro rfl
  have := Nat.one_le_pow k 10 (by omega)
  omega

/-- A significand has at most twenty digits. -/
theorem le_of_pow_le {significand k : Nat} (hlimit : significand ≤ maxSignificand)
    (hsignificand : 10 ^ k ≤ 10 * significand) : k ≤ 20 := by
  by_contra hk
  have hpow : 10 ^ 21 ≤ 10 * maxSignificand :=
    (Nat.pow_le_pow_right (by omega) (by omega)).trans
      (hsignificand.trans (Nat.mul_le_mul_left _ hlimit))
  exact absurd hpow (by decide)

/-- A significand of `k` digits at least, times a power of ten. -/
theorem magnitude?_eq_none_of_ge {significand k : Nat} {exponent : Int}
    (hlimit : significand ≤ maxSignificand) (hsignificand : 10 ^ k ≤ 10 * significand)
    (h : 310 ≤ k + exponent) : magnitude? significand exponent = none := by
  -- twenty digits at most, so that the exponent cannot be negative here
  have hk := le_of_pow_le hlimit hsignificand
  obtain ⟨e, rfl⟩ := Int.eq_ofNat_of_zero_le (show 0 ≤ exponent by omega)
  have hpos := ne_zero_of_pow_le hsignificand
  rw [magnitude?, if_neg (by omega)]
  by_cases hlarge : 308 < e
  · rw [if_pos (by omega), if_neg hpos]
  · have hinfinite : (.ofNat significand * powerOfTen e : Double).isFinite = false := by
      rw [powerOfTen_eq (by omega)]
      refine Binary.not_isFinite_ofNat_mul_ofNat (Nat.log2_self_le hpos)
        (Nat.log2_self_le (by positivity)) ?_
      have hproduct : 2 ^ 1025 < 2 ^ (significand.log2 + 1 + ((10 ^ e).log2 + 1)) :=
        calc 2 ^ 1025 < 10 ^ 309 := by decide +kernel
          _ ≤ 10 ^ (k - 1 + e) := Nat.pow_le_pow_right (by omega) (by omega)
          _ = 10 ^ (k - 1) * 10 ^ e := Nat.pow_add ..
          _ ≤ 2 ^ (significand.log2 + 1) * 2 ^ ((10 ^ e).log2 + 1) := by
            refine Nat.mul_le_mul ?_ Nat.lt_log2_self.le
            refine le_trans ?_ Nat.lt_log2_self.le
            rw [show k = k - 1 + 1 by omega, Nat.pow_succ, Nat.mul_comm] at hsignificand
            exact Nat.le_of_mul_le_mul_left hsignificand (by omega)
          _ = _ := (Nat.pow_add ..).symm
      have := (Nat.pow_lt_pow_iff_right (by omega)).1 hproduct
      omega
    rw [if_neg (by omega)]
    simp only [Int.toNat_natCast, hinfinite]
    rfl

/-! ## What is collected of digits -/

/-- A digit is worth nine at most. -/
theorem digitValue_le {c : Char} (hc : c.isDigit = true) : Decimal.digitValue c ≤ 9 := by
  have hc := (Char.isDigit_iff_toNat.1 hc).2
  have : '9'.toNat = 57 ∧ '0'.toNat = 48 := by decide
  rw [Decimal.digitValue]
  omega

/-- Behind `n`, digits make a number from `n` times the power of ten for their count on, and below
`n + 1` times that power. -/
theorem collectDigits_bounds (limit : Nat) (ds : List Char) (n count : Nat) :
    let collected := collectDigits limit ds n count
    count ≤ collected.2 ∧ n * 10 ^ (collected.2 - count) ≤ collected.1 ∧
      collected.1 < (n + 1) * 10 ^ (collected.2 - count) ∧ (n ≤ limit → collected.1 ≤ limit) := by
  induction ds generalizing n count with
  | nil => simp [collectDigits]
  | cons d ds ih =>
    rw [collectDigits]
    split
    · next hd =>
      obtain ⟨hdigit, hlimit⟩ := Bool.and_eq_true_iff.1 hd
      have hdigit := digitValue_le hdigit
      obtain ⟨hcount, hle, hlt, hbound⟩ := ih (10 * n + Decimal.digitValue d) (count + 1)
      -- Taking a digit moves what was read so far up by one place.
      generalize collectDigits limit ds (10 * n + Decimal.digitValue d) (count + 1) = collected
        at hcount hle hlt hbound ⊢
      have hpow (m : Nat) : m * 10 ^ (collected.2 - count) =
          10 * m * 10 ^ (collected.2 - (count + 1)) := by
        rw [show collected.2 - count = collected.2 - (count + 1) + 1 by omega, Nat.pow_succ]
        ring
      refine ⟨by omega, ?_, ?_, fun _ => hbound (of_decide_eq_true hlimit)⟩
      · rw [hpow]
        exact (Nat.mul_le_mul_right _ (Nat.le_add_right _ _)).trans hle
      · rw [hpow]
        exact hlt.trans_le (Nat.mul_le_mul_right _ (by omega))
    · simp

/-- Further digits do not make a number smaller. -/
theorem le_foldl_digits (ds : List Char) (n : Nat) :
    n ≤ ds.foldl (fun n c => 10 * n + Decimal.digitValue c) n := by
  induction ds generalizing n with
  | nil => exact Nat.le_refl n
  | cons d ds ih => exact (by omega : n ≤ 10 * n + Decimal.digitValue d).trans (ih _)

/-- All digits are collected, or the number that they make is beyond the limit. -/
theorem collectDigits_or (limit : Nat) {ds : List Char} (hds : ds.all Char.isDigit)
    (n count : Nat) :
    collectDigits limit ds n count =
        (ds.foldl (fun n c => 10 * n + Decimal.digitValue c) n, count + ds.length) ∨
      (collectDigits limit ds n count).2 < count + ds.length ∧
        limit < ds.foldl (fun n c => 10 * n + Decimal.digitValue c) n := by
  induction ds generalizing n count with
  | nil => exact .inl rfl
  | cons d ds ih =>
    obtain ⟨hd, hds⟩ := Bool.and_eq_true_iff.1 (List.all_cons ▸ hds)
    rw [collectDigits, hd, Bool.true_and, List.foldl_cons, List.length_cons, Nat.add_comm ds.length,
      ← Nat.add_assoc]
    by_cases hlimit : 10 * n + Decimal.digitValue d ≤ limit
    · rw [if_pos (decide_eq_true hlimit)]
      exact ih hds (10 * n + Decimal.digitValue d) (count + 1)
    · rw [if_neg (by simpa using hlimit)]
      exact .inr ⟨by omega, (Nat.lt_of_not_le hlimit).trans_le (le_foldl_digits ..)⟩

namespace Grammar

namespace Digits

variable (limit : Nat) (ds : Digits)

/-- The number that all digits together make. -/
def toNat : Nat := Decimal.ofDigits ds.chars

/-- Collected digits stay below the next number with so many zeros. -/
theorem value_lt (n : Nat) : ds.value limit n < (n + 1) * 10 ^ ds.taken limit n :=
  (collectDigits_bounds limit ds.chars n 0).2.2.1

/-- Collected digits do not fall below the number with so many zeros. -/
theorem le_value (n : Nat) : n * 10 ^ ds.taken limit n ≤ ds.value limit n :=
  (collectDigits_bounds limit ds.chars n 0).2.1

/-- What is collected keeps to the limit. -/
theorem value_le {n : Nat} (hn : n ≤ limit) : ds.value limit n ≤ limit :=
  (collectDigits_bounds limit ds.chars n 0).2.2.2 hn

/-- Digits of which the first is not zero make a number of that many digits. -/
theorem pow_taken_le (hlimit : 9 ≤ limit) (hzero : ds.chars.head? ≠ some '0') :
    10 ^ ds.taken limit 0 ≤ 10 * ds.value limit 0 := by
  obtain ⟨c, rest, hds, hc⟩ := ds.exists_eq_cons
  have hpos : 1 ≤ Decimal.digitValue c := by
    have hc' := (Char.isDigit_iff_toNat.1 hc).1
    have hne : c.toNat ≠ '0'.toNat := fun heq =>
      hzero (by rw [hds, List.head?_cons, Char.toNat_inj.1 heq])
    rw [Decimal.digitValue]
    omega
  have hle := digitValue_le hc
  rw [taken, value, hds, collectDigits, if_pos (by simp [hc]; omega)]
  obtain ⟨hcount, hvalue, -⟩ :=
    collectDigits_bounds limit rest (10 * 0 + Decimal.digitValue c) (0 + 1)
  generalize collectDigits limit rest (10 * 0 + Decimal.digitValue c) (0 + 1) = collected
    at hcount hvalue ⊢
  calc 10 ^ collected.2 = 10 * (1 * 10 ^ (collected.2 - (0 + 1))) := by
        rw [Nat.one_mul, ← Nat.pow_succ']
        congr 1
        omega
    _ ≤ 10 * collected.1 :=
      Nat.mul_le_mul_left _ ((Nat.mul_le_mul_right _ (by omega)).trans hvalue)

/-- If all digits are collected, they make the number that they are. -/
theorem value_eq_toNat (h : ¬ ds.taken limit 0 < ds.chars.length) :
    ds.value limit 0 = ds.toNat := by
  rcases collectDigits_or limit ds.isDigit 0 0 with hall | ⟨htaken, -⟩
  · exact congrArg Prod.fst hall
  · exact absurd (by simpa [taken] using htaken) h

/-- If they are not, that number is beyond the limit. -/
theorem lt_toNat (h : ds.taken limit 0 < ds.chars.length) : limit < ds.toNat := by
  rcases collectDigits_or limit ds.isDigit 0 0 with hall | ⟨-, hlimit⟩
  · exact absurd h (by simp [taken, hall])
  · exact hlimit

end Digits

/-- The exponent as it is written. -/
def Exponent.toInt (e : Exponent) : Int := if e.down then -e.digits.toNat else e.digits.toNat

/-- The exponent counts as it is written, unless its digits are not all collected. -/
theorem Exponent.magnitude?_or (e : Exponent) (significand : Nat) (scale : Int) :
    e.magnitude? significand scale = Json.magnitude? significand (scale + e.toInt) ∨
      maxExponent < e.digits.toNat ∧ e.magnitude? significand scale =
        if significand ≠ 0 ∧ ¬ e.down then none else some (.zero false) := by
  rw [magnitude?, toInt]
  by_cases htaken : e.digits.taken maxExponent 0 < e.digits.chars.length
  · exact .inr ⟨e.digits.lt_toNat maxExponent htaken, if_pos htaken⟩
  · left
    rw [if_neg htaken, e.digits.value_eq_toNat maxExponent htaken]
    cases e.down <;> rfl

namespace NumberText

variable (t : NumberText)

/-- The power of ten that the digits of a number are written with. -/
def power : Int := t.exponent.elim 0 Exponent.toInt

/-- A number is finite if the count of its digits and its powers of ten keep it small. -/
theorem isSome_scaled?_of_le {significand k : Nat} {scale : Int}
    (hsignificand : significand < 10 ^ k) (hscale : 0 ≤ k + scale)
    (h : k + scale + t.power ≤ 307) :
    (t.scaled? significand scale).isSome = true := by
  rw [scaled?]
  rw [power] at h
  cases hexponent : t.exponent with
  | none =>
    rw [hexponent] at h
    exact isSome_magnitude?_of_le hsignificand (by simpa using h)
  | some e =>
    have hpower : k + scale + e.toInt ≤ 307 := by rwa [hexponent] at h
    -- Either the exponent was read as it is, or some of its digits are left over.
    rcases e.magnitude?_or significand scale with hvalue | ⟨hlimit, hvalue⟩
    · change (e.magnitude? significand scale).isSome = true
      rw [hvalue]
      exact isSome_magnitude?_of_le hsignificand (by omega)
    · -- an exponent of which digits are left can only be a negative one
      have hdown : e.down = true := by
        by_contra hup
        rw [Exponent.toInt, if_neg hup] at hpower
        rw [maxExponent] at hlimit
        omega
      simp [hvalue, hdown]

/-- A number is refused if the count of its digits and its powers of ten make it too large. -/
theorem scaled?_eq_none_of_ge {significand k : Nat} {scale : Int}
    (hlimit : significand ≤ maxSignificand) (hsignificand : 10 ^ k ≤ 10 * significand)
    (hpower : 0 ≤ t.power) (h : 310 ≤ k + scale + t.power) :
    t.scaled? significand scale = none := by
  rw [scaled?]
  rw [power] at h hpower
  cases hexponent : t.exponent with
  | none =>
    rw [hexponent] at h
    exact magnitude?_eq_none_of_ge hlimit hsignificand (by simpa using h)
  | some e =>
    have hpower : 0 ≤ e.toInt := by rwa [hexponent] at hpower
    have h : 310 ≤ k + scale + e.toInt := by rwa [hexponent] at h
    rcases e.magnitude?_or significand scale with hvalue | ⟨hexcess, hvalue⟩
    · exact hvalue.trans (magnitude?_eq_none_of_ge hlimit hsignificand (by omega))
    · have hup : ¬ e.down = true := fun hdown => by
        rw [Exponent.toInt, if_pos hdown] at hpower
        omega
      exact hvalue.trans (if_pos ⟨ne_zero_of_pow_le hsignificand, hup⟩)

/-- **Which numbers are read.**  All those that lie below `10 ^ 307` already for the count of their
digits in front of the point and for their exponent. -/
theorem isSome_numeral?_of_le (h : t.whole.chars.length + t.power ≤ 307) :
    t.numeral?.isSome = true := by
  rw [numeral?]
  split
  · rfl
  · rw [Option.isSome_map, magnitude?]
    have htaken := t.whole.taken_le maxSignificand 0
    have hvalue := t.whole.value_lt maxSignificand 0
    rw [Nat.zero_add, Nat.one_mul] at hvalue
    cases hfraction : t.fraction with
    | none =>
      exact t.isSome_scaled?_of_le hvalue (by omega) (by omega)
    | some f =>
      have hvalue' := f.value_lt maxSignificand (t.whole.value maxSignificand 0)
      have hboth : f.value maxSignificand (t.whole.value maxSignificand 0) <
          10 ^ (t.whole.taken maxSignificand 0 +
            f.taken maxSignificand (t.whole.value maxSignificand 0)) := by
        rw [Nat.pow_add]
        exact hvalue'.trans_le (Nat.mul_le_mul_right _ hvalue)
      exact t.isSome_scaled?_of_le hboth (by omega) (by omega)

/-- **Which numbers are refused.**  All those that do not lie below `10 ^ 309` already for the count
of their digits in front of the point and for their exponent. -/
theorem numeral?_eq_none_of_ge (hzero : t.whole.chars.head? ≠ some '0') (hpower : 0 ≤ t.power)
    (h : 310 ≤ t.whole.chars.length + t.power) : t.numeral? = none := by
  have htaken := t.whole.taken_le maxSignificand 0
  have hlimit := t.whole.value_le maxSignificand (Nat.zero_le _)
  have hvalue := t.whole.pow_taken_le maxSignificand (by decide) hzero
  rw [numeral?, if_neg, Option.map_eq_none_iff, magnitude?]
  · cases hfraction : t.fraction with
    | none => exact t.scaled?_eq_none_of_ge hlimit hvalue hpower (by omega)
    | some f =>
      have hboth : 10 ^ (t.whole.taken maxSignificand 0 +
          f.taken maxSignificand (t.whole.value maxSignificand 0)) ≤
          10 * f.value maxSignificand (t.whole.value maxSignificand 0) := by
        rw [Nat.pow_add]
        refine (Nat.mul_le_mul_right _ hvalue).trans ?_
        rw [Nat.mul_assoc]
        exact Nat.mul_le_mul_left _ (f.le_value maxSignificand _)
      exact t.scaled?_eq_none_of_ge (f.value_le maxSignificand hlimit) hboth hpower (by omega)
  · -- so many digits are not all collected, so this is not an integer of sixty-four bits
    rintro ⟨hinteger, hdropped⟩
    have hexponent : t.exponent = none := by
      simp only [isInteger, Bool.and_eq_true, Option.isNone_iff_eq_none] at hinteger
      exact hinteger.2
    rw [power, hexponent] at h
    have hk := le_of_pow_le hlimit hvalue
    simp only [Option.elim_none] at h
    omega

end NumberText

end Grammar

end Json

end SpikeWatch
