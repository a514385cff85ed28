import SpikeWatch.Proofs.Decimal.Shortest
import SpikeWatch.Proofs.Json.Range

/-!
# How exactly numbers are read

A decimal is read by rounding its significand and a power of ten, and then their product or
quotient.  So it may be rounded up to four times, and only the last rounding is needed.

* `roundings` counts the others: none if the significand and the power of ten are numbers already.
* `readsNear` says that what is read is away from the number next to the decimal by so many numbers
  at most.

Both factors and each quotient are `Format.Close` to what they stand for, and this is all that the
proof knows of them.  Below `10 ^ -308` there are two divisions, and the quotient of the first one
may be too small for all bits of a significand.  Then the significand is one or two, and it is for a
computation to say what becomes of it (`near_quotients_of_lt`).
-/

set_option autoImplicit false

namespace SpikeWatch

/-- Two numbers of the same sign with so many steps from one to the other at most. -/
def Binary.Near {F : Format} (steps : Nat) : Binary F → Binary F → Prop
  | .number negative code _, .number negative' code' _ =>
    negative = negative' ∧ code ≤ code' + steps ∧ code' ≤ code + steps
  | _, _ => False

namespace Json

open Decimal (Scientific)
open Format (double)

/-! ## Whole numbers -/

/-- A whole number after rounding, in units. -/
def unitsOf (n : Nat) : Nat := double.units (double.nearestCode (n * double.one) 1)

/-- How often a decimal is rounded when it is read, besides the last time: once if its significand
is no number of sixty-four bits, once if its power of ten is none, and once more if it is so small
that there are two divisions. -/
def roundings (s : Scientific) : Nat :=
  (if unitsOf s.significand = s.significand * double.one then 0 else 1) +
    (if s.exponent.natAbs ≤ 22 then 0 else 1) + if s.exponent < -308 then 1 else 0

section Units

variable {m n : Nat}

/-- A whole number that is finite after rounding. -/
def Fits (n : Nat) : Prop := double.nearestCode (n * double.one) 1 < double.infinityCode

instance : Decidable (Fits n) := inferInstanceAs (Decidable (_ < _))

/-- What is below a number that fits, fits as well. -/
theorem Fits.of_le (hn : Fits n) (h : m ≤ n) : Fits m :=
  (double.nearestCode_mono Nat.one_pos (Nat.mul_le_mul_right _ h)).trans_lt hn

/-- The largest power of ten that is read at once fits, so it is finite when rounded. -/
theorem fits_largest : Fits (10 ^ 308) := by decide +kernel

theorem fits_ten_pow {k : Nat} (hk : k ≤ 308) : Fits (10 ^ k) := by
  refine fits_largest.of_le ?_
  gcongr
  decide

/-- All significands fit. -/
theorem fits_significand (h : n ≤ maxSignificand) : Fits n :=
  (show Fits maxSignificand by decide +kernel).of_le h

/-- Rounding keeps the order of whole numbers. -/
theorem unitsOf_mono (h : m ≤ n) : unitsOf m ≤ unitsOf n :=
  double.units_strictMono.monotone
    (double.nearestCode_mono Nat.one_pos (Nat.mul_le_mul_right _ h))

/-- What fits a significand, times a power of two, is not rounded. -/
theorem unitsOf_eq {t : Nat} (hm : m < 2 ^ 53) (h : Fits (m * 2 ^ t)) :
    unitsOf (m * 2 ^ t) = m * 2 ^ t * double.one := by
  rw [Fits, double.one_eq, Nat.mul_assoc, ← Nat.pow_add] at h
  rw [unitsOf, double.one_eq, Nat.mul_assoc, ← Nat.pow_add]
  exact double.units_nearestCode hm h

/-- Whole numbers of fifty-three bits are not rounded. -/
theorem unitsOf_eq_of_lt (hm : m < 2 ^ 53) : unitsOf m = m * double.one := by
  have hfits : Fits m := fits_significand (hm.le.trans (show 2 ^ 53 ≤ maxSignificand by decide))
  have hunits := unitsOf_eq (t := 0) hm
  rw [Nat.pow_zero, Nat.mul_one] at hunits
  exact hunits hfits

/-- Up to the twenty-second power the factors five have room in a significand. -/
theorem unitsOf_ten_pow {k : Nat} (hk : k ≤ 22) : unitsOf (10 ^ k) = 10 ^ k * double.one := by
  have hfive : 5 ^ k < 2 ^ 53 :=
    (Nat.pow_le_pow_right (by decide) hk).trans_lt (by decide : 5 ^ 22 < 2 ^ 53)
  have hten : Fits (10 ^ k) := fits_ten_pow (by omega)
  rw [show 10 = 5 * 2 by rfl, Nat.mul_pow] at hten ⊢
  exact unitsOf_eq hfive hten

theorem one_le_unitsOf (hn : 0 < n) : double.one ≤ unitsOf n := by
  rw [← Nat.one_mul double.one, ← unitsOf_eq_of_lt (show 1 < 2 ^ 53 by decide)]
  exact unitsOf_mono hn

theorem unitsOf_pos (hn : 0 < n) : 0 < unitsOf n := double.one_pos.trans_le (one_le_unitsOf hn)

theorem nearestCode_ne_zero (hn : 0 < n) : double.nearestCode (n * double.one) 1 ≠ 0 := by
  intro hzero
  have hunits := one_le_unitsOf hn
  rw [unitsOf, hzero] at hunits
  exact absurd hunits (by decide +kernel)

/-- A whole number is rounded once. -/
theorem close_unitsOf (hpos : 0 < n) (hn : Fits n) :
    double.Close 1 (unitsOf n) (n * double.one) := by
  have hlarge : 2 ^ double.fractionBits * 1 ≤ n * double.one :=
    le_trans (by decide +kernel) (Nat.le_mul_of_pos_left double.one hpos)
  have hclose := Format.close_units_nearestCode Nat.one_pos hlarge hn
  rwa [Nat.mul_one] at hclose

/-- The greatest power of ten that is finite, in units. -/
def largestPower : Nat := unitsOf (10 ^ 308)

theorem largestPower_pos : 0 < largestPower := unitsOf_pos (by positivity)

/-- The significand counts for a rounding only if it needs one. -/
theorem close_significand (hpos : 0 < n) (hn : n ≤ maxSignificand) :
    double.Close (if unitsOf n = n * double.one then 0 else 1) (unitsOf n) (n * double.one) := by
  split
  · next heq => exact Format.close_zero_iff.2 heq
  · exact close_unitsOf hpos (fits_significand hn)

/-- The powers of ten up to the twenty-second need none. -/
theorem close_power {k : Nat} (hk : k ≤ 308) :
    double.Close (if k ≤ 22 then 0 else 1) (unitsOf (10 ^ k)) (10 ^ k * double.one) := by
  split
  · next hle => exact Format.close_zero_iff.2 (unitsOf_ten_pow hle)
  · exact close_unitsOf (by positivity) (fits_ten_pow hk)

end Units

/-! ## Products and quotients -/

section Arithmetic

variable {m n : Nat}

/-- The product as it is computed: one rounding of the product of what the factors were rounded
to. -/
theorem ofNat_mul_ofNat (hm : Fits m) (hn : Fits n) :
    (.ofNat m * .ofNat n : Double) = .ofUnits false (unitsOf m * unitsOf n) double.one :=
  Binary.number_mul_number hm hn

/-- The quotient as it is computed. -/
theorem number_div_ofNat {negative : Bool} {code : Nat} {hle : code ≤ double.infinityCode}
    (hcode : code < double.infinityCode) (hpos : 0 < n) (hn : Fits n) :
    (.number negative code hle / .ofNat n : Double) =
      .ofUnits negative (double.units code * double.one) (unitsOf n) := by
  have hquotient := Binary.number_div_number (s := negative) (t := false) hcode hn
    (Nat.pos_of_ne_zero (nearestCode_ne_zero hpos))
  rwa [Bool.bne_false] at hquotient

end Arithmetic

/-! ## Magnitudes -/

section Magnitudes

variable {n : Nat}

theorem unitsOf_le (hn : n ≤ maxSignificand) : unitsOf n ≤ 2 ^ (64 + double.unitPlaces) :=
  (Binary.nearestCode_ofNat_le (hn.trans (by decide)) (by decide)).2

/-- Quotients of a significand and a whole number are finite, and no greater than a significand. -/
theorem quotient_le {units m : Nat} (hunits : units ≤ 2 ^ (64 + double.unitPlaces)) (hm : 0 < m) :
    double.nearestCode (units * double.one) (unitsOf m) < double.infinityCode ∧
      double.units (double.nearestCode (units * double.one) (unitsOf m)) ≤
        2 ^ (64 + double.unitPlaces) := by
  have hplaces : 64 + double.unitPlaces = 52 + 1086 := rfl
  rw [hplaces] at hunits ⊢
  exact nearestCode_double_le (unitsOf_pos hm) (by decide)
    (Nat.mul_le_mul hunits (one_le_unitsOf hm))

/-- What is read with a positive exponent. -/
theorem magnitude?_natCast (hn : n ≤ maxSignificand) {e : Nat} (he : e ≤ 308) :
    magnitude? n e =
      let x : Double := .ofUnits false (unitsOf n * unitsOf (10 ^ e)) double.one
      if x.isFinite then some x else none := by
  rw [magnitude?, if_neg (by omega), if_neg (by omega), Int.toNat_natCast,
    powerOfTen_eq (by omega), ofNat_mul_ofNat (fits_significand hn) (fits_ten_pow he)]

/-- A quotient by a power of ten that is finite. -/
theorem divideDown_eq (steps : Nat) {negative : Bool} {code : Nat}
    {hle : code ≤ double.infinityCode} (hcode : code < double.infinityCode) {k : Nat}
    (hk : k ≤ 308) :
    divideDown steps (.number negative code hle) k =
      .ofUnits negative (double.units code * double.one) (unitsOf (10 ^ k)) := by
  have hstep : divideDown steps (.number negative code hle) k =
      .number negative code hle / powerOfTen k := by
    cases steps with
    | zero => rfl
    | succ steps => rw [divideDown, if_pos hk]
  rw [hstep, powerOfTen_eq (by omega),
    number_div_ofNat hcode (by positivity) (fits_ten_pow hk)]

/-- What is read with a negative exponent: a quotient. -/
theorem magnitude?_neg (hn : n ≤ maxSignificand) {k : Nat} (hpos : 0 < k) (hk : k ≤ 308) :
    magnitude? n (-k) =
      some (.ofUnits false (unitsOf n * double.one) (unitsOf (10 ^ k))) := by
  rw [magnitude?, if_pos (by omega), Int.neg_neg, Int.toNat_natCast]
  exact congrArg some (divideDown_eq k (fits_significand hn) hk)

/-- The quotient of a significand by the greatest power of ten, in units. -/
def quotientOf (n : Nat) : Nat :=
  double.units (double.nearestCode (unitsOf n * double.one) largestPower)

/-- What is read below `10 ^ -308`: the quotient of a quotient. -/
theorem magnitude?_neg_add (hpos : 0 < n) (hn : n ≤ maxSignificand) {k : Nat} (hk : 0 < k)
    (hk' : k ≤ 308) :
    magnitude? n (-(308 + k : Nat)) =
      some (.ofUnits false (quotientOf n * double.one) (unitsOf (10 ^ k))) := by
  have hzero : (.ofNat n : Double).isZero = false :=
    beq_eq_false_iff_ne.2 (nearestCode_ne_zero hpos)
  have hfirst : (.ofNat n / powerOfTen 308 : Double) =
      .ofUnits false (unitsOf n * double.one) (unitsOf (10 ^ 308)) := by
    rw [powerOfTen_eq (by omega)]
    exact number_div_ofNat (fits_significand hn) (by positivity) (fits_ten_pow (Nat.le_refl _))
  rw [magnitude?, if_pos (by omega), Int.neg_neg, Int.toNat_natCast,
    show 308 + k = 307 + k + 1 by omega, divideDown, if_neg (by omega), hzero,
    if_neg Bool.false_ne_true, hfirst, show 307 + k + 1 - 308 = k by omega]
  exact congrArg some (divideDown_eq _ (quotient_le (unitsOf_le hn) (by positivity)).1 hk')

end Magnitudes

/-! ## Decimals -/

section Decimals

variable {n k : Nat}

/-- Quotients that are the same but for some roundings are rounded to numbers that are as many steps
apart at most. -/
theorem near_of_close {roundings num den num' den' : Nat} (hden : 0 < den) (hden' : 0 < den')
    (hfinite : double.nearestCode num' den' < double.infinityCode)
    (h : double.Close roundings (num * den') (num' * den)) :
    Binary.Near roundings (.ofUnits false num' den' : Double) (.ofUnits false num den) :=
  have hnear := h.nearestCode hden hden' hfinite
  ⟨rfl, hnear.2, hnear.1⟩

/-- The product collects the roundings of its factors. -/
theorem close_product (hpos : 0 < n) (hn : n ≤ maxSignificand) (hk : k ≤ 308) :
    double.Close ((if unitsOf n = n * double.one then 0 else 1) + if k ≤ 22 then 0 else 1)
      (unitsOf n * unitsOf (10 ^ k) * 1) (n * 10 ^ k * double.one * double.one) := by
  have hclose := (close_significand hpos hn).mul (close_power hk)
  rwa [Nat.mul_one, Nat.mul_right_comm n, Nat.mul_assoc (n * double.one)]

/-- The quotient collects the roundings of its two parts. -/
theorem close_quotient (hpos : 0 < n) (hn : n ≤ maxSignificand) (hk : k ≤ 308) :
    double.Close ((if unitsOf n = n * double.one then 0 else 1) + if k ≤ 22 then 0 else 1)
      (unitsOf n * double.one * 10 ^ k) (n * double.one * unitsOf (10 ^ k)) := by
  have hclose := (close_significand hpos hn).mul (close_power hk).symm
  rwa [Nat.mul_comm (10 ^ k), ← Nat.mul_assoc] at hclose

/-- The first of two divisions leaves all bits of a significand unless this is one or two. -/
theorem close_quotientOf (hthree : 3 ≤ n) (hn : n ≤ maxSignificand) :
    double.Close 1 (quotientOf n * largestPower) (unitsOf n * double.one) := by
  have hsmallest : 2 ^ double.fractionBits * largestPower ≤ unitsOf 3 * double.one := by
    decide +kernel
  exact Format.close_units_nearestCode largestPower_pos
    (hsmallest.trans (Nat.mul_le_mul_right _ (unitsOf_mono hthree)))
    (quotient_le (unitsOf_le hn) (by positivity)).1

/-- With two divisions there is one rounding more, as long as the first quotient has room for all
bits of a significand. -/
theorem close_quotients (hthree : 3 ≤ n) (hn : n ≤ maxSignificand) (hk : k ≤ 22) :
    double.Close ((if unitsOf n = n * double.one then 0 else 1) + 1 + 1)
      (quotientOf n * double.one * 10 ^ (308 + k)) (n * double.one * unitsOf (10 ^ k)) := by
  have hunits : 0 < unitsOf n * double.one :=
    Nat.mul_pos (unitsOf_pos (by omega)) double.one_pos
  have hfirst := close_quotient (show 0 < n by omega) hn (Nat.le_refl 308)
  rw [← largestPower, if_neg (show ¬ 308 ≤ 22 by decide)] at hfirst
  have hclose := hfirst.quotient hunits largestPower_pos (close_quotientOf hthree hn)
  have hscale : 0 < double.one * 10 ^ k := Nat.mul_pos double.one_pos (by positivity)
  rw [unitsOf_ten_pow hk, Nat.pow_add, Nat.mul_mul_mul_comm, Nat.mul_comm (10 ^ k)]
  exact (Format.close_mul_right_iff hscale).2 hclose

/-- The other significands are at most two, so this is a matter of some fifty decimals. -/
theorem near_quotients_of_lt (hn : n < 3) (hk : k < 17) :
    let code := double.nearestCode (quotientOf n * double.one) (unitsOf (10 ^ k))
    let nearest := double.nearestCode (n * double.one) (10 ^ (308 + k))
    nearest ≤ code + 2 ∧ code ≤ nearest + 2 := by
  have hall : ∀ n < 3, ∀ k < 17,
      let code := double.nearestCode (quotientOf n * double.one) (unitsOf (10 ^ k))
      let nearest := double.nearestCode (n * double.one) (10 ^ (308 + k))
      nearest ≤ code + 2 ∧ code ≤ nearest + 2 := by decide +kernel
  exact hall n hn k hk

/-- Two divisions move a quotient by so many numbers at most. -/
theorem near_quotients (hpos : 0 < n) (hn : n ≤ maxSignificand) (hk : k < 17)
    (hfinite : double.nearestCode (n * double.one) (10 ^ (308 + k)) < double.infinityCode) :
    Binary.Near ((if unitsOf n = n * double.one then 0 else 1) + 1 + 1)
      (.ofUnits false (n * double.one) (10 ^ (308 + k)) : Double)
      (.ofUnits false (quotientOf n * double.one) (unitsOf (10 ^ k))) := by
  rcases Nat.lt_or_ge n 3 with hlt | hge
  · rw [if_pos (unitsOf_eq_of_lt (show n < 2 ^ 53 by omega))]
    exact ⟨rfl, near_quotients_of_lt hlt hk⟩
  · exact near_of_close (unitsOf_pos (by positivity)) (by positivity) hfinite
      (close_quotients hge hn (by omega))

/-- What is read of a decimal is the number next to it up to as many numbers as there are roundings
before the last one, unless it is not finite any more.  Small numbers stay finite. -/
def ReadsNear (s : Scientific) : Prop :=
  ∃ x : Double, magnitude? s.significand s.exponent = (if x.isFinite then some x else none) ∧
    Binary.Near (roundings s) (.ofUnits false (s.num double) s.den) x ∧
    (s.exponent < 0 → x.isFinite = true)

/-- With a positive exponent, `readsNear` comes from the product. -/
theorem readsNear_natCast (hpos : 0 < n) (hn : n ≤ maxSignificand) (hk : k ≤ 308)
    (hfinite : double.nearestCode (n * 10 ^ k * double.one) 1 < double.infinityCode) :
    ReadsNear ⟨n, k⟩ := by
  have hroundings : roundings ⟨n, k⟩ =
      (if unitsOf n = n * double.one then 0 else 1) + if k ≤ 22 then 0 else 1 := by simp [roundings]
  refine ⟨_, magnitude?_natCast hn hk, ?_, fun hneg => absurd hneg (by simp)⟩
  rw [Scientific.num_natCast, Scientific.den_natCast, hroundings]
  exact near_of_close double.one_pos Nat.one_pos hfinite (close_product hpos hn hk)

/-- With a negative exponent, it comes from the quotient. -/
theorem readsNear_neg (hpos : 0 < n) (hn : n ≤ maxSignificand) (hk : 0 < k) (hk' : k ≤ 308)
    (hfinite : double.nearestCode (n * double.one) (10 ^ k) < double.infinityCode) :
    ReadsNear ⟨n, -k⟩ := by
  have hroundings : roundings ⟨n, -k⟩ =
      (if unitsOf n = n * double.one then 0 else 1) + if k ≤ 22 then 0 else 1 := by
    have htwice : ¬ (-k : Int) < -308 := by omega
    simp [roundings, htwice]
  have hquotient := quotient_le (unitsOf_le hn) (show 0 < 10 ^ k by positivity)
  refine ⟨.ofUnits false (unitsOf n * double.one) (unitsOf (10 ^ k)), ?_, ?_,
    fun _ => decide_eq_true hquotient.1⟩
  · rw [magnitude?_neg hn hk hk']
    exact (if_pos (decide_eq_true hquotient.1)).symm
  · rw [Scientific.num_neg_natCast, Scientific.den_neg_natCast, hroundings]
    exact near_of_close (unitsOf_pos (by positivity)) (by positivity) hfinite
      (close_quotient hpos hn hk')

/-- Below `10 ^ -308`, it comes from two quotients. -/
theorem readsNear_neg_add (hpos : 0 < n) (hn : n ≤ maxSignificand) (hk : 0 < k) (hk' : k < 17)
    (hfinite : double.nearestCode (n * double.one) (10 ^ (308 + k)) < double.infinityCode) :
    ReadsNear ⟨n, -(308 + k : Nat)⟩ := by
  have hroundings : roundings ⟨n, -(308 + k : Nat)⟩ =
      (if unitsOf n = n * double.one then 0 else 1) + 1 + 1 := by
    have hpower : ¬ 308 + k ≤ 22 := by omega
    have htwice : (-(308 + k : Nat) : Int) < -308 := by omega
    simp only [roundings, Int.natAbs_neg, Int.natAbs_natCast, if_neg hpower,
      if_pos htwice]
  have hquotient := quotient_le (quotient_le (unitsOf_le hn) (show 0 < 10 ^ 308 by positivity)).2
    (show 0 < 10 ^ k by positivity)
  refine ⟨.ofUnits false (quotientOf n * double.one) (unitsOf (10 ^ k)), ?_, ?_,
    fun _ => decide_eq_true hquotient.1⟩
  · rw [magnitude?_neg_add hpos hn hk (by omega)]
    exact (if_pos (decide_eq_true hquotient.1)).symm
  · rw [Scientific.num_neg_natCast, Scientific.den_neg_natCast, hroundings]
    exact near_quotients hpos hn hk' hfinite

/-- **Decimals are read up to roundings** if their exponents are those of numbers. -/
theorem readsNear {s : Scientific} (hpos : 0 < s.significand)
    (hle : s.significand ≤ maxSignificand) (hlow : -324 ≤ s.exponent) (hhigh : s.exponent ≤ 308)
    (hfinite : s.nearest double < double.infinityCode) : ReadsNear s := by
  obtain ⟨n, exponent⟩ := s
  dsimp only at hpos hle hlow hhigh
  rw [Scientific.nearest] at hfinite
  rcases Int.lt_or_le exponent 0 with hneg | hnonneg
  · obtain ⟨k, rfl⟩ := Int.exists_eq_neg_ofNat hneg.le
    rw [Scientific.num_neg_natCast, Scientific.den_neg_natCast] at hfinite
    rcases Nat.lt_or_ge 308 k with hgt | hle'
    · obtain ⟨r, rfl⟩ := Nat.exists_eq_add_of_le hgt.le
      exact readsNear_neg_add hpos hle (by omega) (by omega) hfinite
    · exact readsNear_neg hpos hle (by omega) hle' hfinite
  · obtain ⟨k, rfl⟩ := Int.eq_ofNat_of_zero_le hnonneg
    rw [Scientific.num_natCast, Scientific.den_natCast] at hfinite
    exact readsNear_natCast hpos hle (by omega) hfinite

end Decimals

end Json

end SpikeWatch
