import SpikeWatch.Proofs.Json.Decimals
import SpikeWatch.Proofs.Json.Precision

/-!
# Numbers that were written

A finite number is written as a decimal that is rounded to it.  Reading it rounds more than once, so
it does not always come back: `Scientific.ofDouble` is the decimal that is written, its `roundings`
say how far away what is read may be, and without any the number itself is read.

* `ofCode_double` says that the decimal of a number has room where decimals are read.
* `Reads.readDouble` says what is read of a finite number, and `roundings_ofDouble_ofInt` that whole
  numbers up to fifteen digits and beyond are among those that come back.
-/

set_option autoImplicit false

namespace SpikeWatch

/-! ## The decimal of a number -/

namespace Decimal.Scientific

/-- The decimal that is written for a number, whatever its sign. -/
def ofDouble : Double → Scientific
  | .nan => ⟨0, -1⟩
  | .number _ code _ => if code = 0 then ⟨0, -1⟩ else (ofCode .double .toEven code).written

variable {code : Nat}

/-- `10 ^ 309` is beyond all numbers. -/
theorem exponent_le_of_nearest {s : Scientific} (hpos : 0 < s.significand)
    (h : s.nearest .double < Format.double.infinityCode) : s.exponent ≤ 308 := by
  by_contra hlarge
  obtain ⟨n, exponent⟩ := s
  dsimp only at hpos hlarge
  obtain ⟨k, rfl⟩ := Int.eq_ofNat_of_zero_le (show 0 ≤ exponent by omega)
  rw [nearest, num_natCast, den_natCast] at h
  have hpower : 10 ^ 309 ≤ n * 10 ^ k := by
    refine le_trans ?_ (Nat.le_mul_of_pos_left _ hpos)
    gcongr
    · decide
    · omega
  have hbeyond : 2 ^ (52 + 2046) * 1 ≤ 10 ^ 309 * Format.double.one := by decide +kernel
  have hcode := le_nearestCode_double Nat.one_pos (hbeyond.trans (Nat.mul_le_mul_right _ hpower))
  exact absurd h (Nat.not_lt.2 hcode)

/-- The shortest decimal of a number has room where decimals are read. -/
theorem ofCode_double (hpos : 0 < code) (hcode : code < Format.double.infinityCode) :
    let s := ofCode .double .toEven code
    0 < s.significand ∧ s.significand ≤ Json.maxSignificand ∧ -324 ≤ s.exponent ∧
      s.exponent ≤ 308 ∧ s.nearest .double = code := by
  obtain ⟨hnearest, hsignificand⟩ := nearest_ofCode .double .toEven hpos hcode
  refine ⟨hsignificand, (significand_ofCode_le .double .toEven hpos).trans (by decide), ?_,
    exponent_le_of_nearest hsignificand (hnearest.symm ▸ hcode), hnearest⟩
  have hplaces : Format.double.unitPlaces = 1074 := rfl
  have hexponent := le_exponent_ofCode .double .toEven hpos (p := 751) (by decide +kernel)
  rw [hplaces] at hexponent
  omega

/-- What is read of a number that was written. -/
theorem readsNear_written (hpos : 0 < code) (hcode : code < Format.double.infinityCode) :
    (ofCode .double .toEven code).written.nearest .double = code ∧
      Json.ReadsNear (ofCode .double .toEven code).written := by
  obtain ⟨hsignificand, hroom, hlow, hhigh, hnearest⟩ := ofCode_double hpos hcode
  have hwritten := (nearest_written .double (ofCode .double .toEven code)).trans hnearest
  have hexponent := exponent_written (ofCode .double .toEven code)
  exact ⟨hwritten, Json.readsNear (written_pos hsignificand) (significand_written_le hroom)
    (by omega) (by omega) (hwritten.symm ▸ hcode)⟩

end Decimal.Scientific

namespace Json

open Decimal (Scientific)
open Grammar

section Written

variable {negative : Bool} {code : Nat} {hle : code ≤ Format.double.infinityCode}

/-- The text of a number without its sign. -/
def writeMagnitude (code : Nat) : List Char :=
  if code = 0 then ['0', '.', '0'] else (Scientific.ofCode .double .toEven code).layOut .exchange

/-- A finite number is written with its sign, if it has one. -/
theorem writeDouble_number (hcode : code < Format.double.infinityCode) :
    writeDouble (.number negative code hle) =
      if negative then '-' :: writeMagnitude code else writeMagnitude code := by
  rw [writeDouble, Binary.layOut, writeMagnitude]
  simp only [if_neg hcode.ne, hcode, true_or, and_true]
  rfl

/-- **What is written for a finite number is a number of the grammar.** -/
theorem exists_numberText (hcode : code < Format.double.infinityCode) :
    let s := Scientific.ofDouble (.number negative code hle)
    ∃ t : NumberText, t.chars = writeDouble (.number negative code hle) ∧
      t.numeral? = (magnitude? s.significand s.exponent).map (signed negative) := by
  have hspells : NumberText.Spells negative (writeMagnitude code)
      (Scientific.ofDouble (.number negative code hle)) := by
    rw [writeMagnitude, Scientific.ofDouble]
    split
    · exact NumberText.spells_positional negative (List.cons_ne_nil '0' [])
        (List.cons_ne_nil '0' []) rfl (fun _ => rfl) rfl (Nat.zero_le _)
    · next hzero =>
      obtain ⟨hpos, hroom, hlow, hhigh, -⟩ :=
        Scientific.ofCode_double (Nat.pos_of_ne_zero hzero) hcode
      refine NumberText.spells_layOut negative hpos hroom ?_
      have hlength := Scientific.length_digits_le hroom
      rw [Scientific.leadingExponent, maxExponent]
      omega
  obtain ⟨t, hnegative, hchars, hvalue⟩ := hspells
  exact ⟨t, by rw [NumberText.chars, hnegative, hchars, writeDouble_number hcode], hvalue⟩

/-- The two largest numbers are read as numbers, although there may be roundings. -/
theorem isSome_magnitude?_largest (hlarge : Format.double.infinityCode ≤ code + 2)
    (hcode : code < Format.double.infinityCode) :
    let s := (Scientific.ofCode .double .toEven code).written
    (magnitude? s.significand s.exponent).isSome = true := by
  have hcases : code = Format.double.infinityCode - 1 ∨ code = Format.double.infinityCode - 2 := by
    omega
  rcases hcases with rfl | rfl <;> decide +kernel

/-- With a positive exponent, there are two roundings at most. -/
theorem roundings_le_two {s : Scientific} (h : 0 ≤ s.exponent) : roundings s ≤ 2 := by
  rw [roundings, if_neg (show ¬ s.exponent < -308 by omega)]
  split_ifs <;> omega

/-- The magnitude of what is written for a positive number. -/
theorem exists_magnitude? (hpos : 0 < code) (hcode : code < Format.double.infinityCode) :
    let s := (Scientific.ofCode .double .toEven code).written
    ∃ read : Nat, ∃ h : read < Format.double.infinityCode,
      magnitude? s.significand s.exponent = some (.number false read h.le) ∧
        code ≤ read + roundings s ∧ read ≤ code + roundings s := by
  obtain ⟨hnearest, x, hvalue, hnear, hneg⟩ := Scientific.readsNear_written hpos hcode
  have hlargest (hlarge : Format.double.infinityCode ≤ code + 2) :=
    isSome_magnitude?_largest hlarge hcode
  generalize (Scientific.ofCode .double .toEven code).written = s at *
  match x, hnear with
  | .number false read hle, hnear =>
    have hnear : code ≤ read + roundings s ∧ read ≤ code + roundings s := hnearest ▸ hnear.2
    have hfinite : read < Format.double.infinityCode := by
      -- A quotient is always finite.  A product near the end of the range might not be, but the
      -- few numbers there are settled by `isSome_magnitude?_largest`.
      rcases Int.lt_or_le s.exponent 0 with hneg' | hnonneg
      · exact of_decide_eq_true (hneg hneg')
      · by_contra hinfinite
        have hroundings := roundings_le_two hnonneg
        have hsome : (magnitude? s.significand s.exponent).isSome = true :=
          hlargest (by omega)
        have hinfinite : ¬ (Binary.number false read hle).isFinite = true := by
          rwa [Binary.isFinite, decide_eq_true_eq]
        rw [hvalue, if_neg hinfinite] at hsome
        cases hsome
    exact ⟨read, hfinite, hvalue.trans (if_pos (decide_eq_true hfinite)), hnear⟩

/-- The decimal of a finite number is read, and what is read is away from this number by its
roundings at most. -/
theorem exists_magnitude?_ofDouble (hcode : code < Format.double.infinityCode) :
    let s := Scientific.ofDouble (.number negative code hle)
    ∃ read : Nat, ∃ h : read < Format.double.infinityCode,
      magnitude? s.significand s.exponent = some (.number false read h.le) ∧
        code ≤ read + roundings s ∧ read ≤ code + roundings s := by
  rw [Scientific.ofDouble]
  split
  · next hzero => exact ⟨0, by decide, by decide +kernel, by omega, by omega⟩
  · next hzero => exact exists_magnitude? (Nat.pos_of_ne_zero hzero) hcode

/-- Without roundings of the significand and of the power of ten, there are none. -/
theorem roundings_eq_zero {s : Scientific}
    (hsignificand : unitsOf s.significand = s.significand * Format.double.one)
    (hexponent : s.exponent.natAbs ≤ 22) : roundings s = 0 := by
  rw [roundings, if_pos hsignificand, if_pos hexponent,
    if_neg (show ¬ s.exponent < -308 by omega)]

/-- A whole decimal, as it is written. -/
theorem roundings_written {s : Scientific} (hpos : 0 < s.significand) {m : Nat}
    (hm : 5 * m < 2 ^ 53) (hle : s.significand * 10 ^ s.exponent.toNat ≤ m)
    (hnonneg : 0 ≤ s.exponent) : roundings s.written = 0 := by
  have hfactor : s.significand ≤ s.significand * 10 ^ s.exponent.toNat :=
    Nat.le_mul_of_pos_right _ (by positivity)
  have hpower := Nat.le_mul_of_pos_left (10 ^ s.exponent.toNat) hpos
  rw [Scientific.written]
  split
  · -- the zero behind the point brings a factor two
    have hten : s.significand * 10 ^ (s.exponent.toNat + 1) =
        5 * (s.significand * 10 ^ s.exponent.toNat) * 2 ^ 1 := by
      rw [Nat.pow_succ]
      ring
    refine roundings_eq_zero ?_ (show Int.natAbs (-1) ≤ 22 by decide)
    rw [hten]
    exact unitsOf_eq (by omega) (fits_significand (show _ ≤ 2 ^ 64 - 1 by omega))
  · refine roundings_eq_zero (unitsOf_eq_of_lt (by omega)) ?_
    have hlt : 10 ^ s.exponent.toNat < 10 ^ 22 :=
      ((hpower.trans hle).trans_lt (by omega : m < 2 ^ 53)).trans (by decide)
    have := (Nat.pow_lt_pow_iff_right (by decide)).1 hlt
    omega

/-- **Whole numbers are written without a need to round**, up to fifteen digits and beyond. -/
theorem roundings_ofDouble_ofInt {n : Int} (hn : 5 * n.natAbs < 2 ^ 53) :
    roundings (Scientific.ofDouble (.ofInt n)) = 0 := by
  have hroom : n.natAbs < 2 ^ 53 := by omega
  have hunits : Format.double.units (Format.double.nearestCode (n.natAbs * Format.double.one) 1) =
      n.natAbs * Format.double.one := unitsOf_eq_of_lt hroom
  have hcode := fits_significand (hroom.le.trans (show 2 ^ 53 ≤ maxSignificand by decide))
  rw [Fits] at hcode
  rw [Binary.ofInt, Binary.ofUnits, Scientific.ofDouble]
  generalize Format.double.nearestCode (n.natAbs * Format.double.one) 1 = code at hunits hcode
  split
  · exact roundings_eq_zero (unitsOf_eq_of_lt (by decide)) (by decide)
  · next hzero =>
    have hpos := Nat.pos_of_ne_zero hzero
    obtain ⟨hnonneg, hle⟩ := Scientific.ofCode_whole .double .toEven hpos hroom hunits
    exact roundings_written (Scientific.ofCode_double hpos hcode).1 hn hle hnonneg

end Written

/-- What is near by no roundings is the same. -/
theorem eq_of_near_zero {x y : Double} (h : Binary.Near 0 x y) : y = x := by
  match x, y, h with
  | .number negative code hle, .number negative' code' hle', h =>
    obtain ⟨rfl, hle, hge⟩ := h
    obtain rfl : code' = code := Nat.le_antisymm hge hle
    rfl

/-- What is read of a finite number that was written. -/
structure ReadBack (x y : Double) : Prop where
  isFinite : y.isFinite = true
  /-- It has the same sign, and with each rounding besides the last one it may be one number farther
  away. -/
  near : Binary.Near (roundings (Scientific.ofDouble x)) x y
  /-- Without such a rounding it is the number itself. -/
  eq_of_roundings : roundings (Scientific.ofDouble x) = 0 → y = x
  /-- Whole numbers need none up to fifteen digits, and a little beyond. -/
  eq_of_ofInt : ∀ n : Int, 5 * n.natAbs < 2 ^ 53 → x = .ofInt n → y = x

variable {x y : Double}

theorem ReadBack.of_near (hfinite : y.isFinite = true)
    (hnear : Binary.Near (roundings (Scientific.ofDouble x)) x y) : ReadBack x y where
  isFinite := hfinite
  near := hnear
  eq_of_roundings hroundings := eq_of_near_zero (hroundings ▸ hnear)
  eq_of_ofInt n hn hx := by
    rw [hx, roundings_ofDouble_ofInt hn, ← hx] at hnear
    exact eq_of_near_zero hnear

/-- **Numbers are read back** up to roundings. -/
theorem Reads.readDouble (h : x.isFinite = true) :
    ∃ y, Reads Json.readDouble (writeDouble x) (some y) ∧ ReadBack x y := by
  match x, h with
  | .number negative code hle, h =>
    have hcode : code < Format.double.infinityCode := of_decide_eq_true h
    obtain ⟨t, hchars, hvalue⟩ : ∃ t : NumberText, _ := exists_numberText hcode
    obtain ⟨read, hread, hmagnitude, hnear⟩ := exists_magnitude?_ofDouble hcode
    rw [hmagnitude, Option.map_some] at hvalue
    refine ⟨.number negative read hread.le, hchars ▸ Reads.readNumeral t hvalue ?_,
      .of_near (decide_eq_true hread) ⟨rfl, hnear⟩⟩
    cases negative <;> rfl

end Json

end SpikeWatch
