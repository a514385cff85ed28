import SpikeWatch.Decimal.Shortest
import SpikeWatch.Proofs.Binary.Neighbours
import SpikeWatch.Proofs.Decimal.Digits

/-!
# The shortest decimal is a decimal of its number

The search for the shortest decimal of a number goes from coarse grids to fine ones and takes the
first point between the two points half-way to the neighbours.  So what it finds is rounded to that
number, and is not much longer than it has to be.

Neither the grids nor the order in which they are tried matter for the first of these, since the
interval is what decides.  They matter for how long the decimal is: a point of a grid with step `10
^ k` ends in `k` zeros, which are not written.

* `Interval.shortest_spec` is what the search gives for any interval.
* `Scientific.nearest` is the code to which a decimal is rounded, and `Scientific.nearest_ofCode`
  says that the shortest decimal of a code is rounded to it.
* `Scientific.significand_ofCode_le` and `Scientific.le_exponent_ofCode` bound its parts, and
  `Scientific.ofCode_whole` says that it is whole for whole numbers.
-/

set_option autoImplicit false

namespace SpikeWatch.Decimal

/-! ## The search -/

namespace Interval

variable {i : Interval} {tie : Tie} {n step : Nat}

/-- An interval contains its ends just if it is closed. -/
theorem contains_iff : i.contains n = true ↔
    i.low ≤ n ∧ n ≤ i.high ∧ (n = i.low ∨ n = i.high → i.closed = true) := by
  rw [contains]
  cases hclosed : i.closed with
  | true => simp
  | false =>
    simp
    omega

/-- What is found on a grid is in the interval, and is one of the two points around its middle. -/
theorem nearestMultiple?_spec (h : i.nearestMultiple? tie step = some n) :
    i.contains (n * step) = true ∧ n ≤ i.middle / step + 1 := by
  cases hbelow : i.contains (i.middle / step * step) <;>
    cases habove : i.contains ((i.middle / step + 1) * step) <;>
    simp only [nearestMultiple?, hbelow, habove] at h
  case false.false => cases h
  case true.false =>
    cases h
    exact ⟨hbelow, Nat.le_succ _⟩
  case false.true =>
    cases h
    exact ⟨habove, Nat.le_refl _⟩
  case true.true =>
    have hcases : n = i.middle / step ∨ n = i.middle / step + 1 := by
      cases tie <;> dsimp only at h <;> split_ifs at h <;> cases h <;> simp
    rcases hcases with rfl | rfl
    · exact ⟨hbelow, Nat.le_succ _⟩
    · exact ⟨habove, Nat.le_refl _⟩

/-- If nothing is found on a grid, neither of these two points is in the interval. -/
theorem not_contains_of_nearestMultiple?_eq_none (h : i.nearestMultiple? tie step = none) :
    i.contains (i.middle / step * step) = false ∧
      i.contains ((i.middle / step + 1) * step) = false := by
  cases hbelow : i.contains (i.middle / step * step) <;>
    cases habove : i.contains ((i.middle / step + 1) * step) <;>
    simp only [nearestMultiple?, hbelow, habove] at h
  case false.false => exact ⟨rfl, rfl⟩
  case true.false => cases h
  case false.true => cases h
  case true.true =>
    cases tie <;> dsimp only at h <;> split_ifs at h

/-- The middle lies inside, and so do all points between it and the ends. -/
structure IsProper (i : Interval) : Prop where
  low_lt : i.low < i.middle
  lt_high : i.middle < i.high

/-- On a grid without a point inside, the ends lie between two neighbouring points. -/
theorem width_le_of_nearestMultiple?_eq_none (hproper : i.IsProper) (hstep : 0 < step)
    (h : i.nearestMultiple? tie step = none) : i.high ≤ i.low + step := by
  obtain ⟨hbefore, hbehind⟩ := hproper
  obtain ⟨hbelow, habove⟩ := not_contains_of_nearestMultiple?_eq_none h
  have hmiddle := Nat.div_add_mod i.middle step
  have hrest := Nat.mod_lt i.middle hstep
  rw [← Bool.not_eq_true, contains_iff] at hbelow habove
  have hexpand : (i.middle / step + 1) * step = step * (i.middle / step) + step := by ring
  rw [hexpand] at habove
  rw [Nat.mul_comm] at hbelow
  have hlow : step * (i.middle / step) ≤ i.low := by
    by_contra hlt
    exact hbelow ⟨by omega, by omega, by omega⟩
  have hhigh : i.high ≤ step * (i.middle / step) + step := by
    by_contra hlt
    exact habove ⟨by omega, by omega, by omega⟩
  omega

/-- A grid that has the middle on it finds something.  So the search always ends, at the latest with
the finest grid. -/
theorem isSome_nearestMultiple?_of_dvd (hproper : i.IsProper) (h : step ∣ i.middle) :
    (i.nearestMultiple? tie step).isSome = true := by
  by_contra hnone
  rw [Bool.not_eq_true, Option.isSome_eq_false_iff, Option.isNone_iff_eq_none] at hnone
  have hbelow := (not_contains_of_nearestMultiple?_eq_none hnone).1
  rw [Nat.div_mul_cancel h, ← Bool.not_eq_true, contains_iff] at hbelow
  obtain ⟨hlow, hhigh⟩ := hproper
  exact hbelow ⟨by omega, by omega, by omega⟩

/-- **What the search finds.**  It is inside; it is the first point from the middle on its grid; and
on the next coarser grid, if that was looked at, there is none. -/
theorem shortest_spec (hproper : i.IsProper) (tie : Tie) (power : Nat) :
    let found := i.shortest tie power
    i.contains (found.1 * 10 ^ found.2) = true ∧ found.1 ≤ i.middle / 10 ^ found.2 + 1 ∧
      found.2 ≤ power ∧
      (found.2 < power → i.nearestMultiple? tie (10 ^ (found.2 + 1)) = none) ∧
      ∀ p ≤ power, (i.nearestMultiple? tie (10 ^ p)).isSome = true → p ≤ found.2 := by
  induction power with
  | zero =>
    obtain ⟨hlow, hhigh⟩ := hproper
    have hinside : i.contains i.middle = true := contains_iff.2 ⟨by omega, by omega, by omega⟩
    simp only [shortest]
    exact ⟨by simpa using hinside, by simp, Nat.le_refl 0, by simp, fun p hp _ => hp⟩
  | succ power ih =>
    simp only [shortest, Nat.pow_eq]
    cases hfound : i.nearestMultiple? tie (10 ^ (power + 1)) with
    | some n =>
      obtain ⟨hinside, hle⟩ := nearestMultiple?_spec hfound
      exact ⟨hinside, hle, Nat.le_refl _, fun h => absurd h (lt_irrefl _), fun p hp _ => hp⟩
    | none =>
      -- Nothing was found on this grid, so the finer ones decide.
      obtain ⟨hinside, hle, hpower, hnone, hfirst⟩ := ih
      refine ⟨hinside, hle, Nat.le_succ_of_le hpower, fun _ => ?_, fun p hp hsome => ?_⟩
      · rcases Nat.eq_or_lt_of_le hpower with heq | hlt
        · dsimp only
          rwa [heq]
        · exact hnone hlt
      · rcases Nat.eq_or_lt_of_le hp with rfl | hlt
        · rw [hfound] at hsome
          cases hsome
        · exact hfirst p (Nat.le_of_lt_succ hlt) hsome

end Interval

/-! ## What decimals are rounded to -/

namespace Scientific

variable (F : Format)

/-- A decimal in units is the quotient of this and `den`. -/
def num (s : Scientific) : Nat := s.significand * 10 ^ s.exponent.toNat * F.one

@[inherit_doc num]
def den (s : Scientific) : Nat := 10 ^ (-s.exponent).toNat

/-- The denominator is positive, so there always is a quotient to round. -/
theorem den_pos (s : Scientific) : 0 < s.den := by
  rw [den]
  positivity

/-- Numerators and denominators, for exponents with either sign. -/
@[simp] theorem num_natCast (n k : Nat) : num F ⟨n, k⟩ = n * 10 ^ k * F.one := by simp [num]

@[simp] theorem den_natCast (n k : Nat) : den ⟨n, k⟩ = 1 := by simp [den]

@[simp] theorem num_neg_natCast (n k : Nat) : num F ⟨n, -k⟩ = n * F.one := by simp [num]

@[simp] theorem den_neg_natCast (n k : Nat) : den ⟨n, -k⟩ = 10 ^ k := by simp [den]

/-- The code to which a decimal is rounded. -/
def nearest (s : Scientific) : Nat := F.nearestCode (s.num F) s.den

/-- Zeros at the end of the significand do not matter. -/
theorem nearest_mul_ten (n : Nat) (e : Int) :
    nearest F ⟨n * 10, e⟩ = nearest F ⟨n, e + 1⟩ := by
  rw [nearest, nearest]
  rcases lt_or_ge e 0 with hneg | hpos
  · obtain ⟨k, hk⟩ := Int.exists_eq_neg_ofNat (show e + 1 ≤ 0 by omega)
    obtain rfl : e = -(k + 1 : Nat) := by omega
    rw [hk, num_neg_natCast, den_neg_natCast, num_neg_natCast, den_neg_natCast, Nat.pow_succ,
      Nat.mul_right_comm, F.nearestCode_mul_right _ _ (by omega)]
  · obtain ⟨k, rfl⟩ := Int.eq_ofNat_of_zero_le hpos
    rw [← Int.natCast_succ, num_natCast, den_natCast, num_natCast, den_natCast, Nat.pow_succ',
      Nat.mul_assoc n]

/-- Zeros that are left out at the end move into the exponent, and the number stays the same. -/
theorem stripZeros_spec (fuel : Nat) (s : Scientific) (hpos : 0 < s.significand) :
    (stripZeros fuel s).nearest F = s.nearest F ∧ 0 < (stripZeros fuel s).significand ∧
      (stripZeros fuel s).significand ≤ s.significand ∧
      s.exponent ≤ (stripZeros fuel s).exponent := by
  induction fuel generalizing s with
  | zero => exact ⟨rfl, hpos, Nat.le_refl _, Int.le_refl _⟩
  | succ fuel ih =>
    rw [stripZeros]
    split
    · next hzero =>
      obtain ⟨hnearest, hpos', hle, hexponent⟩ :=
        ih ⟨s.significand / 10, s.exponent + 1⟩ (by dsimp only; omega)
      have hsplit : (⟨s.significand / 10 * 10, s.exponent⟩ : Scientific) = s := by
        rw [Nat.div_mul_cancel (Nat.dvd_of_mod_eq_zero hzero)]
      rw [← nearest_mul_ten, hsplit] at hnearest
      exact ⟨hnearest, hpos', hle.trans (Nat.div_le_self ..),
        (Int.le_add_one (Int.le_refl _)).trans hexponent⟩
    · exact ⟨rfl, hpos, Nat.le_refl _, Int.le_refl _⟩

/-- A whole number stays whole when its zeros are left out. -/
theorem stripZeros_whole (fuel : Nat) (s : Scientific) (h : 0 ≤ s.exponent) :
    (stripZeros fuel s).significand * 10 ^ (stripZeros fuel s).exponent.toNat =
      s.significand * 10 ^ s.exponent.toNat := by
  induction fuel generalizing s with
  | zero => rfl
  | succ fuel ih =>
    rw [stripZeros]
    split
    · next hzero =>
      rw [ih ⟨s.significand / 10, s.exponent + 1⟩ (Int.le_add_one h)]
      dsimp only
      rw [Int.toNat_add h (by decide), Int.toNat_one, Nat.pow_succ', ← Nat.mul_assoc,
        Nat.div_mul_cancel (Nat.dvd_of_mod_eq_zero hzero)]
    · rfl

end Scientific

/-! ## The interval of a code -/

section Codes

variable (F : Format) {code : Nat}

theorem five_pow_pos : 0 < 5 ^ (F.unitPlaces + 1) := by positivity

/-- Half a unit is a decimal: factors of five on both sides turn powers of two into powers of ten.
-/
theorem two_mul_one_mul : 2 * F.one * 5 ^ (F.unitPlaces + 1) = 10 ^ (F.unitPlaces + 1) := by
  rw [F.one_eq, ← Nat.pow_succ', ← Nat.mul_pow]

/-- The interval of a code has its middle inside. -/
theorem Interval.isProper_ofCode (hpos : 0 < code) : (Interval.ofCode F code).1.IsProper := by
  have hbefore := F.units_lt_succ (code - 1)
  rw [Nat.sub_add_cancel hpos] at hbefore
  have hbehind := F.units_lt_succ code
  refine ⟨Nat.mul_lt_mul_of_pos_right ?_ (five_pow_pos F),
    Nat.mul_lt_mul_of_pos_right ?_ (five_pow_pos F)⟩ <;> omega

/-- Zero is no shortest decimal of a positive number: the interval does not reach so far down. -/
theorem Interval.pos_of_contains_ofCode {n power : Nat} (hpos : 0 < code)
    (h : (Interval.ofCode F code).1.contains (n * 10 ^ power) = true) : 0 < n := by
  have hbefore := F.units_lt_succ (code - 1)
  rw [Nat.sub_add_cancel hpos] at hbefore
  have hlow : 0 < (Interval.ofCode F code).1.low := Nat.mul_pos (by omega) (five_pow_pos F)
  exact Nat.pos_of_mul_pos_right (hlow.trans_le (Interval.contains_iff.1 h).1)

/-- The interval is as wide as two units, and does not lie below that. -/
theorem Interval.two_mul_le_ofCode (hpos : 0 < code) :
    2 * 5 ^ (F.unitPlaces + 1) ≤ (Interval.ofCode F code).1.middle ∧
      (Interval.ofCode F code).1.low + 2 * 5 ^ (F.unitPlaces + 1) ≤
        (Interval.ofCode F code).1.high := by
  have hbefore := F.units_lt_succ (code - 1)
  rw [Nat.sub_add_cancel hpos] at hbefore
  have hbehind := F.units_lt_succ code
  change _ ≤ 2 * F.units code * 5 ^ _ ∧ (F.units (code - 1) + F.units code) * 5 ^ _ + _ ≤
    (F.units code + F.units (code + 1)) * 5 ^ _
  rw [← Nat.add_mul]
  exact ⟨Nat.mul_le_mul_right _ (by omega), Nat.mul_le_mul_right _ (by omega)⟩

/-- The interval is wide compared with where it lies. -/
theorem Interval.middle_ofCode_le {width : Nat}
    (h : (Interval.ofCode F code).1.high ≤ (Interval.ofCode F code).1.low + width) :
    (Interval.ofCode F code).1.middle ≤ 2 * 2 ^ (F.fractionBits + 1) * width := by
  have hbehind := Nat.mul_lt_mul_of_pos_right (F.units_succ code) (five_pow_pos F)
  have hbefore := Nat.mul_le_mul_right (5 ^ (F.unitPlaces + 1))
    (F.units_strictMono.monotone (Nat.sub_le code 1))
  change (F.units code + F.units (code + 1)) * 5 ^ _ ≤
    (F.units (code - 1) + F.units code) * 5 ^ _ + width at h
  change 2 * F.units code * 5 ^ _ ≤ _
  generalize 5 ^ (F.unitPlaces + 1) = scale at hbehind hbefore h ⊢
  generalize 2 ^ (F.fractionBits + 1) = bit at hbehind ⊢
  have hwidth : F.units (code + 1) * scale ≤ F.units code * scale + width := by
    rw [Nat.add_mul, Nat.add_mul] at h
    omega
  have hscaled := Nat.mul_le_mul_left bit hwidth
  nlinarith only [hscaled, hbehind]

/-- A point on the scale of the interval, as a quotient of units. -/
theorem Scientific.two_mul_num (n power : Nat) :
    let s : Scientific := ⟨n, (power : Int) - (F.unitPlaces + 1 : Nat)⟩
    2 * s.num F * 5 ^ (F.unitPlaces + 1) = n * 10 ^ power * s.den := by
  have hten := two_mul_one_mul F
  generalize F.unitPlaces + 1 = places at hten
  dsimp only
  rcases Nat.le_total places power with hle | hle
  · obtain ⟨k, rfl⟩ := Nat.exists_eq_add_of_le hle
    rw [show ((places + k : Nat) : Int) - places = (k : Nat) by omega, num_natCast, den_natCast,
      Nat.pow_add, ← hten]
    ring
  · obtain ⟨k, rfl⟩ := Nat.exists_eq_add_of_le hle
    rw [show (power : Int) - (power + k : Nat) = -(k : Nat) by omega, num_neg_natCast,
      den_neg_natCast, Nat.mul_assoc n, ← Nat.pow_add, ← hten]
    ring

/-- **What is in the interval of a code is rounded to it.** -/
theorem Scientific.nearest_of_contains {n power : Nat} (hpos : 0 < code)
    (hcode : code < F.infinityCode)
    (h : (Interval.ofCode F code).1.contains (n * 10 ^ power) = true) :
    nearest F ⟨n, (power : Int) - (F.unitPlaces + 1 : Nat)⟩ = code := by
  have hnum := two_mul_num F n power
  generalize (⟨n, (power : Int) - (F.unitPlaces + 1 : Nat)⟩ : Scientific) = s at hnum
  have hscale : 0 < 5 ^ (F.unitPlaces + 1) := by positivity
  have hbefore : F.sumNext (code - 1) = F.units (code - 1) + F.units code := by
    rw [Format.sumNext, Nat.sub_add_cancel hpos]
  obtain ⟨hlow, hhigh, hends⟩ := Interval.contains_iff.1 h
  change (F.units (code - 1) + F.units code) * 5 ^ _ ≤ _ at hlow
  change _ ≤ F.sumNext code * 5 ^ _ at hhigh
  change n * 10 ^ power = (F.units (code - 1) + F.units code) * 5 ^ _ ∨
    n * 10 ^ power = F.sumNext code * 5 ^ _ → (code % 2 == 0) = true at hends
  rw [← hbefore] at hlow hends
  -- the ends, on the scale of the interval and as quotients of units
  have hscaled (x : Nat) : x * s.den * 5 ^ (F.unitPlaces + 1) =
      x * 5 ^ (F.unitPlaces + 1) * s.den := Nat.mul_right_comm ..
  refine F.nearestCode_eq_of_between s.den_pos hpos hcode ?_ ?_ ?_
  · refine Nat.le_of_mul_le_mul_right ?_ hscale
    rw [hscaled, hnum]
    exact Nat.mul_le_mul_right _ hlow
  · refine Nat.le_of_mul_le_mul_right ?_ hscale
    rw [hscaled, hnum]
    exact Nat.mul_le_mul_right _ hhigh
  · have hend (x : Nat) (heq : 2 * s.num F = x * s.den) :
        n * 10 ^ power = x * 5 ^ (F.unitPlaces + 1) :=
      Nat.eq_of_mul_eq_mul_right s.den_pos (by rw [← hnum, heq, hscaled])
    exact fun htie => by simpa using hends (htie.imp (hend _) (hend _))

/-! ## The shortest decimal of a code -/

/-- What the search gives for a code, without the zeros at its end. -/
theorem Scientific.exists_ofCode (tie : Tie) (hpos : 0 < code) : ∃ n power start fuel : Nat,
    let i := (Interval.ofCode F code).1
    ofCode F tie code = stripZeros fuel ⟨n, (power : Int) - (F.unitPlaces + 1 : Nat)⟩ ∧
      0 < n ∧ start + 1 = (digits i.middle).length ∧
      i.contains (n * 10 ^ power) = true ∧ n ≤ i.middle / 10 ^ power + 1 ∧ power ≤ start ∧
      (power < start → i.nearestMultiple? tie (10 ^ (power + 1)) = none) ∧
      ∀ p ≤ start, (i.nearestMultiple? tie (10 ^ p)).isSome = true → p ≤ power := by
  have hlength : 0 < (digits (Interval.ofCode F code).1.middle).length :=
    List.length_pos_iff.2 (digits_ne_nil _)
  obtain ⟨hinside, hrest⟩ := Interval.shortest_spec (Interval.isProper_ofCode F hpos) tie
    ((digits (Interval.ofCode F code).1.middle).length - 1)
  exact ⟨_, _, _, _, rfl, Interval.pos_of_contains_ofCode F hpos hinside,
    Nat.sub_add_cancel hlength, hinside, hrest⟩

/-- **The shortest decimal of a code is rounded to it.** -/
theorem Scientific.nearest_ofCode (tie : Tie) (hpos : 0 < code) (hcode : code < F.infinityCode) :
    (ofCode F tie code).nearest F = code ∧ 0 < (ofCode F tie code).significand := by
  obtain ⟨n, power, start, fuel, heq, hn, -, hinside, -⟩ := exists_ofCode F tie hpos
  obtain ⟨hnearest, hsignificand, -⟩ :=
    stripZeros_spec F fuel ⟨n, (power : Int) - (F.unitPlaces + 1 : Nat)⟩ hn
  rw [heq]
  exact ⟨hnearest.trans (nearest_of_contains F hpos hcode hinside), hsignificand⟩

example : Scientific.ofCode .double .toEven 1 = ⟨5, -324⟩ ∧
    (Scientific.mk 5 (-324)).nearest .double = 1 := by decide +kernel

/-- Its significand is hardly longer than that of the number. -/
theorem Scientific.significand_ofCode_le (tie : Tie) (hpos : 0 < code) :
    (ofCode F tie code).significand ≤ 20 * 2 ^ (F.fractionBits + 1) + 1 := by
  obtain ⟨n, power, start, fuel, heq, hn, hstart, -, hle, hpower, hnone, -⟩ :=
    exists_ofCode F tie hpos
  have hquotient : (Interval.ofCode F code).1.middle / 10 ^ power ≤
      20 * 2 ^ (F.fractionBits + 1) := by
    refine Nat.div_le_of_le_mul ?_
    rcases Nat.eq_or_lt_of_le hpower with rfl | hlt
    · -- the first grid is as coarse as the number allows
      have hmiddle := (length_digits_le_iff (Nat.succ_pos power)).1 hstart.ge
      rw [Nat.pow_succ] at hmiddle
      refine hmiddle.le.trans (Nat.mul_le_mul_left _ ?_)
      have := Nat.one_le_two_pow (n := F.fractionBits + 1)
      omega
    · have hwidth := Interval.width_le_of_nearestMultiple?_eq_none
        (Interval.isProper_ofCode F hpos) (by positivity) (hnone hlt)
      refine (Interval.middle_ofCode_le F hwidth).trans (le_of_eq ?_)
      rw [Nat.pow_succ]
      ring
  rw [heq]
  exact (stripZeros_spec F fuel ⟨n, (power : Int) - (F.unitPlaces + 1 : Nat)⟩ hn).2.2.1.trans
    (hle.trans (Nat.succ_le_succ hquotient))

/-- A grid that is finer than the numbers everywhere has a point in the interval. -/
theorem Scientific.le_exponent_ofCode (tie : Tie) (hpos : 0 < code) {p : Nat}
    (hp : 10 ^ p < 2 * 5 ^ (F.unitPlaces + 1)) :
    (p : Int) - (F.unitPlaces + 1 : Nat) ≤ (ofCode F tie code).exponent := by
  obtain ⟨n, power, start, fuel, heq, hn, hstart, -, -, -, -, hfirst⟩ := exists_ofCode F tie hpos
  obtain ⟨hmiddle, hwide⟩ := Interval.two_mul_le_ofCode F hpos
  have hstart := hstart.symm ▸ lt_length_digits (hp.le.trans hmiddle)
  have hsome : ((Interval.ofCode F code).1.nearestMultiple? tie (10 ^ p)).isSome = true := by
    by_contra hnone
    rw [Bool.not_eq_true, Option.isSome_eq_false_iff, Option.isNone_iff_eq_none] at hnone
    have hwidth := Interval.width_le_of_nearestMultiple?_eq_none
      (Interval.isProper_ofCode F hpos) (by positivity) hnone
    omega
  have hpower := hfirst p (Nat.le_of_lt_succ hstart) hsome
  rw [heq]
  refine le_trans ?_ (stripZeros_spec F fuel ⟨n, (power : Int) - (F.unitPlaces + 1 : Nat)⟩ hn).2.2.2
  exact Int.sub_le_sub_right (Int.ofNat_le.2 hpower) _

/-- A whole point in the interval of a whole number that fits a significand is not greater. -/
theorem Interval.le_of_contains_ofCode {m n k : Nat} (hm : m < 2 * 2 ^ F.fractionBits)
    (hunits : F.units code = m * F.one)
    (h : (Interval.ofCode F code).1.contains (n * 10 ^ (F.unitPlaces + 1 + k)) = true) :
    n * 10 ^ k ≤ m := by
  have hhigh := (Interval.contains_iff.1 h).2.1
  change _ ≤ (F.units code + F.units (code + 1)) * 5 ^ _ at hhigh
  have hnext := F.units_succ_le hm (hunits.trans (by rw [F.one_eq]))
  rw [← F.one_eq, hunits] at hnext
  have hscaled : n * 10 ^ k * 2 * 10 ^ (F.unitPlaces + 1) ≤
      (2 * m + 1) * 10 ^ (F.unitPlaces + 1) := by
    calc n * 10 ^ k * 2 * 10 ^ (F.unitPlaces + 1)
        = 2 * (n * 10 ^ (F.unitPlaces + 1 + k)) := by rw [Nat.pow_add 10 _ k]; ring
      _ ≤ 2 * ((m * F.one + (m * F.one + F.one)) * 5 ^ (F.unitPlaces + 1)) := by
        refine Nat.mul_le_mul_left _ (hhigh.trans (Nat.mul_le_mul_right _ ?_))
        rw [hunits]
        exact Nat.add_le_add_left hnext _
      _ = (2 * m + 1) * 10 ^ (F.unitPlaces + 1) := by rw [← two_mul_one_mul F]; ring
  have := Nat.le_of_mul_le_mul_right hscaled (show 0 < 10 ^ (F.unitPlaces + 1) by positivity)
  omega

/-- **The shortest decimal of a whole number** that fits a significand is whole, and not greater. -/
theorem Scientific.ofCode_whole (tie : Tie) (hpos : 0 < code) {m : Nat}
    (hm : m < 2 * 2 ^ F.fractionBits) (hunits : F.units code = m * F.one) :
    0 ≤ (ofCode F tie code).exponent ∧
      (ofCode F tie code).significand * 10 ^ (ofCode F tie code).exponent.toNat ≤ m := by
  obtain ⟨n, power, start, fuel, heq, hn, hstart, hinside, -, -, -, hfirst⟩ :=
    exists_ofCode F tie hpos
  have hmiddle : (Interval.ofCode F code).1.middle = m * 10 ^ (F.unitPlaces + 1) := by
    change 2 * F.units code * 5 ^ _ = _
    rw [hunits, ← two_mul_one_mul F]
    ring
  have hone : 1 ≤ m := Nat.pos_of_ne_zero fun hzero => by
    have := F.units_strictMono hpos
    rw [hunits, hzero] at this
    omega
  -- all powers of ten up to one are grids that have the number itself as a point
  have hplaces := hstart.symm ▸ lt_length_digits (hmiddle ▸ Nat.le_mul_of_pos_left _ hone)
  have hpower := hfirst _ (Nat.le_of_lt_succ hplaces) <|
    Interval.isSome_nearestMultiple?_of_dvd (Interval.isProper_ofCode F hpos)
      (hmiddle ▸ Nat.dvd_mul_left ..)
  obtain ⟨k, rfl⟩ := Nat.exists_eq_add_of_le hpower
  have hexponent : ((F.unitPlaces + 1 + k : Nat) : Int) - (F.unitPlaces + 1 : Nat) = k := by omega
  rw [hexponent] at heq
  rw [heq, stripZeros_whole fuel ⟨n, k⟩ (Int.natCast_nonneg k)]
  exact ⟨(Int.natCast_nonneg k).trans (stripZeros_spec F fuel ⟨n, k⟩ hn).2.2.2,
    Interval.le_of_contains_ofCode F hm hunits hinside⟩

end Codes

end SpikeWatch.Decimal
