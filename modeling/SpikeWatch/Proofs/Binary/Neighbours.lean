import SpikeWatch.Proofs.Binary.Magnitude

/-!
# Numbers and their neighbours

A quotient is rounded to a code just if it lies between the two points half-way to the neighbours of
that code.  Twice these points are sums of neighbours, so that they are whole: `sumNext` is the one
above a code.

Half-way is the only place where rounding has a choice, and there the code that is even wins.  So
the points are not enough to tell where a quotient goes: each statement about them has a second
hypothesis, which says what is known of the code in the case of a tie.

* `Format.units_scaled` gives a code and the next one as multiples of the same power of two.
* `Format.nearestCode_le_of_le` and `Format.lt_nearestCode_of_le` tell where a quotient is rounded
  to, ties included.
* `Format.sumNext_succ` says how far these points are apart, and `Format.mul_units_nearestCode_le`
  and `Format.le_mul_units_nearestCode` how far rounding moves a quotient, both in proportion to
  where they lie.
-/

set_option autoImplicit false

namespace SpikeWatch

/-! ## Halves -/

section Halves

variable {num den n : Nat}

/-- A quotient up to half-way above `n` is not rounded past `n`, provided that `n` takes the tie. -/
theorem roundHalfEven_le_of_le (hden : 0 < den) (h : 2 * num ≤ (2 * n + 1) * den)
    (htie : 2 * num = (2 * n + 1) * den → n % 2 = 0) : roundHalfEven num den ≤ n := by
  have hnum := Nat.div_add_mod num den
  have hrest := Nat.mod_lt num hden
  rcases Nat.lt_trichotomy (num / den) n with hlt | heq | hgt
  · exact (roundHalfEven_le_div_add_one num den).trans hlt
  · rw [heq] at hnum
    have hexpand : (2 * n + 1) * den = 2 * (den * n) + den := by ring
    simp only [roundHalfEven, heq]
    split_ifs <;> omega
  · have hstep := Nat.mul_le_mul_left den (Nat.succ_le_of_lt hgt)
    have hexpand : (2 * n + 1) * den = 2 * (den * n) + den := by ring
    rw [Nat.mul_succ] at hstep
    omega

/-- A quotient from half-way above `n` on is rounded past `n`, provided that `n` leaves the tie. -/
theorem lt_roundHalfEven_of_le (hden : 0 < den) (h : (2 * n + 1) * den ≤ 2 * num)
    (htie : 2 * num = (2 * n + 1) * den → n % 2 = 1) : n < roundHalfEven num den := by
  have hnum := Nat.div_add_mod num den
  have hrest := Nat.mod_lt num hden
  have hexpand : (2 * n + 1) * den = 2 * (den * n) + den := by ring
  rcases Nat.lt_trichotomy (num / den) n with hlt | heq | hgt
  · have hstep := Nat.mul_le_mul_left den (Nat.succ_le_of_lt hlt)
    rw [Nat.mul_succ] at hstep
    omega
  · rw [heq] at hnum
    simp only [roundHalfEven, heq]
    split_ifs <;> omega
  · exact hgt.trans_le (div_le_roundHalfEven num den)

/-- Rounding moves a quotient by half at most. -/
theorem roundHalfEven_error (num : Nat) (hden : 0 < den) :
    2 * (roundHalfEven num den * den) ≤ 2 * num + den ∧
      2 * num ≤ 2 * (roundHalfEven num den * den) + den := by
  have hnum := Nat.div_add_mod num den
  have hrest := Nat.mod_lt num hden
  have hexpand : (num / den + 1) * den = den * (num / den) + den := by ring
  have hexpand' : num / den * den = den * (num / den) := by ring
  simp only [roundHalfEven]
  split_ifs <;> omega

example : roundHalfEven 5 2 = 2 ∧ roundHalfEven 7 2 = 4 ∧ roundHalfEven 8 3 = 3 := by decide

/-- Rounding looks at the quotient alone, and not at the fraction that spells it. -/
theorem roundHalfEven_mul_right (num den : Nat) {factor : Nat} (hfactor : 0 < factor) :
    roundHalfEven (num * factor) (den * factor) = roundHalfEven num den := by
  simp only [roundHalfEven, Nat.mul_div_mul_right _ _ hfactor, Nat.mul_mod_mul_right,
    ← Nat.mul_assoc, Nat.mul_lt_mul_right hfactor]

end Halves

namespace Format

variable (F : Format)

/-! ## Codes and the next ones -/

/-- The units of a code, by its significand and the power of two that goes with it. -/
theorem units_scaled {scale significand : Nat} (hle : significand ≤ 2 * 2 ^ F.fractionBits)
    (hscale : scale = 0 ∨ 2 ^ F.fractionBits ≤ significand) :
    F.units (scale * 2 ^ F.fractionBits + significand) = significand * 2 ^ scale := by
  have hbit : 0 < 2 ^ F.fractionBits := by positivity
  simp only [units, Nat.pow_eq]
  rcases Nat.lt_or_ge significand (2 ^ F.fractionBits) with hlt | hge
  · obtain rfl : scale = 0 := hscale.resolve_right (Nat.not_le.2 hlt)
    rw [Nat.zero_mul, Nat.zero_add, Nat.div_eq_of_lt hlt, if_pos rfl, Nat.mod_eq_of_lt hlt]
    simp
  · obtain ⟨fraction, rfl⟩ := Nat.exists_eq_add_of_le hge
    have hcode : scale * 2 ^ F.fractionBits + (2 ^ F.fractionBits + fraction) =
        2 ^ F.fractionBits * (scale + 1) + fraction := by ring
    rw [hcode, Nat.mul_add_div hbit, Nat.mul_add_mod]
    rcases Nat.lt_or_ge fraction (2 ^ F.fractionBits) with hlt | hfull
    · rw [Nat.div_eq_of_lt hlt, Nat.mod_eq_of_lt hlt, if_neg (by omega)]
      rfl
    · obtain rfl : fraction = 2 ^ F.fractionBits := by omega
      rw [Nat.div_self hbit, Nat.mod_self, if_neg (by omega), Nat.add_sub_cancel]
      ring

/-- Every code has a scale and a significand.  Only at the lowest scale may the hidden bit be
missing. -/
theorem exists_scaled (code : Nat) : ∃ scale significand,
    code = scale * 2 ^ F.fractionBits + significand ∧ significand < 2 * 2 ^ F.fractionBits ∧
      (scale = 0 ∨ 2 ^ F.fractionBits ≤ significand) := by
  have hbit : 0 < 2 ^ F.fractionBits := by positivity
  have hcode := Nat.div_add_mod code (2 ^ F.fractionBits)
  have hrest := Nat.mod_lt code hbit
  cases hexponent : code / 2 ^ F.fractionBits with
  | zero =>
    rw [hexponent] at hcode
    exact ⟨0, code % 2 ^ F.fractionBits, by omega, by omega, .inl rfl⟩
  | succ scale =>
    rw [hexponent] at hcode
    refine ⟨scale, 2 ^ F.fractionBits + code % 2 ^ F.fractionBits, ?_, by omega,
      .inr (Nat.le_add_right ..)⟩
    rw [← Nat.add_assoc, ← Nat.succ_mul, Nat.mul_comm]
    exact hcode.symm

/-- Twice the point half-way between a code and the next one. -/
def sumNext (code : Nat) : Nat := F.units code + F.units (code + 1)

theorem units_scaled_succ {scale significand : Nat} (hlt : significand < 2 * 2 ^ F.fractionBits)
    (hscale : scale = 0 ∨ 2 ^ F.fractionBits ≤ significand) :
    F.units (scale * 2 ^ F.fractionBits + significand + 1) = (significand + 1) * 2 ^ scale :=
  F.units_scaled hlt (hscale.imp_right Nat.le_succ_of_le)

/-- A greater code is a greater number, also where the scale changes: the last significand of a
scale and the first one of the next are neighbours like any other. -/
theorem units_lt_succ (code : Nat) : F.units code < F.units (code + 1) := by
  obtain ⟨scale, significand, rfl, hlt, hscale⟩ := F.exists_scaled code
  rw [F.units_scaled hlt.le hscale, F.units_scaled_succ hlt hscale]
  exact Nat.mul_lt_mul_of_pos_right (Nat.lt_succ_self _) (by positivity)

theorem units_strictMono : StrictMono F.units := strictMono_nat_of_lt_succ F.units_lt_succ

/-- The point half-way, by the scale and the significand below it. -/
theorem sumNext_scaled {scale significand : Nat} (hlt : significand < 2 * 2 ^ F.fractionBits)
    (hscale : scale = 0 ∨ 2 ^ F.fractionBits ≤ significand) :
    F.sumNext (scale * 2 ^ F.fractionBits + significand) =
      (2 * significand + 1) * 2 ^ scale := by
  rw [sumNext, F.units_scaled hlt.le hscale, F.units_scaled_succ hlt hscale]
  ring

/-- Neighbours are no nearer than the significands of numbers allow. -/
theorem units_succ (code : Nat) : (2 ^ (F.fractionBits + 1) + 1) * F.units code <
    2 ^ (F.fractionBits + 1) * F.units (code + 1) := by
  obtain ⟨scale, significand, rfl, hlt, hscale⟩ := F.exists_scaled code
  rw [F.units_scaled hlt.le hscale, F.units_scaled_succ hlt hscale, Nat.pow_succ', Nat.succ_mul,
    ← Nat.mul_assoc, ← Nat.mul_assoc, Nat.mul_succ, Nat.add_mul]
  exact Nat.add_lt_add_left (Nat.mul_lt_mul_of_pos_right hlt (by positivity)) _

/-- So the points half-way between them grow in proportion. -/
theorem sumNext_succ (code : Nat) :
    (2 ^ (F.fractionBits + 1) + 1) * F.sumNext code <
      2 ^ (F.fractionBits + 1) * F.sumNext (code + 1) := by
  rw [sumNext, sumNext, Nat.mul_add, Nat.mul_add]
  exact Nat.add_lt_add (F.units_succ code) (F.units_succ (code + 1))

/-- Several steps away, the points have grown by the factor of a step as often.  This is what turns
roundings in proportion into steps between codes. -/
theorem sumNext_add (code : Nat) {steps : Nat} (h : 0 < steps) :
    (2 ^ (F.fractionBits + 1) + 1) ^ steps * F.sumNext code <
      (2 ^ (F.fractionBits + 1)) ^ steps * F.sumNext (code + steps) := by
  induction steps, h using Nat.le_induction with
  | base => simpa only [Nat.pow_one] using F.sumNext_succ code
  | succ steps _ ih =>
    have hnext := F.sumNext_succ (code + steps)
    have hbit : 0 < 2 ^ (F.fractionBits + 1) := by positivity
    generalize 2 ^ (F.fractionBits + 1) = bit at hnext hbit ih ⊢
    calc (bit + 1) ^ (steps + 1) * F.sumNext code
        = (bit + 1) * ((bit + 1) ^ steps * F.sumNext code) := by ring
      _ < (bit + 1) * (bit ^ steps * F.sumNext (code + steps)) :=
        Nat.mul_lt_mul_of_pos_left ih (Nat.succ_pos bit)
      _ = bit ^ steps * ((bit + 1) * F.sumNext (code + steps)) := by ring
      _ < bit ^ steps * (bit * F.sumNext (code + steps + 1)) :=
        Nat.mul_lt_mul_of_pos_left hnext (by positivity)
      _ = bit ^ (steps + 1) * F.sumNext (code + (steps + 1)) := by
        rw [Nat.pow_succ, Nat.mul_assoc, Nat.add_assoc]

/-! ## Numbers without a rounding -/

/-- What fits a significand, times a power of two, is a number. -/
theorem exists_units_eq {m : Nat} (t : Nat) (h : m < 2 * 2 ^ F.fractionBits) :
    ∃ code, F.units code = m * 2 ^ t := by
  induction t generalizing m with
  | zero =>
    have hunits := F.units_scaled h.le (.inl rfl : 0 = 0 ∨ _)
    exact ⟨_, hunits⟩
  | succ t ih =>
    rcases Nat.lt_or_ge m (2 ^ F.fractionBits) with hlt | hge
    · obtain ⟨code, hcode⟩ := ih (m := 2 * m) (by omega)
      exact ⟨code, by rw [hcode, Nat.pow_succ]; ring⟩
    · exact ⟨_, F.units_scaled h.le (.inr hge)⟩

/-- A number that needs no rounding is rounded to itself.  Finiteness has to be asked for: a power
of two may be beyond the format although its significand is small. -/
theorem units_nearestCode {m t : Nat} (h : m < 2 * 2 ^ F.fractionBits)
    (hfinite : F.nearestCode (m * 2 ^ t) 1 < F.infinityCode) :
    F.units (F.nearestCode (m * 2 ^ t) 1) = m * 2 ^ t := by
  obtain ⟨code, hcode⟩ := F.exists_units_eq t h
  rw [← hcode] at hfinite ⊢
  rcases Nat.le_total code F.infinityCode with hle | hge
  · rw [F.nearestCode_units hle]
  · have hmono := F.nearestCode_mono Nat.one_pos (F.units_strictMono.monotone hge)
    rw [F.nearestCode_units (Nat.le_refl _)] at hmono
    exact absurd hfinite (Nat.not_lt.2 hmono)

/-- The neighbour of what fits a significand is no farther away than the last bit. -/
theorem units_succ_le {code m t : Nat} (h : m < 2 * 2 ^ F.fractionBits)
    (hunits : F.units code = m * 2 ^ t) : F.units (code + 1) ≤ F.units code + 2 ^ t := by
  obtain ⟨scale, significand, rfl, hlt, hscale⟩ := F.exists_scaled code
  rw [F.units_scaled_succ hlt hscale, F.units_scaled hlt.le hscale, Nat.succ_mul]
  rw [F.units_scaled hlt.le hscale] at hunits
  refine Nat.add_le_add_left (Nat.pow_le_pow_right (by omega) (Nat.le_of_not_lt fun hgt => ?_)) _
  have hhidden := hscale.resolve_left (by omega)
  have hbeyond : 2 * 2 ^ F.fractionBits * 2 ^ t ≤ significand * 2 ^ scale := by
    calc 2 * 2 ^ F.fractionBits * 2 ^ t = 2 ^ F.fractionBits * (2 * 2 ^ t) := by ring
      _ ≤ significand * 2 ^ scale := by
        rw [← Nat.pow_succ']
        exact Nat.mul_le_mul hhidden (Nat.pow_le_pow_right (by omega) hgt)
  have hbelow := Nat.mul_lt_mul_of_pos_right h (show 0 < 2 ^ t by positivity)
  omega

/-! ## Where a quotient is rounded to -/

section Midpoints

variable {num den code : Nat}

theorem two_pow_mul_le {scale excess : Nat} (h : scale < excess) : 2 * 2 ^ scale ≤ 2 ^ excess := by
  rw [← Nat.pow_succ']
  exact Nat.pow_le_pow_right (by omega) h

/-- A code is even if its significand is. -/
theorem scaled_mod_two (scale significand : Nat) :
    (scale * 2 ^ F.fractionBits + significand) % 2 = significand % 2 := by
  obtain ⟨bits, hbits⟩ := Nat.exists_eq_add_one_of_ne_zero F.fractionBits_pos.ne'
  have heven : scale * 2 ^ F.fractionBits = 2 * (scale * 2 ^ bits) := by
    rw [hbits, Nat.pow_succ]
    ring
  rw [heven, Nat.mul_add_mod]

/-- **Rounding stops at a code** if the quotient is not beyond the point above it, and if the code
is even in case it is at this point. -/
theorem nearestCode_le_of_le (hden : 0 < den) (h : 2 * num ≤ F.sumNext code * den)
    (htie : 2 * num = F.sumNext code * den → code % 2 = 0) : F.nearestCode num den ≤ code := by
  obtain ⟨scale, significand, rfl, hlt, hscale⟩ := F.exists_scaled code
  have hsum : F.sumNext (scale * 2 ^ F.fractionBits + significand) * den =
      (2 * significand + 1) * (den * 2 ^ scale) := by
    rw [F.sumNext_scaled hlt hscale]
    ring
  rw [hsum] at h htie
  rw [F.scaled_mod_two] at htie
  rw [nearestCode_eq]
  refine (Nat.min_le_right _ _).trans ?_
  rcases Nat.lt_trichotomy (F.excess (num / den)) scale with hless | heq | hmore
  · have hsignificand := F.significand_le num hden
    have hhidden := hscale.resolve_left (by omega)
    have hstep := Nat.mul_le_mul_right (2 ^ F.fractionBits) (Nat.succ_le_of_lt hless)
    rw [Nat.pow_succ] at hsignificand
    rw [Nat.succ_mul] at hstep
    omega
  · rw [heq]
    exact Nat.add_le_add_left (roundHalfEven_le_of_le (by positivity) h htie) _
  · -- the quotient would be beyond the next code
    have hnum := (Nat.le_div_iff_mul_le hden).1 (F.le_of_excess_pos (n := num / den) (by omega))
    have hbeyond : (2 * significand + 2) * (den * 2 ^ scale) ≤ 2 * num := by
      calc (2 * significand + 2) * (den * 2 ^ scale)
          ≤ (2 * (2 * 2 ^ F.fractionBits)) * (den * 2 ^ scale) :=
            Nat.mul_le_mul_right _ (by omega)
        _ = 2 * (2 ^ F.fractionBits * (2 * 2 ^ scale) * den) := by ring
        _ ≤ 2 * (2 ^ F.fractionBits * 2 ^ F.excess (num / den) * den) := by
          gcongr
          exact two_pow_mul_le hmore
        _ ≤ 2 * num := Nat.mul_le_mul_left _ hnum
    have hpos : 0 < den * 2 ^ scale := by positivity
    rw [show 2 * significand + 2 = 2 * significand + 1 + 1 by rfl, Nat.succ_mul] at hbeyond
    omega

/-- **Rounding passes a code** if the quotient has reached the point above it, and if the code is
odd in case it is at this point. -/
theorem lt_nearestCode_of_le (hden : 0 < den) (hcode : code < F.infinityCode)
    (h : F.sumNext code * den ≤ 2 * num)
    (htie : 2 * num = F.sumNext code * den → code % 2 = 1) : code < F.nearestCode num den := by
  rw [nearestCode_eq]
  refine lt_min hcode ?_
  obtain ⟨scale, significand, rfl, hlt, hscale⟩ := F.exists_scaled code
  have hsum : F.sumNext (scale * 2 ^ F.fractionBits + significand) * den =
      (2 * significand + 1) * (den * 2 ^ scale) := by
    rw [F.sumNext_scaled hlt hscale]
    ring
  rw [hsum] at h htie
  rw [F.scaled_mod_two] at htie
  rcases Nat.lt_trichotomy (F.excess (num / den)) scale with hless | heq | hmore
  · -- the quotient would be below the code
    have hhidden := hscale.resolve_left (by omega)
    have hnum := (Nat.div_lt_iff_lt_mul hden).1 (F.lt_of_excess (num / den))
    have hbelow : 2 * num < 2 * significand * (den * 2 ^ scale) := by
      calc 2 * num < 2 * (2 ^ (F.fractionBits + 1) * 2 ^ F.excess (num / den) * den) :=
            Nat.mul_lt_mul_of_pos_left hnum (by omega)
        _ = 2 * 2 ^ F.fractionBits * den * (2 * 2 ^ F.excess (num / den)) := by
          rw [Nat.pow_succ]
          ring
        _ ≤ 2 * significand * den * 2 ^ scale := by
          gcongr
          exact two_pow_mul_le hless
        _ = 2 * significand * (den * 2 ^ scale) := by ring
    rw [Nat.succ_mul] at h
    omega
  · rw [heq]
    exact Nat.add_lt_add_left (lt_roundHalfEven_of_le (by positivity) h htie) _
  · have hsignificand := F.le_significand hden (Nat.zero_lt_of_lt hmore)
    have hstep := Nat.mul_le_mul_right (2 ^ F.fractionBits) (Nat.succ_le_of_lt hmore)
    rw [Nat.succ_mul] at hstep
    omega

/-- So a quotient between the two points around a code is rounded to this code. -/
theorem nearestCode_eq_of_between (hden : 0 < den) (hpos : 0 < code)
    (hcode : code < F.infinityCode) (hlow : F.sumNext (code - 1) * den ≤ 2 * num)
    (hhigh : 2 * num ≤ F.sumNext code * den)
    (htie : 2 * num = F.sumNext (code - 1) * den ∨ 2 * num = F.sumNext code * den →
      code % 2 = 0) : F.nearestCode num den = code := by
  have hle := F.nearestCode_le_of_le hden hhigh fun h => htie (.inr h)
  have hlt := F.lt_nearestCode_of_le hden (by omega) hlow fun h => by
    have := htie (.inl h)
    omega
  omega

/-- Conversely, a quotient is not beyond the point above the code to which it is rounded. -/
theorem two_mul_le_of_nearestCode (hden : 0 < den)
    (hcode : F.nearestCode num den < F.infinityCode) :
    2 * num ≤ F.sumNext (F.nearestCode num den) * den := by
  by_contra hlt
  exact lt_irrefl _ <| F.lt_nearestCode_of_le hden hcode (Nat.le_of_not_le hlt)
    fun heq => absurd heq.le hlt

/-- Nor is a quotient below the point under the code to which it is rounded. -/
theorem le_two_mul_of_nearestCode (hden : 0 < den) (hpos : 0 < F.nearestCode num den) :
    F.sumNext (F.nearestCode num den - 1) * den ≤ 2 * num := by
  by_contra hlt
  have := F.nearestCode_le_of_le hden (Nat.le_of_not_le hlt) fun heq => absurd heq.ge hlt
  omega

/-- A factor on both sides of a quotient does not matter. -/
theorem nearestCode_mul_right (num den : Nat) {factor : Nat} (hfactor : 0 < factor) :
    F.nearestCode (num * factor) (den * factor) = F.nearestCode num den := by
  rw [nearestCode_eq, nearestCode_eq, Nat.mul_div_mul_right _ _ hfactor, Nat.mul_right_comm,
    roundHalfEven_mul_right _ _ hfactor]

end Midpoints

/-! ## How far a quotient is moved -/

section Errors

variable {num den : Nat}

/-- A quotient that is large enough for all bits of a significand, and what it is rounded to. -/
theorem exists_rounded (hden : 0 < den) (hnum : 2 ^ F.fractionBits * den ≤ num)
    (hfinite : F.nearestCode num den < F.infinityCode) : ∃ significand step,
    F.units (F.nearestCode num den) * den = significand * step ∧
      2 ^ F.fractionBits ≤ significand ∧ 2 ^ F.fractionBits * step ≤ num ∧
      2 * (significand * step) ≤ 2 * num + step ∧ 2 * num ≤ 2 * (significand * step) + step := by
  have hlarge : 2 ^ F.fractionBits * (den * 2 ^ F.excess (num / den)) ≤ num := by
    rcases Nat.eq_zero_or_pos (F.excess (num / den)) with hzero | hpos
    · rwa [hzero, Nat.pow_zero, Nat.mul_one]
    · have hquotient := (Nat.le_div_iff_mul_le hden).1 (F.le_of_excess_pos hpos)
      exact le_trans (le_of_eq (by ring)) hquotient
  have hpos : 0 < den * 2 ^ F.excess (num / den) := by positivity
  have hhidden := le_roundHalfEven hpos hlarge
  have hsignificand := F.significand_le num hden
  obtain ⟨hupper, hlower⟩ := roundHalfEven_error num hpos
  rw [nearestCode_eq] at hfinite ⊢
  rw [Nat.min_eq_right ((min_lt_iff.1 hfinite).resolve_left (lt_irrefl _)).le,
    F.units_scaled (by rwa [Nat.pow_succ'] at hsignificand) (.inr hhidden)]
  exact ⟨_, _, by ring, hhidden, hlarge, hupper, hlower⟩

/-- Two numbers are the same but for so many roundings: in proportion, a rounding moves a number by
no more than half the last bit of a significand. -/
def Close (roundings a b : Nat) : Prop :=
  (2 ^ (F.fractionBits + 1)) ^ roundings * a ≤ (2 ^ (F.fractionBits + 1) + 1) ^ roundings * b ∧
    (2 ^ (F.fractionBits + 1)) ^ roundings * b ≤ (2 ^ (F.fractionBits + 1) + 1) ^ roundings * a

variable {F} {roundings more a b c d : Nat}

/-- Without a rounding, the two are the same. -/
theorem close_zero_iff : F.Close 0 a b ↔ a = b := by
  rw [Close, Nat.pow_zero, Nat.pow_zero, Nat.one_mul, Nat.one_mul]
  exact Nat.le_antisymm_iff.symm

theorem Close.symm (h : F.Close roundings a b) : F.Close roundings b a := And.symm h

/-- Products collect the roundings of their factors. -/
theorem Close.mul (h : F.Close roundings a b) (h' : F.Close more c d) :
    F.Close (roundings + more) (a * c) (b * d) := by
  unfold Close at *
  generalize 2 ^ (F.fractionBits + 1) = bit at *
  simp only [Nat.pow_add, Nat.mul_mul_mul_comm]
  exact ⟨Nat.mul_le_mul h.1 h'.1, Nat.mul_le_mul h.2 h'.2⟩

/-- A common factor does not matter, so closeness of quotients can be stated without a division. -/
theorem close_mul_right_iff {factor : Nat} (hfactor : 0 < factor) :
    F.Close roundings (a * factor) (b * factor) ↔ F.Close roundings a b := by
  rw [Close, Close, ← Nat.mul_assoc, ← Nat.mul_assoc, ← Nat.mul_assoc, ← Nat.mul_assoc,
    Nat.mul_le_mul_right_iff hfactor, Nat.mul_le_mul_right_iff hfactor]

/-- Dividing once more. -/
theorem Close.quotient {e : Nat} (ha : 0 < a) (hd : 0 < d) (h : F.Close roundings (a * b) (c * d))
    (h' : F.Close more (e * d) a) : F.Close (roundings + more) (e * b) c := by
  rw [← close_mul_right_iff (Nat.mul_pos ha hd)]
  have hclose := h.mul h'
  have hleft : e * b * (a * d) = a * b * (e * d) := by ring
  have hright : c * (a * d) = c * d * a := by ring
  rwa [hleft, hright]

/-- **A rounding.** -/
theorem close_units_nearestCode (hden : 0 < den) (hnum : 2 ^ F.fractionBits * den ≤ num)
    (hfinite : F.nearestCode num den < F.infinityCode) :
    F.Close 1 (F.units (F.nearestCode num den) * den) num := by
  obtain ⟨significand, step, hunits, hhidden, hstep, hupper, hlower⟩ :=
    F.exists_rounded hden hnum hfinite
  have hbit := Nat.mul_le_mul_right step hhidden
  have hscaled := Nat.mul_le_mul_left (2 ^ F.fractionBits) hupper
  have hscaled' := Nat.mul_le_mul_left (2 ^ F.fractionBits) hlower
  rw [Close, Nat.pow_one, Nat.pow_one, hunits, Nat.pow_succ]
  generalize 2 ^ F.fractionBits = bit at hbit hscaled hscaled' hstep
  constructor <;> nlinarith only [hbit, hscaled, hscaled', hstep]

/-- A number that is above another by some roundings at most has a code that is above its code by as
many steps at most. -/
theorem nearestCode_le_add {num' den' : Nat} (hpos : 0 < roundings) (hden : 0 < den)
    (hden' : 0 < den') (hfinite : F.nearestCode num' den' < F.infinityCode)
    (h : (2 ^ (F.fractionBits + 1)) ^ roundings * (num * den') ≤
      (2 ^ (F.fractionBits + 1) + 1) ^ roundings * (num' * den)) :
    F.nearestCode num den ≤ F.nearestCode num' den' + roundings := by
  have hgrow := F.sumNext_add (F.nearestCode num' den') hpos
  have hbetween := F.two_mul_le_of_nearestCode hden' hfinite
  generalize F.nearestCode num' den' = code at hgrow hbetween ⊢
  have hbelow : 2 * num < F.sumNext (code + roundings) * den := by
    generalize (2 ^ (F.fractionBits + 1)) ^ roundings = bit at hgrow h
    generalize (2 ^ (F.fractionBits + 1) + 1) ^ roundings = bit' at hgrow h
    refine Nat.lt_of_mul_lt_mul_left (a := bit * den') ?_
    calc bit * den' * (2 * num) = 2 * (bit * (num * den')) := by ring
      _ ≤ 2 * (bit' * (num' * den)) := Nat.mul_le_mul_left _ h
      _ = bit' * den * (2 * num') := by ring
      _ ≤ bit' * den * (F.sumNext code * den') := Nat.mul_le_mul_left _ hbetween
      _ = den * den' * (bit' * F.sumNext code) := by ring
      _ < den * den' * (bit * F.sumNext (code + roundings)) :=
        Nat.mul_lt_mul_of_pos_left hgrow (Nat.mul_pos hden hden')
      _ = bit * den' * (F.sumNext (code + roundings) * den) := by ring
  exact F.nearestCode_le_of_le hden hbelow.le fun htie => absurd htie hbelow.ne

/-- A number that is below another by some roundings at most has a code that is below its code by as
many steps at most. -/
theorem le_nearestCode_add {num' den' : Nat} (hpos : 0 < roundings) (hden : 0 < den)
    (hden' : 0 < den') (hfinite : F.nearestCode num' den' < F.infinityCode)
    (h : (2 ^ (F.fractionBits + 1)) ^ roundings * (num' * den) ≤
      (2 ^ (F.fractionBits + 1) + 1) ^ roundings * (num * den')) :
    F.nearestCode num' den' ≤ F.nearestCode num den + roundings := by
  -- So many steps below a small code there is nothing left.
  rcases Nat.lt_or_ge roundings (F.nearestCode num' den') with hlt | hge
  · have hbetween := F.le_two_mul_of_nearestCode hden' (hpos.trans hlt)
    generalize F.nearestCode num' den' = code at hlt hfinite hbetween ⊢
    obtain ⟨below, rfl⟩ := Nat.exists_eq_add_of_lt hlt
    have hgrow := F.sumNext_add below hpos
    rw [show roundings + below + 1 - 1 = below + roundings by omega] at hbetween
    have habove : F.sumNext below * den < 2 * num := by
      generalize (2 ^ (F.fractionBits + 1)) ^ roundings = bit at hgrow h
      generalize (2 ^ (F.fractionBits + 1) + 1) ^ roundings = bit' at hgrow h
      refine Nat.lt_of_mul_lt_mul_left (a := bit' * den') ?_
      calc bit' * den' * (F.sumNext below * den) = den * den' * (bit' * F.sumNext below) := by ring
        _ < den * den' * (bit * F.sumNext (below + roundings)) :=
          Nat.mul_lt_mul_of_pos_left hgrow (Nat.mul_pos hden hden')
        _ = bit * den * (F.sumNext (below + roundings) * den') := by ring
        _ ≤ bit * den * (2 * num') := Nat.mul_le_mul_left _ hbetween
        _ = 2 * (bit * (num' * den)) := by ring
        _ ≤ 2 * (bit' * (num * den')) := Nat.mul_le_mul_left _ h
        _ = bit' * den' * (2 * num) := by ring
    have := F.lt_nearestCode_of_le hden (by omega) habove.le fun htie => absurd htie habove.ne'
    omega
  · omega

/-- **Roundings on the way** move the result by as many numbers at most. -/
theorem Close.nearestCode {num' den' : Nat} (hden : 0 < den) (hden' : 0 < den')
    (hfinite : F.nearestCode num' den' < F.infinityCode)
    (h : F.Close roundings (num * den') (num' * den)) :
    F.nearestCode num den ≤ F.nearestCode num' den' + roundings ∧
      F.nearestCode num' den' ≤ F.nearestCode num den + roundings := by
  rcases Nat.eq_zero_or_pos roundings with rfl | hpos
  · rw [← F.nearestCode_mul_right num den hden', close_zero_iff.1 h, Nat.mul_comm den,
      F.nearestCode_mul_right num' den' hden]
    exact ⟨Nat.le_refl _, Nat.le_refl _⟩
  · exact ⟨nearestCode_le_add hpos hden hden' hfinite h.1,
      le_nearestCode_add hpos hden hden' hfinite h.2⟩

end Errors

end Format

end SpikeWatch
