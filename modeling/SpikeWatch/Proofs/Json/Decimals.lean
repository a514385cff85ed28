import SpikeWatch.Proofs.Decimal.Shortest
import SpikeWatch.Proofs.Json.Written

/-!
# Decimals as texts

A decimal is written in one of four forms: with zeros behind its digits, with its point among them,
with zeros in front of them, or with an exponent.  Each of them is a number of the grammar, and its
digits and its exponent make up the decimal again, except that a whole number shows one zero more.

The exponent makes the forms differ in how they are read: digits behind the point count against it,
and zeros in front of them count for nothing.  That the value comes out the same each time is
`nearest_mul_ten_pow`, since only zeros at the end are ever added.

* `NumberText.numeral?_eq` is the value of a number whose digits have room in a significand.
* `Scientific.written` is the decimal that the text of another one shows, and
  `NumberText.spells_layOut` says that it does.
-/

set_option autoImplicit false

namespace SpikeWatch

namespace Json

/-! ## The value of a number by its digits -/

namespace Grammar

/-- An exponent that always shows its sign. -/
def Exponent.ofInt (e : Int) : Exponent := ⟨false, some (e < 0), .ofNat e.natAbs⟩

/-- An exponent is read as it was written, sign and all. -/
theorem Exponent.toInt_ofInt (e : Int) : (ofInt e).toInt = e := by
  have hdigits : (Digits.ofNat e.natAbs).toNat = e.natAbs := Decimal.ofDigits_digits _
  simp only [toInt, down, ofInt, hdigits, Option.getD_some, decide_eq_true_eq]
  split <;> omega

/-- Its sign is always written, also in front of a positive exponent. -/
theorem Exponent.chars_ofInt (e : Int) :
    (ofInt e).chars = 'e' :: (if e < 0 then '-' else '+') :: Decimal.digits e.natAbs := by
  by_cases he : e < 0 <;> simp [chars, ofInt, Digits.ofNat, he]

namespace NumberText

variable (t : NumberText)

/-- The digits behind the point. -/
def fractionDigits : List Char := t.fraction.elim [] Digits.chars

/-- If the exponent is not out of range, then it is added to the scale, and the number is read by
its magnitude. -/
theorem scaled?_eq (hexponent : ∀ e ∈ t.exponent, e.digits.toNat ≤ maxExponent)
    (significand : Nat) (scale : Int) :
    t.scaled? significand scale = Json.magnitude? significand (scale + t.power) := by
  rw [scaled?, power]
  cases h : t.exponent with
  | none => simp
  | some e =>
    have hlimit := hexponent e h
    exact (e.magnitude?_or significand scale).resolve_right fun hmore => by omega

/-- Digits that have room in a significand, with a point or an exponent. -/
theorem numeral?_eq {n : Nat} (hinteger : t.isInteger = false)
    (hexponent : ∀ e ∈ t.exponent, e.digits.toNat ≤ maxExponent)
    (hn : Nat.ofDigitChars 10 (t.whole.chars ++ t.fractionDigits) 0 = n)
    (hle : n ≤ maxSignificand) :
    t.numeral? =
      (Json.magnitude? n (t.power - t.fractionDigits.length)).map (signed t.negative) := by
  subst hn
  rw [Nat.ofDigitChars_append] at hle ⊢
  have hwhole : Nat.ofDigitChars 10 t.whole.chars 0 ≤ maxSignificand := by
    refine le_trans ?_ hle
    rw [← Decimal.foldl_digitValue_eq t.fractionDigits]
    exact le_foldl_digits ..
  -- All digits have room, so none is dropped and each one behind the point counts.
  obtain ⟨hvalue, htaken⟩ := t.whole.collect_eq hwhole
  rw [numeral?, hvalue, htaken, Nat.sub_self, if_neg (by simp [hinteger]), magnitude?]
  rw [fractionDigits] at hle ⊢
  cases hfraction : t.fraction with
  | none =>
    have hpower : (0 : Nat) + t.power = t.power - (0 : Nat) := by omega
    simp only [t.scaled?_eq hexponent, Option.elim_none, hpower, Nat.ofDigitChars_nil,
      List.length_nil]
  | some f =>
    rw [hfraction] at hle
    obtain ⟨hvalue', htaken'⟩ := f.collect_eq hle
    have hpower : (0 : Nat) - (f.chars.length : Int) + t.power = t.power - f.chars.length := by
      omega
    simp only [hvalue', htaken', t.scaled?_eq hexponent, Option.elim_some, hpower]

end NumberText

end Grammar

/-! ## The decimal that is written -/

end Json

namespace Decimal.Scientific

/-- A decimal as it is written in exchanged data: a whole number in positional writing has a zero
behind its point. -/
def written (s : Scientific) : Scientific :=
  if 0 ≤ s.exponent ∧ s.leadingExponent ≤ 15 then ⟨s.significand * 10 ^ (s.exponent.toNat + 1), -1⟩
  else s

/-- A zero more in the digits and one less in the exponent are the same number. -/
theorem nearest_mul_ten_pow (F : Format) (n k : Nat) (e : Int) :
    nearest F ⟨n * 10 ^ k, e⟩ = nearest F ⟨n, e + k⟩ := by
  induction k generalizing e with
  | zero => simp
  | succ k ih =>
    rw [Nat.pow_succ, ← Nat.mul_assoc, nearest_mul_ten, ih]
    congr 2
    omega

/-- The decimal that is shown is rounded to the same code. -/
theorem nearest_written (F : Format) (s : Scientific) : s.written.nearest F = s.nearest F := by
  rw [written]
  split
  · next hwhole =>
    rw [nearest_mul_ten_pow]
    congr 2
    omega
  · rfl

/-- At most one digit behind the point is ever added. -/
theorem exponent_written (s : Scientific) :
    s.written.exponent = -1 ∨ s.written.exponent = s.exponent := by
  rw [written]
  split
  · exact .inl rfl
  · exact .inr rfl

/-- Nothing but zero is written as zero. -/
theorem written_pos {s : Scientific} (h : 0 < s.significand) : 0 < s.written.significand := by
  rw [written]
  split
  · exact Nat.mul_pos h (by positivity)
  · exact h

/-- A significand has twenty digits at most. -/
theorem length_digits_le {n : Nat} (h : n ≤ Json.maxSignificand) : (digits n).length ≤ 20 :=
  (length_digits_le_iff (by decide)).2 (h.trans_lt (by decide))

/-- A whole number in positional writing has room in a significand. -/
theorem significand_written_le {s : Scientific} (h : s.significand ≤ Json.maxSignificand) :
    s.written.significand ≤ Json.maxSignificand := by
  rw [written]
  split
  · next hwhole =>
    obtain ⟨hexponent, hleading⟩ := hwhole
    have hlength := List.length_pos_iff.2 (digits_ne_nil s.significand)
    have hsignificand := (length_digits_le_iff hlength).1 (Nat.le_refl _)
    rw [leadingExponent] at hleading
    calc s.significand * 10 ^ (s.exponent.toNat + 1)
        ≤ 10 ^ (digits s.significand).length * 10 ^ (s.exponent.toNat + 1) :=
          Nat.mul_le_mul_right _ hsignificand.le
      _ = 10 ^ ((digits s.significand).length + (s.exponent.toNat + 1)) := (Nat.pow_add ..).symm
      _ ≤ 10 ^ 17 := Nat.pow_le_pow_right (by decide) (by omega)
      _ ≤ Json.maxSignificand := by decide
  · exact h

end Decimal.Scientific

namespace Json

open Decimal (Scientific)

/-! ## Its text -/

namespace Grammar.NumberText

/-- A decimal that some text of the grammar stands for. -/
def Spells (negative : Bool) (cs : List Char) (s : Scientific) : Prop :=
  ∃ t : NumberText, t.negative = negative ∧ t.unsignedChars = cs ∧
    t.numeral? = (Json.magnitude? s.significand s.exponent).map (signed negative)

variable (negative : Bool)

/-- A number with a point and no exponent: its digits in a row are the significand, and those behind
the point are counted. -/
theorem spells_positional {whole fraction : List Char} (hwhole : whole ≠ [])
    (hfraction : fraction ≠ []) (hdigits : (whole ++ fraction).all Char.isDigit)
    (hleading : whole.head? = some '0' → whole.length = 1) {n : Nat}
    (hn : Nat.ofDigitChars 10 (whole ++ fraction) 0 = n) (hle : n ≤ maxSignificand) :
    Spells negative (whole ++ '.' :: fraction) ⟨n, -fraction.length⟩ := by
  rw [List.all_append, Bool.and_eq_true] at hdigits
  let t : NumberText :=
    ⟨negative, ⟨whole, hwhole, hdigits.1⟩, hleading, some ⟨fraction, hfraction, hdigits.2⟩, none⟩
  refine ⟨t, rfl, List.append_nil _, ?_⟩
  have hvalue := t.numeral?_eq rfl (by simp [t]) hn hle
  simpa [t, power, fractionDigits] using hvalue

/-- Digits as the reader of numbers counts them. -/
theorem ofDigitChars_digits (n : Nat) : Nat.ofDigitChars 10 (Decimal.digits n) 0 = n :=
  Nat.ofDigitChars_ten_toDigits

/-- Only zero is written with a zero in front. -/
theorem head?_digits_ne {n : Nat} (h : 0 < n) : (Decimal.digits n).head? ≠ some '0' :=
  fun hzero => h.ne' (Decimal.eq_zero_of_head?_digits hzero)

variable {n k : Nat}

/-- A whole number in positional writing. -/
theorem spells_whole (hpos : 0 < n) (hle : n * 10 ^ (k + 1) ≤ maxSignificand) :
    Spells negative (Decimal.digits n ++ List.replicate k '0' ++ ['.', '0'])
      ⟨n * 10 ^ (k + 1), -1⟩ := by
  refine spells_positional negative
    (List.append_ne_nil_of_left_ne_nil (Decimal.digits_ne_nil n) _) (List.cons_ne_nil _ _)
    ?_ ?_ ?_ hle
  · simp [Decimal.all_isDigit_digits]
  · rw [List.head?_append_of_ne_nil _ (Decimal.digits_ne_nil n)]
    exact fun hzero => absurd hzero (head?_digits_ne hpos)
  · rw [Nat.ofDigitChars_append, Nat.ofDigitChars_append, ofDigitChars_digits,
      Nat.ofDigitChars_replicate_zero, Nat.pow_succ', Nat.mul_left_comm, Nat.mul_comm n]
    rfl

/-- A number with its point among its digits. -/
theorem spells_mixed (hpos : 0 < n) (hle : n ≤ maxSignificand) (hk : 0 < k)
    (hlt : k < (Decimal.digits n).length) :
    let ds := Decimal.digits n
    Spells negative (ds.take (ds.length - k) ++ '.' :: ds.drop (ds.length - k)) ⟨n, -k⟩ := by
  intro ds
  have hlength : (ds.drop (ds.length - k)).length = k := by
    rw [List.length_drop]
    exact Nat.sub_sub_self hlt.le
  have htake : 0 < ds.length - k := Nat.sub_pos_of_lt hlt
  have hwhole : ds.take (ds.length - k) ≠ [] := by
    rw [Ne, List.take_eq_nil_iff]
    exact fun h => h.elim htake.ne' (Decimal.digits_ne_nil n)
  have hdigits : ds.take (ds.length - k) ++ ds.drop (ds.length - k) = ds :=
    List.take_append_drop ..
  have hspells := spells_positional negative hwhole (List.ne_nil_of_length_pos (hlength.symm ▸ hk))
    (hdigits.symm ▸ Decimal.all_isDigit_digits n) ?_ (hdigits.symm ▸ ofDigitChars_digits n) hle
  · rwa [hlength] at hspells
  · rw [List.head?_take, if_neg htake.ne']
    exact fun hzero => absurd hzero (head?_digits_ne hpos)

/-- A number with its point in front of its digits. -/
theorem spells_small (hle : n ≤ maxSignificand) (hge : (Decimal.digits n).length ≤ k) :
    let ds := Decimal.digits n
    Spells negative ('0' :: '.' :: List.replicate (k - ds.length) '0' ++ ds) ⟨n, -k⟩ := by
  intro ds
  have hlength : (List.replicate (k - ds.length) '0' ++ ds).length = k := by
    rw [List.length_append, List.length_replicate]
    exact Nat.sub_add_cancel hge
  have hspells := spells_positional negative (List.cons_ne_nil '0' [])
    (List.append_ne_nil_of_right_ne_nil (List.replicate (k - ds.length) '0')
      (Decimal.digits_ne_nil n)) (n := n)
  rw [hlength] at hspells
  refine hspells ?_ (fun _ => rfl) ?_ hle
  · simp [Decimal.all_isDigit_digits]
  · rw [Nat.ofDigitChars_append, Nat.ofDigitChars_append, Nat.ofDigitChars_replicate_zero]
    exact ofDigitChars_digits n

/-- A number with an exponent that shows its sign. -/
theorem spells_of_exponent {t : NumberText} {e : Int} (hexponent : t.exponent = some (.ofInt e))
    (he : e.natAbs ≤ maxExponent)
    (hn : Nat.ofDigitChars 10 (t.whole.chars ++ t.fractionDigits) 0 = n)
    (hle : n ≤ maxSignificand) :
    Spells t.negative t.unsignedChars ⟨n, e - t.fractionDigits.length⟩ := by
  have hinteger : t.isInteger = false := by simp [isInteger, hexponent]
  have hlimit : ∀ e ∈ t.exponent, e.digits.toNat ≤ maxExponent := by
    rw [hexponent]
    rintro _ ⟨⟩
    exact (Decimal.ofDigits_digits e.natAbs).trans_le he
  have hpower : t.power = e := by
    rw [power, hexponent]
    exact Exponent.toInt_ofInt e
  refine ⟨t, rfl, rfl, ?_⟩
  rw [t.numeral?_eq hinteger hlimit hn hle, hpower]

/-- A number with an exponent: one digit stands in front of the point. -/
theorem spells_marked {s : Scientific} (hle : s.significand ≤ maxSignificand)
    (hexponent : s.leadingExponent.natAbs ≤ maxExponent) : Spells negative s.marked s := by
  obtain ⟨n, exponent⟩ := s
  have hdigits := ofDigitChars_digits n
  have hall := Decimal.all_isDigit_digits n
  rw [Scientific.marked, ← Exponent.chars_ofInt]
  rw [Scientific.leadingExponent] at hexponent ⊢
  dsimp only at hle hexponent ⊢
  cases hds : Decimal.digits n with
  | nil => exact absurd hds (Decimal.digits_ne_nil n)
  | cons d ds =>
    rw [hds] at hdigits hall hexponent
    rw [List.all_cons, Bool.and_eq_true] at hall
    let first : Digits := ⟨[d], List.cons_ne_nil _ _, by simp [hall.1]⟩
    cases ds with
    | nil =>
      let t : NumberText :=
        ⟨negative, first, fun _ => rfl, none, some (.ofInt (exponent + (0 : Nat)))⟩
      have hspells := spells_of_exponent (t := t) rfl hexponent hdigits hle
      simpa [t, first, unsignedChars, fractionChars, exponentChars, fractionDigits] using hspells
    | cons d' ds =>
      let t : NumberText := ⟨negative, first, fun _ => rfl,
        some ⟨d' :: ds, List.cons_ne_nil _ _, hall.2⟩,
        some (.ofInt (exponent + ((d' :: ds).length : Nat)))⟩
      have hspells := spells_of_exponent (t := t) rfl hexponent hdigits hle
      simpa [t, first, unsignedChars, fractionChars, exponentChars, fractionDigits] using hspells

/-- **The text of a decimal shows it**, in whichever of the four forms it is laid out. -/
theorem spells_layOut {s : Scientific} (hpos : 0 < s.significand)
    (hle : s.significand ≤ maxSignificand) (hexponent : s.leadingExponent.natAbs ≤ maxExponent) :
    Spells negative (s.layOut .exchange) s.written := by
  have hlayOut : s.layOut .exchange =
      if -5 ≤ s.leadingExponent ∧ s.leadingExponent ≤ 15 then s.positional true else s.marked := rfl
  have hroom := Scientific.significand_written_le hle
  rw [hlayOut]
  rw [Scientific.written] at hroom ⊢
  split
  · next hpositional =>
    obtain ⟨n, exponent⟩ := s
    -- Where the point is put depends on the sign of the exponent, and then on the number of digits.
    rcases Int.lt_or_le exponent 0 with hneg | hnonneg
    · obtain ⟨k, rfl⟩ := Int.exists_eq_neg_ofNat hneg.le
      rw [if_neg (by simp only; omega)]
      rw [Scientific.positional, if_neg (by simp only; omega)]
      simp only [Int.neg_neg, Int.toNat_natCast]
      split
      · next hlt => exact spells_mixed negative hpos hle (by omega) hlt
      · next hge => exact spells_small negative hle (Nat.le_of_not_lt hge)
    · obtain ⟨k, rfl⟩ := Int.eq_ofNat_of_zero_le hnonneg
      rw [if_pos ⟨hnonneg, hpositional.2⟩] at hroom ⊢
      exact spells_whole negative hpos hroom
  · next hmarked =>
    have hlast : ¬ (0 ≤ s.exponent ∧ s.leadingExponent ≤ 15) := by
      rw [Scientific.leadingExponent] at hmarked ⊢
      omega
    rw [if_neg hlast]
    exact spells_marked negative hle hexponent

end Grammar.NumberText

end Json

end SpikeWatch
