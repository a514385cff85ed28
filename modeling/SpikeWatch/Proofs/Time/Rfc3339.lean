import SpikeWatch.Time.Rfc3339
import SpikeWatch.Proofs.Decimal.Digits
import SpikeWatch.Proofs.Time.Calendar

/-!
# Reading back the time of day

Each part of a written moment is read back by the reader of that part, whatever follows it, since
all numbers are filled up with zeros or end where no digit follows.  So a text stands for one moment
alone, and, as each instant has its own date and time of day, for one instant.

* `readNumber?_padded`, `readYear?_yearText` and `readFraction?_fractionText` are the parts.
* `Moment.ofText?_text` puts them together, and `Instant.ofText?_text` goes on to the instant.
-/

set_option autoImplicit false

namespace SpikeWatch

open Decimal

namespace Moment

/-! ## The parts of a moment -/

variable {width n : Nat} {c : Char}

/-- A number of fixed width is read back, and what follows it is left. -/
theorem readNumber?_padded (hwidth : 0 < width) (h : n < 10 ^ width) (rest : List Char) :
    readNumber? width (padded width n ++ rest) = some (n, rest) := by
  have hlength := length_padded hwidth h
  have htake : (padded width n ++ rest).take width = padded width n := by
    rw [List.take_append_of_le_length (by omega), List.take_of_length_le (by omega)]
  have hdrop : (padded width n ++ rest).drop width = rest := List.drop_left' hlength
  have hdigits : (padded width n).all Char.isDigit = true :=
    List.all_eq_true.2 fun _ hc => isDigit_of_mem_padded hc
  simp only [readNumber?, htake, hdrop]
  rw [if_pos ⟨hlength, hdigits⟩, ofDigits_padded]

/-- A number of any width ends where no digit follows. -/
theorem takeWhile_isDigit_padded (width n : Nat) (hc : c.isDigit = false) (rest : List Char) :
    (padded width n ++ c :: rest).takeWhile Char.isDigit = padded width n := by
  rw [List.takeWhile_append_of_pos fun _ hc => isDigit_of_mem_padded hc, List.takeWhile_cons,
    if_neg (by simp [hc]), List.append_nil]

/-- A number of any width is read back in front of anything that is no digit. -/
theorem readDigits?_padded (width n : Nat) (hc : c.isDigit = false) (rest : List Char) :
    readDigits? width (padded width n ++ c :: rest) = some (n, c :: rest) := by
  simp only [readDigits?, takeWhile_isDigit_padded width n hc rest, List.drop_left, ofDigits_padded]
  exact if_neg (Nat.not_lt.2 (le_length_padded width n))

/-- A year without a sign has four digits. -/
theorem readYear?_digit (hc : c.isDigit = true) (rest : List Char) :
    readYear? (c :: rest) =
      (readDigits? 4 (c :: rest)).map fun (year, r) => ((year : Int), r) := by
  rw [readYear?]
  · rintro r ⟨⟩
    cases hc
  · rintro r ⟨⟩
    cases hc

/-- Every year is read back: those with four digits, and those with a sign and as many digits as
they need. -/
theorem readYear?_yearText (year : Int) (hc : c.isDigit = false) (rest : List Char) :
    readYear? (yearText year ++ c :: rest) = some (year, c :: rest) := by
  have hdigits := readDigits?_padded 4 year.natAbs hc rest
  rw [yearText]
  split
  · next hplain =>
    obtain ⟨d, ds, hds⟩ := List.exists_cons_of_ne_nil (padded_ne_nil 4 year.natAbs)
    have hd : d.isDigit = true := isDigit_of_mem_padded (hds ▸ List.mem_cons_self)
    have hvalue : (year.natAbs : Int) = year := Int.natAbs_of_nonneg hplain.1
    rw [hds, List.cons_append] at hdigits ⊢
    simp only [readYear?_digit hd, hdigits, Option.map_some, hvalue]
  · split
    · next hnegative =>
      have hvalue : (year.natAbs : Int) = -year :=
        Int.ofNat_natAbs_of_nonpos (Int.le_of_lt hnegative)
      simp only [List.cons_append, readYear?, hdigits, Option.map_some, hvalue, Int.neg_neg]
    · next hnonneg =>
      have hvalue : (year.natAbs : Int) = year := Int.natAbs_of_nonneg (Int.not_lt.1 hnonneg)
      simp only [List.cons_append, readYear?, hdigits, Option.map_some, hvalue]

/-- A fraction of so many digits counts the larger parts of a second. -/
theorem readFraction?_padded {nanos : Nat} (hwidth : 0 < width) (hle : width ≤ 9)
    (h : n < 10 ^ width) (hnanos : n * 10 ^ (9 - width) = nanos) (hc : c.isDigit = false)
    (rest : List Char) :
    readFraction? ('.' :: padded width n ++ c :: rest) = some (nanos, c :: rest) := by
  have hlength := length_padded hwidth h
  simp only [List.cons_append, readFraction?, takeWhile_isDigit_padded width n hc rest]
  rw [if_neg, ofDigits_padded, hlength, List.drop_left' hlength, ← hnanos]
  · rfl
  · simp [padded_ne_nil, hlength, hle]

/-- The fraction is read back, however many groups of zeros have been left out of it.  A point
behind it would be taken for a part of it. -/
theorem readFraction?_fractionText {nanos : Nat} (h : nanos < 1000000000) (hc : c.isDigit = false)
    (hpoint : c ≠ '.') (rest : List Char) :
    readFraction? (fractionText nanos ++ c :: rest) = some (nanos, c :: rest) := by
  rw [fractionText]
  split
  · next hzero => simp [hzero, readFraction?, hpoint]
  · split
    · next hmillis => exact readFraction?_padded (by decide) (by decide) (by omega) (by omega) hc _
    · split
      · next hmicros =>
        exact readFraction?_padded (by decide) (by decide) (by omega) (by omega) hc _
      · exact readFraction?_padded (by decide) (by decide) h (Nat.mul_one _) hc _

theorem expect?_cons (c : Char) (rest : List Char) : expect? c (c :: rest) = some rest := if_pos rfl

/-! ## Moments -/

/-- Months and days have room in two digits. -/
theorem IsValid.month_lt {m : Moment} (h : m.IsValid) : m.date.month < 10 ^ 2 := by
  have := h.date.2.1
  omega

theorem IsValid.day_lt {m : Moment} (h : m.IsValid) : m.date.day < 10 ^ 2 := by
  obtain ⟨-, -, -, hle⟩ := h.date
  have := Date.daysInMonth_le m.date.year m.date.month
  omega

/-- **A moment is read back**, part by part. -/
theorem ofChars?_chars {m : Moment} (h : m.IsValid) : ofChars? m.chars = some m := by
  have hhour : m.hour < 10 ^ 2 := Nat.lt_trans h.hour (by decide)
  have hminute : m.minute < 10 ^ 2 := Nat.lt_trans h.minute (by decide)
  have hsecond : m.second < 10 ^ 2 := Nat.lt_trans h.second (by decide)
  have htwo : 0 < 2 := by decide
  have hdash : '-'.isDigit = false := rfl
  have hplus : '+'.isDigit = false := rfl
  simp only [chars, List.append_assoc, List.cons_append]
  -- from part to part, with what follows it left open
  refine Option.bind_eq_some_iff.2 ⟨_, readYear?_yearText _ hdash _, ?_⟩
  refine Option.bind_eq_some_iff.2 ⟨_, expect?_cons _ _, ?_⟩
  refine Option.bind_eq_some_iff.2 ⟨_, readNumber?_padded htwo h.month_lt _, ?_⟩
  refine Option.bind_eq_some_iff.2 ⟨_, expect?_cons _ _, ?_⟩
  refine Option.bind_eq_some_iff.2 ⟨_, readNumber?_padded htwo h.day_lt _, ?_⟩
  refine Option.bind_eq_some_iff.2 ⟨_, expect?_cons _ _, ?_⟩
  refine Option.bind_eq_some_iff.2 ⟨_, readNumber?_padded htwo hhour _, ?_⟩
  refine Option.bind_eq_some_iff.2 ⟨_, expect?_cons _ _, ?_⟩
  refine Option.bind_eq_some_iff.2 ⟨_, readNumber?_padded htwo hminute _, ?_⟩
  refine Option.bind_eq_some_iff.2 ⟨_, expect?_cons _ _, ?_⟩
  refine Option.bind_eq_some_iff.2 ⟨_, readNumber?_padded htwo hsecond _, ?_⟩
  refine Option.bind_eq_some_iff.2 ⟨_, readFraction?_fractionText h.nanos hplus (by decide) _, ?_⟩
  exact if_pos rfl

/-- **A written moment is read back.** -/
theorem ofText?_text {m : Moment} (h : m.IsValid) : ofText? m.text = some m := by
  rw [ofText?, text, String.toList_ofList, ofChars?_chars h]

end Moment

namespace Instant

/-! ## Instants -/

theorem subsecond_lt (t : Instant) : t.subsecond < 1000000000 := by
  rw [subsecond]
  omega

/-- An instant is made of its seconds and of what is left below a second. -/
theorem nanos_eq (t : Instant) : t.nanos = t.seconds * 1000000000 + t.subsecond := by
  rw [seconds, subsecond]
  omega

/-- The moment of an instant is a valid one, in the first year and in the last. -/
theorem isValid_moment (t : Instant) : t.moment.IsValid where
  date := Date.isValid_ofDays _
  hour := by
    simp only [moment]
    omega
  minute := Nat.mod_lt _ (by decide)
  second := Nat.mod_lt _ (by decide)
  nanos := t.subsecond_lt

/-- The date and the time of day make up the seconds. -/
theorem seconds_eq (t : Instant) : t.seconds = t.moment.date.toDays * 86400 +
    t.moment.hour * 3600 + t.moment.minute * 60 + t.moment.second := by
  simp only [moment, Date.toDays_ofDays]
  omega

/-- An instant is found again from its date and its time of day. -/
theorem instant?_moment (t : Instant) : t.moment.instant? = some t := by
  rw [Moment.instant?, if_pos t.isValid_moment, ofNanos?_eq_some_iff, ← seconds_eq, nanos_eq]
  rfl

/-- **A written instant is read back.** -/
theorem ofText?_text (t : Instant) : ofText? t.text = some t := by
  rw [ofText?, text, Moment.ofText?_text t.isValid_moment, Option.bind_some, instant?_moment]

/-- **Different instants are written differently.** -/
theorem text_injective : Function.Injective text := fun s t h =>
  Option.some.inj (by rw [← ofText?_text s, h, ofText?_text])

example : Instant.text { nanos := firstNanos } = "-262143-01-01T00:00:00+00:00" ∧
    Instant.text { nanos := lastNanos } = "+262142-12-31T23:59:59.999999999+00:00" := by
  decide +kernel

end Instant

end SpikeWatch
