import SpikeWatch.Proofs.Json.Yields

/-!
# Reading numbers

A number is refused only if its magnitude comes out beyond the largest number there is.

The reader goes through a number once and keeps a significand of sixty-four bits.  Digits for which
there is no room are passed over: in front of the point they still count for the magnitude, and
behind it for nothing.  An exponent whose own digits have no room settles the matter, since the
number is zero or too large then.  Each of these is a case of `NumberText.numeral?`, which is stated
of the parts of a number and knows of no cursor.

* `Digits.value` and `Digits.taken` are what is collected from a run of digits and how many of them
  that takes.
* `NumberText.numeral?` is the value of a number, from its parts as the grammar has them.
* `yields_readNumber` says that it is read.
-/

set_option autoImplicit false

namespace SpikeWatch.Json

/-! ## Collecting digits -/

/-- Digits are collected up to the first character that is none. -/
theorem collectDigits_append (limit : Nat) (ds : List Char) {more : List Char}
    (hmore : Stops Char.isDigit more) (n count : Nat) :
    collectDigits limit (ds ++ more) n count = collectDigits limit ds n count := by
  induction ds generalizing n count with
  | nil =>
    cases more with
    | nil => rfl
    | cons c more =>
      have hc : c.isDigit = false := hmore c rfl
      simp [collectDigits, hc]
  | cons d ds ih => simp only [List.cons_append, collectDigits, ih]

/-- No more digits are collected than there are. -/
theorem count_collectDigits_le (limit : Nat) (ds : List Char) (n count : Nat) :
    (collectDigits limit ds n count).2 ≤ count + ds.length := by
  induction ds generalizing n count with
  | nil => exact Nat.le_refl count
  | cons d ds ih =>
    rw [collectDigits]
    split
    · have := ih (10 * n + Decimal.digitValue d) (count + 1)
      simp only [List.length_cons]
      omega
    · exact Nat.le_add_right ..

namespace Grammar

namespace Digits

variable (limit : Nat) (ds : Digits) (n : Nat)

/-- A run of digits has a first one. -/
theorem exists_eq_cons : ∃ c rest, ds.chars = c :: rest ∧ c.isDigit = true := by
  cases hds : ds.chars with
  | nil => exact absurd hds ds.nonempty
  | cons c rest =>
    exact ⟨c, rest, rfl, List.all_eq_true.1 ds.isDigit c (hds ▸ List.mem_cons_self)⟩

/-- The number that is collected from digits behind those that made `n`. -/
def value : Nat := (collectDigits limit ds.chars n 0).1

/-- How many of the digits are collected. -/
def taken : Nat := (collectDigits limit ds.chars n 0).2

/-- No more digits of a run are collected than it has. -/
theorem taken_le : ds.taken limit n ≤ ds.chars.length := by
  simpa [taken] using count_collectDigits_le limit ds.chars n 0

variable {cur : Cursor} {more : List Char}

/-- A cursor in front of a run of digits collects what the run is worth. -/
theorem collectDigits_eq (h : cur.rest = ds.chars ++ more) (hmore : Stops Char.isDigit more) :
    collectDigits limit cur.rest n 0 = (ds.value limit n, ds.taken limit n) := by
  rw [h, collectDigits_append limit ds.chars hmore, value, taken]

/-- Behind the digits that were collected the others still stand. -/
theorem rest_skip_taken (h : cur.rest = ds.chars ++ more) :
    (cur.skip (ds.taken limit n)).rest = ds.chars.drop (ds.taken limit n) ++ more := by
  change cur.rest.drop _ = _
  rw [h, List.drop_append_of_le_length (ds.taken_le limit n)]

theorem all_isDigit_drop (count : Nat) : (ds.chars.drop count).all Char.isDigit :=
  List.all_eq_true.2 fun c hc => List.all_eq_true.1 ds.isDigit c (List.mem_of_mem_drop hc)

/-- There are further digits just if not all of them were collected. -/
theorem atDigit_skip_taken (h : cur.rest = ds.chars ++ more) (hmore : Stops Char.isDigit more) :
    (cur.skip (ds.taken limit n)).atDigit = true ↔ ds.taken limit n < ds.chars.length := by
  rw [Cursor.atDigit_iff (ds.rest_skip_taken limit n h) (ds.all_isDigit_drop _) hmore, ne_eq,
    List.drop_eq_nil_iff, Nat.not_le]

/-- The others are passed over, and counted by the bytes that they take. -/
theorem skipDigits_skip_taken (h : cur.rest = ds.chars ++ more)
    (hmore : Stops Char.isDigit more) :
    (cur.skip (ds.taken limit n)).skipDigits.rest = more ∧
      (cur.skip (ds.taken limit n)).skipDigits.offset - (cur.skip (ds.taken limit n)).offset =
        ds.chars.length - ds.taken limit n := by
  obtain ⟨hrest, hoffset⟩ :=
    Cursor.skipWhile_append (ds.rest_skip_taken limit n h) (ds.all_isDigit_drop _) hmore
  rw [List.length_drop] at hoffset
  exact ⟨hrest, by rw [Cursor.skipDigits, hoffset, Nat.add_sub_cancel_left]⟩

end Digits

end Grammar

/-! ## Numbers -/

open Grammar

/-- A number in floating point, from its sign and its magnitude. -/
def signed (negative : Bool) (magnitude : Double) : Numeral :=
  .real (if negative then -magnitude else magnitude)

theorem signed_zero (negative : Bool) : signed negative (.zero false) = .real (.zero negative) := by
  cases negative <;> rfl

/-- The parts of a number make the number that they are worth, or none if that is too large. -/
theorem yields_ofParts (negative : Bool) (significand : Nat) (exponent : Int) (cur : Cursor) :
    Yields (ofParts negative significand exponent cur)
      ((magnitude? significand exponent).map (signed negative)) cur.rest := by
  rw [ofParts]
  cases magnitude? significand exponent with
  | none => rfl
  | some x => exact ⟨rfl, rfl⟩

namespace Grammar

namespace Exponent

/-- It divides. -/
def down (e : Exponent) : Bool := e.sign.getD false

/-- The magnitude of a number with this exponent, if there is one.  Digits for which the exponent
has no room make it zero or too large. -/
def magnitude? (e : Exponent) (significand : Nat) (scale : Int) : Option Double :=
  if e.digits.taken maxExponent 0 < e.digits.chars.length then
    if significand ≠ 0 ∧ ¬ e.down then none else some (.zero false)
  else
    let n := e.digits.value maxExponent 0
    Json.magnitude? significand (if e.down then scale - n else scale + n)

end Exponent

namespace NumberText

variable (t : NumberText)

/-- Neither a fraction nor an exponent is written. -/
def isInteger : Bool := t.fraction.isNone && t.exponent.isNone

/-- The magnitude from what was collected in front of the exponent. -/
def scaled? (significand : Nat) (scale : Int) : Option Double :=
  match t.exponent with
  | none => Json.magnitude? significand scale
  | some e => e.magnitude? significand scale

/-- The magnitude from what was collected in front of the point. -/
def magnitude? (significand : Nat) (scale : Int) : Option Double :=
  match t.fraction with
  | none => t.scaled? significand scale
  | some f =>
    t.scaled? (f.value maxSignificand significand) (scale - f.taken maxSignificand significand)

/-- An integer has neither a fraction nor an exponent to look at. -/
theorem magnitude?_of_isInteger {t : NumberText} (h : t.isInteger = true) (significand : Nat)
    (scale : Int) : t.magnitude? significand scale = Json.magnitude? significand scale := by
  obtain ⟨hfraction, hexponent⟩ : t.fraction = none ∧ t.exponent = none := by
    simpa [isInteger] using h
  simp only [magnitude?, hfraction, scaled?, hexponent]

/-- The value of a number, if it is in range.  Digits of the integer part for which the significand
has no room count as powers of ten. -/
def numeral? : Option Numeral :=
  let significand := t.whole.value maxSignificand 0
  let dropped := t.whole.chars.length - t.whole.taken maxSignificand 0
  if t.isInteger ∧ dropped = 0 then some (ofInteger t.negative significand)
  else (t.magnitude? significand dropped).map (signed t.negative)

theorem exists_eq_cons : ∃ c rest, t.chars = c :: rest ∧ (c = '-' ∨ c.isDigit = true) := by
  obtain ⟨c, rest, hwhole, hc⟩ := t.whole.exists_eq_cons
  rw [chars, unsignedChars, hwhole]
  cases t.negative with
  | true => exact ⟨'-', _, rfl, .inl rfl⟩
  | false => exact ⟨c, _, rfl, .inr hc⟩

end NumberText

end Grammar

/-- A digit, or the mark of a part of a number behind digits. -/
def isNumberPart (c : Char) : Bool := c.isDigit || c == '.' || c == 'e' || c == 'E'

section Numbers

variable {cur : Cursor} {more : List Char} (negative : Bool) (significand : Nat) (exponent : Int)

/-- Digits, the point and the two marks of an exponent are all that a number can go on with. -/
theorem isNumberPart_eq_false_iff {c : Char} :
    isNumberPart c = false ↔ c.isDigit = false ∧ c ≠ '.' ∧ c ≠ 'e' ∧ c ≠ 'E' := by
  simp [isNumberPart, and_assoc]

/-- What ends a number ends a run of digits. -/
theorem Stops.isDigit (h : Stops isNumberPart more) : Stops Char.isDigit more :=
  fun c hc => (isNumberPart_eq_false_iff.1 (h c hc)).1

/-- What ends a number is no point. -/
theorem Stops.point (h : Stops isNumberPart more) : Stops (· == '.') more :=
  fun c hc => beq_eq_false_iff_ne.2 (isNumberPart_eq_false_iff.1 (h c hc)).2.1

/-- The sign of an exponent, if there is one, and the cursor behind it. -/
def readSign (cur : Cursor) : Bool × Cursor :=
  match cur.rest with
  | '+' :: _ => (false, cur.advance)
  | '-' :: _ => (true, cur.advance)
  | _ => (false, cur)

/-- The sign of an exponent is passed, if one is written. -/
theorem readSign_eq (e : Exponent)
    (h : cur.rest = e.sign.elim [] (fun down => [if down then '-' else '+']) ++
      (e.digits.chars ++ more)) :
    (readSign cur).1 = e.down ∧ (readSign cur).2.rest = e.digits.chars ++ more := by
  rw [Exponent.down]
  cases hsign : e.sign with
  | none =>
    rw [hsign] at h
    have hrest : cur.rest = e.digits.chars ++ more := h
    -- Digits begin with a digit, so the reader cannot take their first character for a sign.
    obtain ⟨c, ds, hdigits, hc⟩ := e.digits.exists_eq_cons
    rw [hdigits] at hrest ⊢
    rw [readSign, hrest]
    split
    · next heq =>
      cases heq
      cases hc
    · next heq =>
      cases heq
      cases hc
    · exact ⟨rfl, hrest⟩
  | some down =>
    rw [hsign] at h
    cases down with
    | false =>
      have hrest : cur.rest = '+' :: (e.digits.chars ++ more) := h
      rw [readSign, hrest]
      exact ⟨rfl, Cursor.rest_advance hrest⟩
    | true =>
      have hrest : cur.rest = '-' :: (e.digits.chars ++ more) := h
      rw [readSign, hrest]
      exact ⟨rfl, Cursor.rest_advance hrest⟩

/-- Reading an exponent, with its sign taken apart from the rest. -/
theorem readExponent_eq (cur : Cursor) :
    readExponent negative significand exponent cur =
      let down := (readSign cur.advance).1
      let cur := (readSign cur.advance).2
      if cur.rest.isEmpty then cur.failHere .unfinishedValue
      else if !cur.atDigit then cur.failNext .invalidNumber
      else
        let (e, count) := collectDigits maxExponent cur.rest 0 0
        let cur := cur.skip count
        if cur.atDigit then
          if significand ≠ 0 ∧ ¬ down then cur.failNext .numberOutOfRange
          else .ok (.real (.zero negative), cur.skipDigits)
        else ofParts negative significand (if down then exponent - e else exponent + e) cur :=
  rfl

/-- **Exponents.**  The number is worth what its significand is worth with the written power of
ten. -/
theorem yields_readExponent (e : Exponent) (h : cur.rest = e.chars ++ more)
    (hmore : Stops Char.isDigit more) :
    Yields (readExponent negative significand exponent cur)
      ((e.magnitude? significand exponent).map (signed negative)) more := by
  have hsign : cur.advance.rest = e.sign.elim [] (fun down => [if down then '-' else '+']) ++
      (e.digits.chars ++ more) :=
    Cursor.rest_advance (by rw [h, Exponent.chars, List.cons_append, List.append_assoc])
  obtain ⟨hdown, hrest⟩ := readSign_eq e hsign
  have hat : (readSign cur.advance).2.atDigit = true :=
    (Cursor.atDigit_iff hrest e.digits.isDigit hmore).2 e.digits.nonempty
  have hleft := e.digits.atDigit_skip_taken maxExponent 0 hrest hmore
  rw [readExponent_eq, Exponent.magnitude?]
  simp only [Cursor.isEmpty_eq_false_of_atDigit hat, hat, hdown,
    e.digits.collectDigits_eq maxExponent 0 hrest hmore]
  rw [if_neg Bool.false_ne_true, if_neg (by decide)]
  -- An exponent whose digits are not all taken is too large, whatever else is there.
  by_cases htaken : e.digits.taken maxExponent 0 < e.digits.chars.length
  · rw [if_pos (hleft.2 htaken), if_pos htaken]
    split
    · rfl
    · exact ⟨congrArg some (signed_zero negative),
        (e.digits.skipDigits_skip_taken maxExponent 0 hrest hmore).1⟩
  · have hbehind := e.digits.rest_skip_taken maxExponent 0 hrest
    rw [List.drop_eq_nil_iff.2 (Nat.not_lt.1 htaken), List.nil_append] at hbehind
    rw [if_neg (mt hleft.1 htaken), if_neg htaken]
    exact hbehind ▸ yields_ofParts ..

/-- An exponent is seen by its letter. -/
theorem atExponent_eq_true (e : Exponent) (h : cur.rest = e.chars ++ more) :
    cur.atExponent = true := by
  rw [Cursor.atExponent, h, Exponent.chars]
  cases e.capital <;> rfl

theorem atExponent_eq_false (h : Stops isNumberPart cur.rest) : cur.atExponent = false := by
  rw [Cursor.atExponent]
  cases hrest : cur.rest with
  | nil => rfl
  | cons c more =>
    obtain ⟨-, -, hsmall, hcapital⟩ := isNumberPart_eq_false_iff.1 (h c (by rw [hrest]; rfl))
    simp [hsmall, hcapital]

/-- Behind the digits of a number. -/
theorem yields_scaled (t : NumberText) (h : cur.rest = t.exponentChars ++ more)
    (hmore : Stops isNumberPart more) :
    Yields
      (if cur.atExponent then readExponent negative significand exponent cur
        else ofParts negative significand exponent cur)
      ((t.scaled? significand exponent).map (signed negative)) more := by
  rw [NumberText.exponentChars] at h
  rw [NumberText.scaled?]
  cases hexponent : t.exponent with
  | none =>
    rw [hexponent] at h
    have hrest : cur.rest = more := h
    rw [atExponent_eq_false (hrest ▸ hmore), if_neg Bool.false_ne_true]
    exact hrest ▸ yields_ofParts ..
  | some e =>
    rw [hexponent] at h
    have hrest : cur.rest = e.chars ++ more := h
    rw [if_pos (atExponent_eq_true e hrest)]
    exact yields_readExponent negative significand exponent e hrest hmore.isDigit

/-- An exponent ends a run of digits, and so does the end of the number. -/
theorem stops_exponentChars (t : NumberText) (hmore : Stops isNumberPart more) :
    Stops Char.isDigit (t.exponentChars ++ more) := by
  rw [NumberText.exponentChars]
  cases t.exponent with
  | none => exact hmore.isDigit
  | some e => exact stops_cons (by cases e.capital <;> rfl)

/-- **Fractions.**  Each digit that is collected takes one from the exponent. -/
theorem yields_readFraction (t : NumberText) (f : Digits)
    (h : cur.rest = '.' :: (f.chars ++ (t.exponentChars ++ more)))
    (hmore : Stops isNumberPart more) :
    Yields (readFraction negative significand exponent cur)
      ((t.scaled? (f.value maxSignificand significand)
        (exponent - f.taken maxSignificand significand)).map (signed negative)) more := by
  have hbehind : Stops Char.isDigit (t.exponentChars ++ more) := stops_exponentChars t hmore
  have hrest : cur.advance.rest = f.chars ++ (t.exponentChars ++ more) := Cursor.rest_advance h
  rw [readFraction]
  simp only [f.collectDigits_eq maxSignificand significand hrest hbehind]
  -- A fraction has a digit, which is collected or still there.
  have hdigit : ¬ (f.taken maxSignificand significand = 0 ∧
      ¬ (cur.advance.skip (f.taken maxSignificand significand)).atDigit = true) := by
    rintro ⟨hnone, hat⟩
    refine hat ((f.atDigit_skip_taken _ _ hrest hbehind).2 ?_)
    rw [hnone]
    exact List.length_pos_iff.2 f.nonempty
  rw [if_neg hdigit]
  exact yields_scaled negative _ _ t (f.skipDigits_skip_taken _ _ hrest hbehind).1 hmore

theorem readTail_eq_of_stops {otherwise : Result Numeral} (h : Stops (· == '.') cur.rest) :
    readTail negative significand exponent cur otherwise =
      if cur.atExponent then readExponent negative significand exponent cur else otherwise := by
  rw [readTail]
  split
  · next heq =>
    rw [heq] at h
    cases h '.' rfl
  · rfl

/-- A number without fraction and exponent ends in front of its tail; all others end behind it. -/
theorem yields_readTail (t : NumberText) {otherwise : Result Numeral} {value? : Option Numeral}
    (h : cur.rest = t.fractionChars ++ (t.exponentChars ++ more))
    (hmore : Stops isNumberPart more)
    (hinteger : t.isInteger = true → cur.rest = more → Yields otherwise value? more)
    (hvalue : t.isInteger = false →
      value? = (t.magnitude? significand exponent).map (signed negative)) :
    Yields (readTail negative significand exponent cur otherwise) value? more := by
  rw [NumberText.fractionChars] at h
  rw [NumberText.magnitude?] at hvalue
  rw [NumberText.isInteger] at hinteger hvalue
  cases hfraction : t.fraction with
  | some f =>
    rw [hfraction] at h hvalue
    have hrest : cur.rest = '.' :: (f.chars ++ (t.exponentChars ++ more)) := h
    rw [hvalue rfl, readTail, hrest]
    exact yields_readFraction negative significand exponent t f hrest hmore
  | none =>
    rw [hfraction] at h hinteger hvalue
    have hrest : cur.rest = t.exponentChars ++ more := h
    rw [NumberText.exponentChars] at hrest
    rw [NumberText.scaled?] at hvalue
    cases hexponent : t.exponent with
    | some e =>
      rw [hexponent] at hrest hvalue
      have hstops : Stops (· == '.') cur.rest := by
        rw [hrest]
        exact stops_cons (by cases e.capital <;> rfl)
      rw [hvalue rfl, readTail_eq_of_stops negative significand exponent hstops,
        if_pos (atExponent_eq_true e hrest)]
      exact yields_readExponent negative significand exponent e hrest hmore.isDigit
    | none =>
      rw [hexponent] at hrest hinteger
      have hrest' : cur.rest = more := hrest
      rw [readTail_eq_of_stops negative significand exponent (hrest' ▸ hmore.point),
        atExponent_eq_false (hrest' ▸ hmore), if_neg Bool.false_ne_true]
      exact hinteger rfl hrest'

/-- A fraction ends a run of digits, and so does what may stand in its place. -/
theorem stops_fractionChars (t : NumberText) (hmore : Stops isNumberPart more) :
    Stops Char.isDigit (t.fractionChars ++ (t.exponentChars ++ more)) := by
  rw [NumberText.fractionChars]
  cases t.fraction with
  | none => exact stops_exponentChars t hmore
  | some f => exact stops_cons rfl

/-- A zero in front is all of the integer part. -/
theorem readUnsigned_eq_of_zero (h : cur.rest = '0' :: more) (hmore : Stops Char.isDigit more) :
    readUnsigned negative cur =
      readTail negative 0 0 cur.advance (.ok (ofInteger negative 0, cur.advance)) := by
  have hat : ¬ cur.advance.atDigit = true := fun hat =>
    (Cursor.atDigit_iff (Cursor.rest_advance h) rfl hmore).1 hat rfl
  rw [readUnsigned, h]
  exact if_neg hat

/-- Any other integer part is collected as far as there is room, and what is dropped of it is made
up for by the exponent. -/
theorem readUnsigned_eq (ds : Digits) (h : cur.rest = ds.chars ++ more)
    (hmore : Stops Char.isDigit more) (hzero : ds.chars.head? ≠ some '0') :
    readUnsigned negative cur =
      let n := ds.value maxSignificand 0
      let cur := cur.skip (ds.taken maxSignificand 0)
      if cur.atDigit then
        let behind := cur.skipDigits
        let exponent : Nat := behind.offset - cur.offset
        readTail negative n exponent behind (ofParts negative n exponent behind)
      else readTail negative n 0 cur (.ok (ofInteger negative n, cur)) := by
  have hcollect := ds.collectDigits_eq maxSignificand 0 h hmore
  obtain ⟨c, rest, hds, hc⟩ := ds.exists_eq_cons
  have hne : c ≠ '0' := fun hc => hzero (by rw [hds, hc, List.head?_cons])
  have hcur : cur.rest = c :: (rest ++ more) := by rw [h, hds, List.cons_append]
  rw [hcur] at hcollect
  simp only [readUnsigned, hcur, if_neg hne, hc, if_true, hcollect]

/-- Numbers without their sign. -/
theorem yields_readUnsigned (t : NumberText) (h : cur.rest = t.unsignedChars ++ more)
    (hmore : Stops isNumberPart more) :
    Yields (readUnsigned t.negative cur) t.numeral? more := by
  have hbehind := stops_fractionChars t hmore
  have hrest : cur.rest = t.whole.chars ++ (t.fractionChars ++ (t.exponentChars ++ more)) := by
    rw [h, NumberText.unsignedChars, List.append_assoc, List.append_assoc]
  by_cases hzero : t.whole.chars.head? = some '0'
  · -- The grammar lets nothing follow a zero at the front, which is what the reader relies on.
    obtain ⟨c, hc⟩ := List.length_eq_one_iff.1 (t.leading hzero)
    obtain rfl : c = '0' := by simpa [hc] using hzero
    rw [hc] at hrest
    have hvalue : t.whole.value maxSignificand 0 = 0 := by rw [Digits.value, hc]; rfl
    have htaken : t.whole.taken maxSignificand 0 = 1 := by rw [Digits.taken, hc]; rfl
    rw [readUnsigned_eq_of_zero t.negative hrest hbehind, NumberText.numeral?, hvalue, htaken, hc]
    refine yields_readTail t.negative 0 0 t (Cursor.rest_advance hrest) hmore
      (fun hinteger hend => ⟨if_pos ⟨hinteger, rfl⟩, hend⟩) fun hinteger => ?_
    simp only [hinteger, Bool.false_eq_true, false_and, if_false]
    rfl
  · rw [readUnsigned_eq t.negative t.whole hrest hbehind hzero, NumberText.numeral?]
    have hleft := t.whole.atDigit_skip_taken maxSignificand 0 hrest hbehind
    by_cases htaken : t.whole.taken maxSignificand 0 < t.whole.chars.length
    · obtain ⟨hdigits, hcount⟩ := t.whole.skipDigits_skip_taken maxSignificand 0 hrest hbehind
      simp only [if_pos (hleft.2 htaken), hcount]
      -- Digits that have no room are not read, but they still count for the magnitude.
      have hdropped : t.whole.chars.length - t.whole.taken maxSignificand 0 ≠ 0 := by omega
      rw [if_neg fun hcases => hdropped hcases.2]
      refine yields_readTail t.negative _ _ t hdigits hmore (fun hinteger hend => ?_)
        fun _ => rfl
      rw [NumberText.magnitude?_of_isInteger hinteger]
      exact hend ▸ yields_ofParts ..
    · have hdigits := t.whole.rest_skip_taken maxSignificand 0 hrest
      rw [List.drop_eq_nil_iff.2 (Nat.not_lt.1 htaken), List.nil_append] at hdigits
      simp only [if_neg (mt hleft.1 htaken)]
      have hdropped : t.whole.chars.length - t.whole.taken maxSignificand 0 = 0 := by omega
      rw [hdropped]
      refine yields_readTail t.negative _ 0 t hdigits hmore
        (fun hinteger hend => ⟨if_pos ⟨hinteger, rfl⟩, hend⟩) fun hinteger => ?_
      simp only [hinteger, Bool.false_eq_true, false_and, if_false]
      rfl

/-- **Numbers.**  A number is read just if it is in range. -/
theorem yields_readNumber (t : NumberText) (h : cur.rest = t.chars ++ more)
    (hmore : Stops isNumberPart more) : Yields (readNumber cur) t.numeral? more := by
  rw [NumberText.chars] at h
  cases hnegative : t.negative with
  | true =>
    rw [if_pos hnegative] at h
    rw [readNumber, h, ← hnegative]
    exact yields_readUnsigned t (Cursor.rest_advance h) hmore
  | false =>
    rw [hnegative, if_neg Bool.false_ne_true] at h
    have hread : readNumber cur = readUnsigned false cur := by
      -- Without a sign the first character is a digit, and the reader goes straight on.
      obtain ⟨c, ds, hwhole, hc⟩ := t.whole.exists_eq_cons
      rw [readNumber]
      split
      · next heq =>
        rw [h, NumberText.unsignedChars, hwhole] at heq
        cases heq
        cases hc
      · rfl
    rw [hread, ← hnegative]
    exact yields_readUnsigned t h hmore

end Numbers

end SpikeWatch.Json
