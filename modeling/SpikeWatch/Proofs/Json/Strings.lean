import SpikeWatch.Proofs.Json.Yields

/-!
# Reading strings

A string is refused only if half of a surrogate pair is left alone in it.  `spelled?` gives the
characters that it stands for otherwise, and `yields_readString` says that they are read.

A string is a run of pieces: characters as they are, short escapes, and code units by their digits.
Only the last kind may depend on what follows.  A leading half has to be followed by a trailing one,
which has to be written as a code unit as well, since nothing else that begins with a backslash and
a `u` is a piece.  So the reader, who looks at characters, and `spelled?`, which looks at pieces,
see the same next unit (`exists_eq_unit_cons`), and the induction is on the cases of `spelled?`.
-/

set_option autoImplicit false

namespace SpikeWatch.Json

/-! ## What strings stand for -/

namespace Grammar

/-- The first half of a surrogate pair. -/
def IsLead (n : Nat) : Prop := 0xD800 ≤ n ∧ n ≤ 0xDBFF

/-- The second half of a surrogate pair. -/
def IsTrail (n : Nat) : Prop := 0xDC00 ≤ n ∧ n ≤ 0xDFFF

instance (n : Nat) : Decidable (IsLead n) := inferInstanceAs (Decidable (_ ∧ _))
instance (n : Nat) : Decidable (IsTrail n) := inferInstanceAs (Decidable (_ ∧ _))

/-- The character of a surrogate pair. -/
def paired (lead trail : Nat) : Char :=
  Char.ofNat (0x10000 + (lead - 0xD800) * 0x400 + (trail - 0xDC00))

/-- The characters that the pieces of a string stand for, if no half of a pair is left alone. -/
def spelled? : List Piece → Option (List Char)
  | [] => some []
  | .plain c _ :: rest => (spelled? rest).map (c :: ·)
  | .short mark _ :: rest => (shortEscape? mark).bind fun c => (spelled? rest).map (c :: ·)
  | .unit _ n _ :: rest =>
    if IsTrail n then none
    else if IsLead n then
      match rest with
      | .unit _ trail _ :: rest =>
        if IsTrail trail then (spelled? rest).map (paired n trail :: ·) else none
      | _ => none
    else (spelled? rest).map (Char.ofNat n :: ·)

/-- All marks of the grammar stand for something. -/
theorem exists_shortEscape?_eq_some {mark : Char}
    (h : mark ∈ ['"', '\\', '/', 'b', 'f', 'n', 'r', 't']) :
    ∃ c, shortEscape? mark = some c := by
  simp only [List.mem_cons, List.not_mem_nil, or_false] at h
  rcases h with rfl | rfl | rfl | rfl | rfl | rfl | rfl | rfl <;> exact ⟨_, rfl⟩

/-- A string without escapes for halves of pairs has a value. -/
theorem isSome_spelled?_of_forall {pieces : List Piece}
    (h : ∀ digits n hdigits, .unit digits n hdigits ∈ pieces → ¬ IsLead n ∧ ¬ IsTrail n) :
    (spelled? pieces).isSome = true := by
  have hrest {piece : Piece} {rest : List Piece}
      (h : ∀ digits n hdigits, .unit digits n hdigits ∈ piece :: rest → ¬ IsLead n ∧ ¬ IsTrail n) :
      ∀ digits n hdigits, .unit digits n hdigits ∈ rest → ¬ IsLead n ∧ ¬ IsTrail n :=
    fun digits n hdigits hmem => h digits n hdigits (List.mem_cons_of_mem _ hmem)
  fun_induction spelled? pieces with
  | case1 => rfl
  | case2 c hc rest ih => rw [Option.isSome_map, ih (hrest h)]
  | case3 mark hmark rest ih =>
    obtain ⟨c, hc⟩ := exists_shortEscape?_eq_some hmark
    rw [hc, Option.bind_some, Option.isSome_map, ih (hrest h)]
  | case4 digits n hdigits rest htrail =>
    exact absurd htrail (h digits n hdigits List.mem_cons_self).2
  | case5 digits n hdigits _ hlead | case6 digits n hdigits _ hlead
  | case7 digits n hdigits _ _ hlead =>
    exact absurd hlead (h digits n hdigits List.mem_cons_self).1
  | case8 digits n hdigits rest htrail hlead ih => rw [Option.isSome_map, ih (hrest h)]

end Grammar

/-! ## Code units -/

open Grammar

section Strings

variable {cur : Cursor} {more digits : List Char} {n : Nat}

/-- Four hexadecimal digits are read as their number. -/
theorem readHex_eq (h : cur.rest = digits ++ more)
    (hdigits : digits.length = 4 ∧ Text.ofHex? digits = some n) :
    readHex cur = .ok (n, cur.skip 4) ∧ (cur.skip 4).rest = more := by
  have htake : cur.rest.take 4 = digits := by rw [h, ← hdigits.1, List.take_left]
  refine ⟨?_, ?_⟩
  · simp only [readHex, htake, if_pos hdigits.1, hdigits.2]
  · change cur.rest.drop 4 = more
    rw [h, ← hdigits.1, List.drop_left]

theorem readPairMark_eq_ok {mark : Char} (h : cur.rest = mark :: more) :
    readPairMark mark cur = .ok cur.advance := by
  rw [readPairMark, h]
  exact if_pos rfl

theorem readPairMark_eq_error {mark : Char} (h : cur.rest.head? ≠ some mark) :
    ∃ failure, readPairMark mark cur = .error failure := by
  rw [readPairMark]
  cases hrest : cur.rest with
  | nil => exact ⟨_, rfl⟩
  | cons c more => exact ⟨_, if_neg fun hc => h (by rw [hrest, hc, List.head?_cons])⟩

/-- What is done with a code unit goes by its number alone: a second half is refused here, and a
first half asks for another unit. -/
theorem readUnits_eq (h : cur.rest = digits ++ more)
    (hdigits : digits.length = 4 ∧ Text.ofHex? digits = some n) :
    readUnits cur =
      if IsTrail n then (cur.skip 4).failHere .loneSurrogate
      else if n < 0xD800 ∨ 0xDBFF < n then .ok (Char.ofNat n, cur.skip 4)
      else do
        let cur ← readPairMark '\\' (cur.skip 4)
        let cur ← readPairMark 'u' cur
        let (low, cur) ← readHex cur
        if low < 0xDC00 ∨ 0xDFFF < low then cur.failHere .loneSurrogate
        else return (paired n low, cur) := by
  rw [readUnits, (readHex_eq h hdigits).1]
  rfl

/-- A unit that is no half of a pair. -/
theorem readUnits_eq_ok (h : cur.rest = digits ++ more)
    (hdigits : digits.length = 4 ∧ Text.ofHex? digits = some n) (hlead : ¬ IsLead n)
    (htrail : ¬ IsTrail n) : readUnits cur = .ok (Char.ofNat n, cur.skip 4) := by
  have hn : n < 0xD800 ∨ 0xDBFF < n := by
    simp only [IsLead] at hlead
    omega
  rw [readUnits_eq h hdigits, if_neg htrail, if_pos hn]

/-- Behind a first half there has to be a second one. -/
theorem readUnits_eq_of_isLead (h : cur.rest = digits ++ more)
    (hdigits : digits.length = 4 ∧ Text.ofHex? digits = some n) (hlead : IsLead n) :
    readUnits cur = do
      let cur ← readPairMark '\\' (cur.skip 4)
      let cur ← readPairMark 'u' cur
      let (low, cur) ← readHex cur
      if low < 0xDC00 ∨ 0xDFFF < low then cur.failHere .loneSurrogate
      else return (paired n low, cur) := by
  simp only [IsLead] at hlead
  rw [readUnits_eq h hdigits, if_neg (by simp only [IsTrail]; omega), if_neg (by omega)]

/-- A first half and another unit make a pair just if the other one is a second half. -/
theorem readUnits_of_isLead_unit {trail : Nat} {digits' : List Char}
    (h : cur.rest = digits ++ '\\' :: 'u' :: (digits' ++ more))
    (hdigits : digits.length = 4 ∧ Text.ofHex? digits = some n)
    (hdigits' : digits'.length = 4 ∧ Text.ofHex? digits' = some trail) (hlead : IsLead n) :
    Yields (readUnits cur) (if IsTrail trail then some (paired n trail) else none) more := by
  have hmark := (readHex_eq h hdigits).2
  have hmark' := Cursor.rest_advance hmark
  obtain ⟨hread, hrest⟩ := readHex_eq (Cursor.rest_advance hmark') hdigits'
  simp only [readUnits_eq_of_isLead h hdigits hlead, readPairMark_eq_ok hmark,
    readPairMark_eq_ok hmark', hread, bind, Except.bind]
  by_cases htrail : IsTrail trail
  · rw [if_pos htrail, if_neg (by simp only [IsTrail] at htrail; omega)]
    exact ⟨rfl, hrest⟩
  · rw [if_neg htrail, if_pos (by simp only [IsTrail] at htrail; omega)]
    rfl

/-- A first half with anything else behind it is left alone. -/
theorem readUnits_eq_error_of_isLead (h : cur.rest = digits ++ more)
    (hdigits : digits.length = 4 ∧ Text.ofHex? digits = some n) (hlead : IsLead n)
    (hmore : ∀ behind, more ≠ '\\' :: 'u' :: behind) :
    ∃ failure, readUnits cur = .error failure := by
  have hrest := (readHex_eq h hdigits).2
  rw [readUnits_eq_of_isLead h hdigits hlead]
  by_cases hslash : more.head? = some '\\'
  · obtain ⟨behind, rfl⟩ := List.head?_eq_some_iff.1 hslash
    have hbehind := Cursor.rest_advance hrest
    have hmark : (cur.skip 4).advance.rest.head? ≠ some 'u' := by
      intro hmark
      obtain ⟨behind', heq⟩ := List.head?_eq_some_iff.1 hmark
      exact hmore behind' (by rw [← heq, hbehind])
    obtain ⟨failure, hread⟩ := readPairMark_eq_error hmark
    refine ⟨failure, ?_⟩
    simp only [readPairMark_eq_ok hrest, hread, bind, Except.bind]
  · obtain ⟨failure, hread⟩ := readPairMark_eq_error (hrest ▸ hslash)
    exact ⟨failure, by rw [hread]; rfl⟩

/-! ## Whole strings -/

variable {fuel : Nat} {done : List Char}

/-- A quote ends a string. -/
theorem readStringFrom_quote (h : cur.rest = '"' :: more) :
    readStringFrom (fuel + 1) done cur = .ok (String.ofList done.reverse, cur.advance) := by
  rw [readStringFrom, h]
  rfl

/-- A character that stands for itself is taken as it is. -/
theorem readStringFrom_plain {c : Char} (hc : ¬ c < ' ' ∧ c ≠ '"' ∧ c ≠ '\\')
    (h : cur.rest = c :: more) :
    readStringFrom (fuel + 1) done cur = readStringFrom fuel (c :: done) cur.advance := by
  rw [readStringFrom, h]
  simp only [if_neg hc.1, if_neg hc.2.1, if_neg hc.2.2]

/-- A backslash is followed by an escape. -/
theorem readStringFrom_escape (h : cur.rest = '\\' :: more) :
    readStringFrom (fuel + 1) done cur =
      match readEscape cur.advance with
      | .error e => .error e
      | .ok (d, cur) => readStringFrom fuel (d :: done) cur := by
  rw [readStringFrom, h]
  rfl

/-- An escape by code units is read with all the units that it takes. -/
theorem readStringFrom_unit (h : cur.rest = '\\' :: 'u' :: more) :
    readStringFrom (fuel + 1) done cur =
      match readUnits cur.advance.advance with
      | .error e => .error e
      | .ok (d, cur) => readStringFrom fuel (d :: done) cur := by
  rw [readStringFrom_escape h, readEscape, Cursor.rest_advance h]
  rfl

/-- A mark stands for its character. -/
theorem readEscape_short {mark c : Char} (hc : shortEscape? mark = some c)
    (h : cur.rest = mark :: more) : readEscape cur = .ok (c, cur.advance) := by
  simp only [readEscape, h, hc]

/-- What a string is, from the characters read before and those behind them. -/
theorem map_map_ofList (done : List Char) (c : Char) (value? : Option (List Char)) :
    ((value?.map (c :: ·)).map fun cs => String.ofList (done.reverse ++ cs)) =
      value?.map fun cs => String.ofList ((c :: done).reverse ++ cs) := by
  cases value? <;> simp

theorem flatMap_chars_unit_cons (hdigits : digits.length = 4 ∧ Text.ofHex? digits = some n)
    (rest : List Piece) (behind : List Char) :
    (.unit digits n hdigits :: rest : List Piece).flatMap Piece.chars ++ behind =
      '\\' :: 'u' :: (digits ++ (rest.flatMap Piece.chars ++ behind)) := by
  simp [Piece.chars]

/-- What looks like a code unit is one: no other piece begins with a backslash and a `u`. -/
theorem exists_eq_unit_cons {pieces : List Piece} {behind : List Char}
    (h : pieces.flatMap Piece.chars ++ '"' :: more = '\\' :: 'u' :: behind) :
    ∃ digits n hdigits rest, pieces = .unit digits n hdigits :: rest := by
  cases pieces with
  | nil => cases h
  | cons piece rest =>
    cases piece with
    | plain c hc => exact absurd (List.cons.inj h).1 hc.2.2
    | short mark hmark =>
      obtain rfl : mark = 'u' := (List.cons.inj (List.cons.inj h).2).1
      simp at hmark
    | unit digits n hdigits => exact ⟨digits, n, hdigits, rest, rfl⟩

/-- A string is read up to its quote if its pieces spell characters, behind those that were read
already. -/
theorem yields_readStringFrom (pieces : List Piece)
    (h : cur.rest = pieces.flatMap Piece.chars ++ '"' :: more) (hfuel : pieces.length ≤ fuel) :
    Yields (readStringFrom (fuel + 1) done cur)
      ((spelled? pieces).map fun cs => String.ofList (done.reverse ++ cs)) more := by
  fun_induction spelled? pieces generalizing cur fuel done with
  | case1 =>
    rw [readStringFrom_quote h]
    exact ⟨by simp, Cursor.rest_advance h⟩
  | case2 c hc rest ih =>
    obtain ⟨fuel, rfl⟩ := Nat.exists_eq_add_of_lt hfuel
    have hrest : cur.rest = c :: (rest.flatMap Piece.chars ++ '"' :: more) := h
    rw [readStringFrom_plain hc hrest, map_map_ofList]
    exact ih (Cursor.rest_advance hrest) (Nat.le_add_right ..)
  | case3 mark hmark rest ih =>
    obtain ⟨fuel, rfl⟩ := Nat.exists_eq_add_of_lt hfuel
    obtain ⟨c, hc⟩ := exists_shortEscape?_eq_some hmark
    have hrest : cur.rest = '\\' :: mark :: (rest.flatMap Piece.chars ++ '"' :: more) := h
    have hrest' := Cursor.rest_advance hrest
    rw [readStringFrom_escape hrest, readEscape_short hc hrest', hc, Option.bind_some,
      map_map_ofList]
    exact ih (Cursor.rest_advance hrest') (Nat.le_add_right ..)
  | case4 digits n hdigits rest htrail =>
    have hrest := h.trans (flatMap_chars_unit_cons hdigits rest _)
    have hunits := Cursor.rest_advance (Cursor.rest_advance hrest)
    rw [readStringFrom_unit hrest, readUnits_eq hunits hdigits, if_pos htrail]
    rfl
  | case5 digits n hdigits _ hlead digits' trail hdigits' rest htrail ih =>
    have hrest := h.trans (flatMap_chars_unit_cons hdigits _ _)
    rw [flatMap_chars_unit_cons hdigits'] at hrest
    have hunits := readUnits_of_isLead_unit
      (Cursor.rest_advance (Cursor.rest_advance hrest)) hdigits hdigits' hlead
    rw [if_pos htrail] at hunits
    obtain ⟨behind, hread, hbehind⟩ := hunits.eq_ok
    rw [readStringFrom_unit hrest, hread, map_map_ofList]
    obtain ⟨fuel, rfl⟩ := Nat.exists_eq_add_of_lt hfuel
    exact ih hbehind (by simp; omega)
  | case6 digits n hdigits _ hlead digits' trail hdigits' rest htrail =>
    have hrest := h.trans (flatMap_chars_unit_cons hdigits _ _)
    rw [flatMap_chars_unit_cons hdigits'] at hrest
    have hunits := readUnits_of_isLead_unit
      (Cursor.rest_advance (Cursor.rest_advance hrest)) hdigits hdigits' hlead
    rw [if_neg htrail] at hunits
    obtain ⟨failure, hread⟩ := hunits.eq_error
    rw [readStringFrom_unit hrest, hread]
    rfl
  | case7 digits n hdigits rest _ hlead hother =>
    have hrest := h.trans (flatMap_chars_unit_cons hdigits rest _)
    obtain ⟨failure, hread⟩ := readUnits_eq_error_of_isLead
      (Cursor.rest_advance (Cursor.rest_advance hrest)) hdigits hlead fun behind heq => by
        obtain ⟨digits', trail, hdigits', rest', rfl⟩ := exists_eq_unit_cons heq
        exact hother digits' trail hdigits' rest' rfl
    rw [readStringFrom_unit hrest, hread]
    rfl
  | case8 digits n hdigits rest htrail hlead ih =>
    obtain ⟨fuel, rfl⟩ := Nat.exists_eq_add_of_lt hfuel
    have hrest := h.trans (flatMap_chars_unit_cons hdigits rest _)
    have hunits := Cursor.rest_advance (Cursor.rest_advance hrest)
    rw [readStringFrom_unit hrest, readUnits_eq_ok hunits hdigits hlead htrail, map_map_ofList]
    exact ih (readHex_eq hunits hdigits).2 (Nat.le_add_right ..)

/-- **Strings.**  A string is read just if no half of a surrogate pair is left alone in it. -/
theorem yields_readString (pieces : List Piece)
    (h : cur.rest = pieces.flatMap Piece.chars ++ '"' :: more) :
    Yields (readString cur) ((spelled? pieces).map String.ofList) more := by
  have hfuel : pieces.length ≤ cur.size := by
    have hlength := cur.length_le
    have := length_le_length_flatMap Piece.chars_ne_nil pieces
    rw [h, List.length_append] at hlength
    omega
  exact yields_readStringFrom pieces h hfuel

end Strings

end SpikeWatch.Json
