import SpikeWatch.Proofs.Json.Grammar

/-!
# What readers yield

A reader meets a text of the grammar with something behind it.  `Yields` relates its result to the
value of that text, if it has one, and to the characters behind it; `Stops` is what a reader needs
to know about those.  The faults that it may report, and their places, are left open.

All statements about readers have the same form.  The characters at the cursor are those of a text
of the grammar and then some more, and a `Stops` says that the text is not longer than it looks: a
number is only over when no further digit follows.
-/

set_option autoImplicit false

namespace SpikeWatch.Json

variable {α β : Type}

/-! ## What a reader yields -/

/-- The result of a reader is the given value with the given characters left, or a failure if there
is no value. -/
def Yields (result : Result α) (value? : Option α) (more : List Char) : Prop :=
  match result with
  | .ok (a, cur) => value? = some a ∧ cur.rest = more
  | .error _ => value? = none

namespace Yields

variable {result : Result α} {value? : Option α} {more : List Char}

/-- A reader of a text with a value reads that value, and stands behind the text then. -/
theorem eq_ok {a : α} (h : Yields result (some a) more) :
    ∃ cur, result = .ok (a, cur) ∧ cur.rest = more := by
  cases result with
  | error failure => cases h
  | ok found =>
    obtain ⟨hvalue, hrest⟩ := h
    cases hvalue
    exact ⟨_, rfl, hrest⟩

/-- A reader of a text without a value fails. -/
theorem eq_error (h : Yields result none more) : ∃ failure, result = .error failure := by
  cases result with
  | error failure => exact ⟨failure, rfl⟩
  | ok found => cases h.1

/-- What is made of a result is made of its value. -/
theorem bind_return {result : Except Failure (α × Cursor)} (f : α → β)
    (h : Yields result value? more) :
    Yields (do let (a, cur) ← result; return (f a, cur) : Except Failure (β × Cursor))
      (value?.map f) more := by
  cases result with
  | error failure => exact Option.map_eq_none_iff.2 h
  | ok found => exact ⟨Option.map_eq_some_iff.2 ⟨_, h.1, rfl⟩, h.2⟩

end Yields

/-- No character of a kind comes next. -/
def Stops (kind : Char → Bool) (more : List Char) : Prop := ∀ c ∈ more.head?, kind c = false

theorem stops_nil {kind : Char → Bool} : Stops kind [] := by simp [Stops]

theorem stops_cons {kind : Char → Bool} {c : Char} {more : List Char} (hc : kind c = false) :
    Stops kind (c :: more) := by
  simpa [Stops] using hc

/-- Texts that are not empty are no more than the characters of all of them. -/
theorem length_le_length_flatMap {f : α → List Char} (hf : ∀ a, f a ≠ []) (as : List α) :
    as.length ≤ (as.flatMap f).length := by
  induction as with
  | nil => exact Nat.le_refl 0
  | cons a as ih =>
    have := List.length_pos_iff.2 (hf a)
    simp only [List.flatMap_cons, List.length_append, List.length_cons]
    omega

namespace Cursor

variable {cur : Cursor} {taken more : List Char}

theorem rest_advance {c : Char} (h : cur.rest = c :: more) : cur.advance.rest = more := by
  change cur.rest.tail = more
  rw [h, List.tail_cons]

/-- What is passed over is the characters of the kind up to the first that is not. -/
theorem skipWhile_append {kind : Char → Bool} (h : cur.rest = taken ++ more)
    (htaken : taken.all kind) (hmore : Stops kind more) :
    (cur.skipWhile kind).rest = more ∧
      (cur.skipWhile kind).offset = cur.offset + taken.length := by
  have htaken' : ∀ c ∈ taken, kind c = true := List.all_eq_true.1 htaken
  change cur.rest.dropWhile kind = more ∧
    cur.offset + (cur.rest.takeWhile kind).length = cur.offset + taken.length
  rw [h, List.dropWhile_append_of_pos htaken', List.takeWhile_append_of_pos htaken']
  cases more with
  | nil => simp
  | cons c more =>
    have hc : kind c = false := hmore c rfl
    simp [hc]

theorem rest_skipBlanks (b : Grammar.Blanks) (h : cur.rest = b.chars ++ more)
    (hmore : Stops isBlank more) : cur.skipBlanks.rest = more :=
  (skipWhile_append h b.isBlank hmore).1

/-- Behind some digits, with no more to come, the cursor is at a digit just if there is one of them
left. -/
theorem atDigit_iff (h : cur.rest = taken ++ more) (htaken : taken.all Char.isDigit)
    (hmore : Stops Char.isDigit more) : cur.atDigit = true ↔ taken ≠ [] := by
  cases taken with
  | nil =>
    rw [atDigit, h, List.nil_append]
    cases more with
    | nil => simp
    | cons c more =>
      have hc : c.isDigit = false := hmore c rfl
      simp [hc]
  | cons c taken =>
    have hc : c.isDigit = true := List.all_eq_true.1 htaken c List.mem_cons_self
    simp [atDigit, h, hc]

theorem isEmpty_eq_false_of_atDigit (h : cur.atDigit = true) : cur.rest.isEmpty = false := by
  rw [atDigit] at h
  cases hrest : cur.rest with
  | nil => simp [hrest] at h
  | cons c more => rfl

end Cursor

/-- A word is read where it stands. -/
theorem readWord_eq_ok {word more : List Char} {cur : Cursor} (h : cur.rest = word ++ more) :
    ∃ behind, readWord word cur = .ok behind ∧ behind.rest = more := by
  induction word generalizing cur with
  | nil => exact ⟨cur, rfl, h⟩
  | cons c word ih =>
    have hc : cur.rest = c :: (word ++ more) := h
    obtain ⟨behind, hread, hrest⟩ := ih (Cursor.rest_advance hc)
    refine ⟨behind, ?_, hrest⟩
    rw [readWord, hc]
    exact (if_pos rfl).trans hread

end SpikeWatch.Json
