import Mathlib.Logic.Basic
import SpikeWatch.Json.Reading
import SpikeWatch.Proofs.Json.Numbers
import SpikeWatch.Proofs.Json.Strings

/-!
# Reading values

Lists and objects are read just if all that is in them is, and if brackets do not nest too deeply.

A reader counts its steps, and a text might be longer than it may count.  It never is: each item of
a list has a character at least, so there are fewer items than the text has characters
(`length_lt_size`), and that is how many steps the reader has.

* `Tree.value?` is the value of a text with so many levels of brackets, if it has one, and
  `yields_readValue` says that it is read, by induction on the tree.
* `Tree.isSome_value?_iff` tells when a text has a value: its brackets nest no deeper than that, and
  each word, number and string in it has one.
* `yields_readItems` is about lists of texts of any kind, for readers of other items than values.
-/

set_option autoImplicit false

namespace SpikeWatch.Json

open Grammar

/-! ## The values of texts -/

namespace Grammar

/-- The value of a text without brackets, if it has one. -/
def ScalarText.value? : ScalarText → Option Value
  | null => some .null
  | bool b => some (.bool b)
  | number n => n.numeral?.map .number
  | text pieces => ((spelled? pieces).map String.ofList).map .text

namespace Tree

mutual

/-- The value of a text in which brackets may nest as deeply as the first argument says. -/
def value? : Nat → Tree → Option Value
  | _, scalar s => s.value?
  | 0, _ => none
  | depth + 1, list _ items => (values? depth items).map .array
  | depth + 1, object _ members => (members? depth [] members).map .object

/-- The values of items, if all of them have one. -/
def values? (depth : Nat) : List (Padded Tree) → Option (List Value)
  | [] => some []
  | ⟨_, t, _⟩ :: items => (value? depth t).bind fun v => (values? depth items).map (v :: ·)

/-- The members behind those that are already there; of two with the same key the later stays. -/
def members? (depth : Nat) : List (String × Value) → List (Member Tree) →
    Option (List (String × Value))
  | done, [] => some done
  | done, ⟨_, key, _, ⟨_, t, _⟩⟩ :: members =>
    (spelled? key).bind fun cs => (value? depth t).bind fun v =>
      members? depth (insertMember (String.ofList cs) v done) members

end

theorem values?_eq_mapM (depth : Nat) (items : List (Padded Tree)) :
    values? depth items = items.mapM fun item => item.body.value? depth := by
  induction items with
  | nil => rfl
  | cons item items ih =>
    rw [values?, ih, List.mapM_cons]
    cases item.body.value? depth with
    | none => rfl
    | some v => cases items.mapM fun item => item.body.value? depth <;> rfl

/-- No item is left out, and none is counted twice. -/
theorem length_eq_of_values?_eq_some {depth : Nat} {items : List (Padded Tree)}
    {vs : List Value} (h : values? depth items = some vs) : vs.length = items.length := by
  induction items generalizing vs with
  | nil => cases h; rfl
  | cons item items ih =>
    obtain ⟨v, -, hcons⟩ := Option.bind_eq_some_iff.1 h
    obtain ⟨rest, hrest, rfl⟩ := Option.map_eq_some_iff.1 hcons
    rw [List.length_cons, List.length_cons, ih hrest]

end Tree

end Grammar

variable {α τ : Type}

/-- A reader takes a text for its value, behind any blanks and in front of what ends a number. -/
def Reads (read : Cursor → Result α) (text : List Char) (value? : Option α) : Prop :=
  ∀ (cur : Cursor) (before : Blanks) (more : List Char), cur.rest = before.chars ++ (text ++ more) →
    Stops isNumberPart more → Yields (read cur) value? more

/-- A text begins with neither a blank nor a closing bracket. -/
def Begins (text : List Char) : Prop :=
  ∃ c rest, text = c :: rest ∧ Cursor.isBlank c = false ∧ c ≠ ']'

/-! ## Lists -/

section Lists

variable {cur : Cursor} {text more : List Char} (first : Bool)

/-- A text that begins with something does not begin with a blank. -/
theorem Begins.stops (h : Begins text) (more : List Char) :
    Stops Cursor.isBlank (text ++ more) := by
  obtain ⟨c, rest, rfl, hc, -⟩ := h
  exact stops_cons hc

/-- At the end of a list, whatever was in front. -/
theorem nextItem_closed (after : Blanks) (h : cur.rest = after.chars ++ ']' :: more) :
    ∃ behind, nextItem first cur = .ok (.closed behind) ∧ behind.rest = ']' :: more := by
  have hrest := Cursor.rest_skipBlanks after h (stops_cons rfl)
  refine ⟨cur.skipBlanks, ?_, hrest⟩
  simp only [nextItem, hrest, if_true]

/-- At the first item of a list. -/
theorem nextItem_first (before : Blanks) (h : cur.rest = before.chars ++ (text ++ more))
    (htext : Begins text) :
    ∃ behind, nextItem true cur = .ok (.item behind) ∧ behind.rest = text ++ more := by
  have hrest := Cursor.rest_skipBlanks before h (htext.stops more)
  refine ⟨cur.skipBlanks, ?_, hrest⟩
  obtain ⟨c, rest, rfl, -, hc⟩ := htext
  simp only [nextItem, hrest, List.cons_append, if_neg hc, if_true]

/-- At any other item, behind its comma. -/
theorem nextItem_comma (after before : Blanks)
    (h : cur.rest = after.chars ++ ',' :: (before.chars ++ (text ++ more))) (htext : Begins text) :
    ∃ behind, nextItem false cur = .ok (.item behind) ∧ behind.rest = text ++ more := by
  have hcomma := Cursor.rest_skipBlanks after h (stops_cons rfl)
  have hrest := Cursor.rest_skipBlanks before (Cursor.rest_advance hcomma) (htext.stops more)
  refine ⟨cur.skipBlanks.advance.skipBlanks, ?_, hrest⟩
  obtain ⟨c, rest, rfl, -, hc⟩ := htext
  simp [nextItem, hcomma, hrest, hc]

/-- The commas can be seen as standing in front of all items but the first. -/
theorem writeSeparated_cons (text : List Char) (texts : List (List Char)) :
    writeSeparated (text :: texts) = text ++ texts.flatMap (',' :: ·) := by
  induction texts generalizing text with
  | nil => simp [writeSeparated]
  | cons next texts ih => rw [writeSeparated, ih, List.flatMap_cons, List.cons_append]; simp

/-- Blanks end a number, and where there are none it is for what follows to end it. -/
theorem stops_blanks_append (after : Blanks) (h : Stops isNumberPart more) :
    Stops isNumberPart (after.chars ++ more) := by
  cases hafter : after.chars with
  | nil => exact h
  | cons c rest =>
    have hc : Cursor.isBlank c = true :=
      List.all_eq_true.1 after.isBlank c (hafter ▸ List.mem_cons_self)
    simp only [Cursor.isBlank, Bool.or_eq_true, beq_iff_eq] at hc
    rcases hc with ((rfl | rfl) | rfl) | rfl <;> exact stops_cons rfl

/-- Behind an item there is a comma or the end of the list, and both of them end a number. -/
theorem stops_flatMap_append (texts : List (List Char)) {c : Char} (hc : isNumberPart c = false) :
    Stops isNumberPart (texts.flatMap (',' :: ·) ++ c :: more) := by
  cases texts with
  | nil => exact stops_cons hc
  | cons text texts => exact stops_cons rfl

/-- A list has fewer items than its text has characters. -/
theorem length_lt_size {before : List Char} {texts : List (List Char)} {c : Char}
    (h : cur.rest = before ++ (text ++ texts.flatMap (',' :: ·) ++ c :: more)) :
    texts.length < cur.size := by
  have hlength := cur.length_le
  have := length_le_length_flatMap (f := (',' :: ·)) (fun _ => List.cons_ne_nil _ _) texts
  simp only [h, List.length_append, List.length_cons] at hlength
  omega

variable {chars : τ → List Char} {meaning? : τ → Option α} {read : Cursor → Result α}
  {fuel : Nat} {done : List α}

/-- An item in front of others, where it is the next one. -/
theorem yields_readItemsFrom_cons {item : Padded τ} {items : List (Padded τ)} {front : Cursor}
    {behind : List Char} (hnext : nextItem first cur = .ok (.item front))
    (hitem : Reads read (chars item.body) (meaning? item.body))
    (hfront : front.rest = chars item.body ++ behind) (hbehind : Stops isNumberPart behind)
    (hitems : ∀ v cur, cur.rest = behind →
      Yields (readItemsFrom read fuel false (v :: done) cur)
        ((items.mapM fun item => meaning? item.body).map ((v :: done).reverse ++ ·)) more) :
    Yields (readItemsFrom read (fuel + 1) first done cur)
      (((item :: items).mapM fun item => meaning? item.body).map (done.reverse ++ ·)) more := by
  have hread := hitem front .none behind hfront hbehind
  rw [List.mapM_cons]
  simp only [readItemsFrom, hnext]
  cases hvalue : meaning? item.body with
  | none =>
    rw [hvalue] at hread
    obtain ⟨failure, hread⟩ := hread.eq_error
    rw [hread]
    rfl
  | some v =>
    rw [hvalue] at hread
    obtain ⟨cur', hread, hrest⟩ := hread.eq_ok
    have := hitems v cur' hrest
    rw [hread]
    cases hitems : items.mapM fun item => meaning? item.body <;> simpa [hitems] using this

/-- Behind the first item of a list. -/
theorem yields_readItemsFrom (items : List (Padded τ))
    (hread : ∀ item ∈ items, Reads read (chars item.body) (meaning? item.body))
    (hbegins : ∀ item ∈ items, Begins (chars item.body)) (after : Blanks)
    (h : cur.rest = after.chars ++
      ((items.map (Padded.chars chars)).flatMap (',' :: ·) ++ ']' :: more))
    (hfuel : items.length ≤ fuel) :
    Yields (readItemsFrom read (fuel + 1) false done cur)
      ((items.mapM fun item => meaning? item.body).map (done.reverse ++ ·)) more := by
  induction items generalizing cur fuel done after with
  | nil =>
    obtain ⟨behind, hnext, hrest⟩ := nextItem_closed false after h
    simp only [readItemsFrom, hnext]
    exact ⟨by simp, Cursor.rest_advance hrest⟩
  | cons item items ih =>
    obtain ⟨fuel, rfl⟩ := Nat.exists_eq_add_of_lt hfuel
    obtain ⟨hitem, hitems⟩ := List.forall_mem_cons.1 hread
    obtain ⟨hbegin, hbegins⟩ := List.forall_mem_cons.1 hbegins
    have hcomma : cur.rest = after.chars ++ ',' :: (item.before.chars ++ (chars item.body ++
        (item.after.chars ++
          ((items.map (Padded.chars chars)).flatMap (',' :: ·) ++ ']' :: more)))) := by
      simpa [Padded.chars] using h
    obtain ⟨front, hnext, hfront⟩ := nextItem_comma after item.before hcomma hbegin
    exact yields_readItemsFrom_cons false hnext hitem hfront
      (stops_blanks_append item.after (stops_flatMap_append _ rfl)) fun v cur hrest =>
        ih hitems hbegins item.after hrest (Nat.le_add_right ..)

/-- **Lists.**  A list is read just if all its items are. -/
theorem yields_readItems (within : Blanks) (items : List (Padded τ))
    (hread : ∀ item ∈ items, Reads read (chars item.body) (meaning? item.body))
    (hbegins : ∀ item ∈ items, Begins (chars item.body))
    (h : cur.rest = within.chars ++
      (writeSeparated (items.map (Padded.chars chars)) ++ ']' :: more)) :
    Yields (readItems read cur) (items.mapM fun item => meaning? item.body) more := by
  rw [readItems]
  cases items with
  | nil =>
    obtain ⟨behind, hnext, hrest⟩ := nextItem_closed true within h
    simp only [readItemsFrom, hnext]
    exact ⟨rfl, Cursor.rest_advance hrest⟩
  | cons item items =>
    obtain ⟨hitem, hitems⟩ := List.forall_mem_cons.1 hread
    obtain ⟨hbegin, hbegins⟩ := List.forall_mem_cons.1 hbegins
    rw [List.map_cons, writeSeparated_cons, Padded.chars] at h
    -- The reader counts down from the size of the text, which is more than there are items.
    obtain ⟨fuel, hsize⟩ := Nat.exists_eq_add_of_lt (length_lt_size h)
    rw [List.length_map] at hsize
    have hfirst : cur.rest = (within.append item.before).chars ++ (chars item.body ++
        (item.after.chars ++
          ((items.map (Padded.chars chars)).flatMap (',' :: ·) ++ ']' :: more))) := by
      simpa [Blanks.append] using h
    obtain ⟨front, hnext, hfront⟩ := nextItem_first (within.append item.before) hfirst hbegin
    have hcons : Yields (readItemsFrom read (items.length + fuel + 1 + 1) true [] cur)
        (((item :: items).mapM fun item => meaning? item.body).map ([].reverse ++ ·)) more :=
      yields_readItemsFrom_cons true hnext hitem hfront
        (stops_blanks_append item.after (stops_flatMap_append _ rfl)) fun v cur hrest =>
          yields_readItemsFrom items hitems hbegins item.after hrest (Nat.le_add_right ..)
    rw [hsize]
    simpa using hcons

end Lists

/-! ## Objects -/

section Objects

variable {cur : Cursor} {key : List Piece} {more : List Char} (first : Bool)

/-- At the end of an object, whatever was in front. -/
theorem nextKey_closed (after : Blanks) (h : cur.rest = after.chars ++ '\x7d' :: more) :
    ∃ behind, nextKey first cur = .ok (.closed behind) ∧ behind.rest = '\x7d' :: more := by
  have hrest := Cursor.rest_skipBlanks after h (stops_cons rfl)
  refine ⟨cur.skipBlanks, ?_, hrest⟩
  simp only [nextKey, hrest, if_true]

/-- At the first member of an object. -/
theorem nextKey_first (before : Blanks) (h : cur.rest = before.chars ++ (quoted key ++ more)) :
    ∃ behind, nextKey true cur = .ok (.item behind) ∧
      behind.rest = key.flatMap Piece.chars ++ '"' :: more := by
  have h' : cur.rest = before.chars ++ '"' :: (key.flatMap Piece.chars ++ '"' :: more) := by
    simpa [quoted] using h
  have hrest := Cursor.rest_skipBlanks before h' (stops_cons rfl)
  refine ⟨cur.skipBlanks.advance, ?_, Cursor.rest_advance hrest⟩
  simp [nextKey, hrest]

/-- At any other member, behind its comma. -/
theorem nextKey_comma (after before : Blanks)
    (h : cur.rest = after.chars ++ ',' :: (before.chars ++ (quoted key ++ more))) :
    ∃ behind, nextKey false cur = .ok (.item behind) ∧
      behind.rest = key.flatMap Piece.chars ++ '"' :: more := by
  have h' : cur.rest =
      after.chars ++ ',' :: (before.chars ++ '"' :: (key.flatMap Piece.chars ++ '"' :: more)) := by
    simpa [quoted] using h
  have hcomma := Cursor.rest_skipBlanks after h' (stops_cons rfl)
  have hrest := Cursor.rest_skipBlanks before (Cursor.rest_advance hcomma) (stops_cons rfl)
  refine ⟨cur.skipBlanks.advance.skipBlanks.advance, ?_, Cursor.rest_advance hrest⟩
  simp [nextKey, hcomma, hrest]

/-- The colon is found behind blanks. -/
theorem readColon_eq (behindKey : Blanks) (h : cur.rest = behindKey.chars ++ ':' :: more) :
    ∃ behind, readColon cur = .ok behind ∧ behind.rest = more := by
  have hrest := Cursor.rest_skipBlanks behindKey h (stops_cons rfl)
  refine ⟨cur.skipBlanks.advance, ?_, Cursor.rest_advance hrest⟩
  simp only [readColon, hrest, if_true]

variable {read : Cursor → Result Value} {depth fuel : Nat} {done : List (String × Value)}

/-- A member in front of others, where it is the next one. -/
theorem yields_readMembersFrom_cons {m : Member Tree} {members : List (Member Tree)}
    {front : Cursor} {behind : List Char} (hnext : nextKey first cur = .ok (.item front))
    (hvalue : Reads read m.value.body.chars (m.value.body.value? depth))
    (hfront : front.rest = m.key.flatMap Piece.chars ++ '"' :: (m.behindKey.chars ++
      ':' :: (m.value.before.chars ++ (m.value.body.chars ++ behind))))
    (hbehind : Stops isNumberPart behind)
    (hmembers : ∀ done cur, cur.rest = behind →
      Yields (readMembersFrom read fuel false done cur) (Tree.members? depth done members) more) :
    Yields (readMembersFrom read (fuel + 1) first done cur)
      (Tree.members? depth done (m :: members)) more := by
  have hkey := yields_readString m.key hfront
  simp only [readMembersFrom, hnext, Tree.members?]
  cases hspelled : spelled? m.key with
  | none =>
    rw [hspelled] at hkey
    obtain ⟨failure, hkey⟩ := hkey.eq_error
    rw [hkey]
    rfl
  | some cs =>
    rw [hspelled] at hkey
    obtain ⟨behindKey, hkey, hrest⟩ := hkey.eq_ok
    obtain ⟨behindColon, hcolon, hrest⟩ := readColon_eq m.behindKey hrest
    have hread := hvalue behindColon m.value.before behind hrest hbehind
    simp only [hkey, hcolon, Option.bind_some]
    cases hvalue : m.value.body.value? depth with
    | none =>
      rw [hvalue] at hread
      obtain ⟨failure, hread⟩ := hread.eq_error
      rw [hread]
      rfl
    | some v =>
      rw [hvalue] at hread
      obtain ⟨cur', hread, hrest⟩ := hread.eq_ok
      rw [hread]
      -- the member goes to its place among those that were read, wherever that is
      exact hmembers _ cur' hrest

/-- Behind the first member of an object. -/
theorem yields_readMembersFrom (members : List (Member Tree))
    (hread : ∀ m ∈ members, Reads read m.value.body.chars (m.value.body.value? depth))
    (after : Blanks)
    (h : cur.rest = after.chars ++
      ((members.map (Member.chars Tree.chars)).flatMap (',' :: ·) ++ '\x7d' :: more))
    (hfuel : members.length ≤ fuel) :
    Yields (readMembersFrom read (fuel + 1) false done cur) (Tree.members? depth done members)
      more := by
  induction members generalizing cur fuel done after with
  | nil =>
    obtain ⟨behind, hnext, hrest⟩ := nextKey_closed false after h
    simp only [readMembersFrom, hnext]
    exact ⟨rfl, Cursor.rest_advance hrest⟩
  | cons m members ih =>
    obtain ⟨fuel, rfl⟩ := Nat.exists_eq_add_of_lt hfuel
    obtain ⟨hm, hmembers⟩ := List.forall_mem_cons.1 hread
    have hcomma : cur.rest = after.chars ++ ',' :: (m.before.chars ++ (quoted m.key ++
        (m.behindKey.chars ++ ':' :: (m.value.before.chars ++ (m.value.body.chars ++
          (m.value.after.chars ++ ((members.map (Member.chars Tree.chars)).flatMap (',' :: ·) ++
            '\x7d' :: more))))))) := by
      simpa [Member.chars, Padded.chars] using h
    obtain ⟨front, hnext, hfront⟩ := nextKey_comma after m.before hcomma
    exact yields_readMembersFrom_cons false hnext hm hfront
      (stops_blanks_append m.value.after (stops_flatMap_append _ rfl)) fun done cur hrest =>
        ih hmembers m.value.after hrest (Nat.le_add_right ..)

/-- **Objects.**  An object is read just if all its keys and the values under them are. -/
theorem yields_readMembers (within : Blanks) (members : List (Member Tree))
    (hread : ∀ m ∈ members, Reads read m.value.body.chars (m.value.body.value? depth))
    (h : cur.rest = within.chars ++
      (writeSeparated (members.map (Member.chars Tree.chars)) ++ '\x7d' :: more)) :
    Yields (readMembers read cur) (Tree.members? depth [] members) more := by
  rw [readMembers]
  cases members with
  | nil =>
    obtain ⟨behind, hnext, hrest⟩ := nextKey_closed true within h
    simp only [readMembersFrom, hnext]
    exact ⟨rfl, Cursor.rest_advance hrest⟩
  | cons m members =>
    obtain ⟨hm, hmembers⟩ := List.forall_mem_cons.1 hread
    rw [List.map_cons, writeSeparated_cons, Member.chars, Padded.chars] at h
    -- The same count as for items, now for members.
    obtain ⟨fuel, hsize⟩ := Nat.exists_eq_add_of_lt (length_lt_size h)
    rw [List.length_map] at hsize
    have hfirst : cur.rest = (within.append m.before).chars ++ (quoted m.key ++
        (m.behindKey.chars ++ ':' :: (m.value.before.chars ++ (m.value.body.chars ++
          (m.value.after.chars ++ ((members.map (Member.chars Tree.chars)).flatMap (',' :: ·) ++
            '\x7d' :: more)))))) := by
      simpa [Blanks.append] using h
    obtain ⟨front, hnext, hfront⟩ := nextKey_first (within.append m.before) hfirst
    rw [hsize]
    exact yields_readMembersFrom_cons true hnext hm hfront
      (stops_blanks_append m.value.after (stops_flatMap_append _ rfl)) fun done cur hrest =>
        yields_readMembersFrom members hmembers m.value.after hrest (Nat.le_add_right ..)

end Objects

/-! ## Values of any shape -/

section Values

variable {nested : Option (Cursor → Result Value)} {cur : Cursor} {more : List Char}

/-- A number is known by its first character, which begins nothing else. -/
theorem readValueWith_number {c : Char} (h : cur.skipBlanks.rest = c :: more)
    (hc : c = '-' ∨ c.isDigit = true) :
    readValueWith nested cur = do
      let (n, cur) ← readNumber cur.skipBlanks
      return (.number n, cur) := by
  have hother : c ≠ 'n' ∧ c ≠ 't' ∧ c ≠ 'f' ∧ c ≠ '"' ∧ c ≠ '[' ∧ c ≠ '\x7b' := by
    refine ⟨?_, ?_, ?_, ?_, ?_, ?_⟩ <;> (rintro rfl; revert hc; decide)
  simp only [readValueWith, h]
  split <;> simp_all

/-- A word is a value of its own. -/
theorem yields_word {word : List Char} (v : Value) (h : cur.rest = word ++ more) :
    Yields (do return (v, ← readWord word cur) : Except Failure (Value × Cursor))
      (some v) more := by
  obtain ⟨behind, hword, hend⟩ := readWord_eq_ok h
  rw [hword]
  exact ⟨rfl, hend⟩

/-- No number begins with a blank. -/
theorem isBlank_eq_false {c : Char} (hc : c = '-' ∨ c.isDigit = true) :
    Cursor.isBlank c = false := by
  rw [← Bool.not_eq_true]
  intro hblank
  simp only [Cursor.isBlank, Bool.or_eq_true, beq_iff_eq] at hblank
  rcases hblank with ((rfl | rfl) | rfl) | rfl <;> simp at hc

/-- Texts without brackets are read alike with or without a reader for what is nested. -/
theorem yields_scalar (s : ScalarText) (before : Blanks)
    (h : cur.rest = before.chars ++ (s.chars ++ more)) (hmore : Stops isNumberPart more) :
    Yields (readValueWith nested cur) s.value? more := by
  cases s with
  | null =>
    have hrest := Cursor.rest_skipBlanks before h (stops_cons rfl)
    simp only [readValueWith, hrest, ScalarText.chars, List.cons_append]
    exact yields_word .null (Cursor.rest_advance hrest)
  | bool b =>
    cases b with
    | true =>
      have hrest := Cursor.rest_skipBlanks before h (stops_cons rfl)
      simp only [readValueWith, hrest, ScalarText.chars, List.cons_append]
      exact yields_word (.bool true) (Cursor.rest_advance hrest)
    | false =>
      have hrest := Cursor.rest_skipBlanks before h (stops_cons rfl)
      simp only [readValueWith, hrest, ScalarText.chars, List.cons_append]
      exact yields_word (.bool false) (Cursor.rest_advance hrest)
  | number n =>
    obtain ⟨c, rest, hchars, hc⟩ := n.exists_eq_cons
    have hstops : Stops Cursor.isBlank (n.chars ++ more) := by
      rw [hchars]
      exact stops_cons (isBlank_eq_false hc)
    have hrest := Cursor.rest_skipBlanks before h hstops
    rw [readValueWith_number (hrest.trans (by rw [ScalarText.chars, hchars]; rfl)) hc]
    exact (yields_readNumber n hrest hmore).bind_return Value.number
  | text pieces =>
    have h' : cur.rest = before.chars ++ '"' :: (pieces.flatMap Piece.chars ++ '"' :: more) := by
      simpa [ScalarText.chars, quoted] using h
    have hrest := Cursor.rest_skipBlanks before h' (stops_cons rfl)
    have hstring := yields_readString pieces (Cursor.rest_advance hrest)
    simp only [readValueWith, hrest]
    exact hstring.bind_return Value.text

/-- The first character of a text is neither a blank nor a closing bracket, and that of an object is
an opening brace. -/
theorem exists_chars_eq_cons (t : Tree) :
    ∃ c rest, t.chars = c :: rest ∧ Cursor.isBlank c = false ∧ c ≠ ']' ∧
      (c = '\x7b' → ∃ within members, t = .object within members) := by
  cases t with
  | scalar s =>
    rw [Tree.chars]
    cases s with
    | null => exact ⟨_, _, rfl, rfl, by decide, nofun⟩
    | bool b => cases b <;> exact ⟨_, _, rfl, rfl, by decide, nofun⟩
    | number n =>
      -- A number is told from the other values by its first character alone.
      obtain ⟨c, rest, hchars, hc⟩ := n.exists_eq_cons
      refine ⟨c, rest, hchars, isBlank_eq_false hc, ?_, ?_⟩ <;> (rintro rfl; simp at hc)
    | text pieces => exact ⟨_, _, rfl, rfl, by decide, nofun⟩
  | list within items => exact ⟨_, _, rfl, rfl, by decide, nofun⟩
  | object within members => exact ⟨_, _, rfl, rfl, by decide, fun _ => ⟨within, members, rfl⟩⟩

/-- Every text begins with something. -/
theorem begins_chars (t : Tree) : Begins t.chars := by
  obtain ⟨c, rest, hchars, hblank, hc, -⟩ := exists_chars_eq_cons t
  exact ⟨c, rest, hchars, hblank, hc⟩

/-- **Values.**  A text is read just if it has a value with so many levels of brackets. -/
theorem yields_readValue (t : Tree) (depth : Nat) :
    Reads (readValue depth) t.chars (t.value? depth) := by
  induction t using Tree.induct generalizing depth with
  | scalar s =>
    intro cur before more h hmore
    -- no level of brackets is needed
    cases depth <;> exact yields_scalar s before h hmore
  | list within items ih =>
    intro cur before more h hmore
    have h' : cur.rest = before.chars ++ '[' :: (within.chars ++
        (writeSeparated (items.map (Padded.chars Tree.chars)) ++ ']' :: more)) := by
      simpa [Tree.chars, Tree.charsOfItems_eq] using h
    have hrest := Cursor.rest_skipBlanks before h' (stops_cons rfl)
    cases depth with
    | zero =>
      simp only [readValue, readValueWith, hrest, Tree.value?]
      rfl
    | succ depth =>
      have hitems := yields_readItems within items (fun item hitem => ih item hitem depth)
        (fun item _ => begins_chars item.body) (Cursor.rest_advance hrest)
      rw [← Tree.values?_eq_mapM] at hitems
      simp only [readValue, readValueWith, hrest, Tree.value?]
      exact hitems.bind_return Value.array
  | object within members ih =>
    intro cur before more h hmore
    have h' : cur.rest = before.chars ++ '\x7b' :: (within.chars ++
        (writeSeparated (members.map (Member.chars Tree.chars)) ++ '\x7d' :: more)) := by
      simpa [Tree.chars, Tree.charsOfMembers_eq] using h
    have hrest := Cursor.rest_skipBlanks before h' (stops_cons rfl)
    cases depth with
    | zero =>
      simp only [readValue, readValueWith, hrest, Tree.value?]
      rfl
    | succ depth =>
      have hmembers := yields_readMembers within members (fun m hm => ih m hm depth)
        (Cursor.rest_advance hrest)
      simp only [readValue, readValueWith, hrest, Tree.value?]
      exact hmembers.bind_return Value.object

end Values

/-! ## Which texts have a value -/

namespace Grammar

/-- A word, a number in range, or a string without half of a surrogate pair. -/
def ScalarText.HasValue (s : ScalarText) : Prop := s.value?.isSome = true

/-- A string has a value just if all its pieces together spell characters. -/
theorem ScalarText.hasValue_text_iff {pieces : List Piece} :
    (text pieces).HasValue ↔ (spelled? pieces).isSome = true := by
  simp [HasValue, value?]

namespace Tree

variable {depth : Nat}

/-- Items have values just if each of them has one. -/
theorem isSome_values?_iff {items : List (Padded Tree)} :
    (values? depth items).isSome = true ↔
      ∀ item ∈ items, (item.body.value? depth).isSome = true := by
  induction items with
  | nil => simp [values?]
  | cons item items ih =>
    rw [List.forall_mem_cons, ← ih, values?]
    cases item.body.value? depth <;> simp

/-- Members are read just if each key is spelled and each value is one, whatever is under the same
key already. -/
theorem isSome_members?_iff {members : List (Member Tree)} (done : List (String × Value)) :
    (members? depth done members).isSome = true ↔
      ∀ m ∈ members, (spelled? m.key).isSome = true ∧
        (m.value.body.value? depth).isSome = true := by
  induction members generalizing done with
  | nil => simp [members?]
  | cons m members ih =>
    rw [List.forall_mem_cons, members?]
    cases spelled? m.key with
    | none => simp
    | some cs =>
      cases m.value.body.value? depth with
      | none => simp
      | some v => simpa using ih (insertMember (String.ofList cs) v done)

/-- **Which texts are refused.**  A text has a value just if its brackets do not nest too deeply and
all words, numbers and strings in it have one. -/
theorem isSome_value?_iff (t : Tree) :
    (t.value? depth).isSome = true ↔ t.nesting ≤ depth ∧ ∀ s ∈ t.scalars, s.HasValue := by
  induction t using Tree.induct generalizing depth with
  | scalar s => simp [value?, nesting, scalars, ScalarText.HasValue]
  | list within items ih =>
    cases depth with
    -- Without a level left there is no value, however little is in the brackets.
    | zero => simp [value?, nesting]
    | succ depth =>
      rw [value?, Option.isSome_map, isSome_values?_iff, nesting, Nat.succ_le_succ_iff,
        nestingOfItems_le_iff, scalars, scalarsOfItems_eq, List.forall_mem_flatMap,
        ← forall₂_and]
      exact forall₂_congr fun item hitem => ih item hitem
  | object within members ih =>
    cases depth with
    | zero => simp [value?, nesting]
    | succ depth =>
      rw [value?, Option.isSome_map, isSome_members?_iff, nesting, Nat.succ_le_succ_iff,
        nestingOfMembers_le_iff, scalars, scalarsOfMembers_eq, List.forall_mem_flatMap,
        ← forall₂_and]
      -- A key counts among the scalars of its object, since it may be misspelled as well.
      refine forall₂_congr fun m hm => ?_
      rw [ih m hm, List.forall_mem_cons, ScalarText.hasValue_text_iff]
      exact and_left_comm

end Tree

end Grammar

end SpikeWatch.Json
