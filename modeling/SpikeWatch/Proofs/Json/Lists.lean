import SpikeWatch.Json.Record
import SpikeWatch.Proofs.Json.Values

/-!
# Reading records from lists

A record may be given as a list of the values of its fields, and fields at the end that need not be
there may be left out.  So a list can be read in two ways: as a value with its items, and as a
record with its fields.

The record reader and the value reader look at the same characters, but they stop at different
places and word their complaints in different ways.  What is shown here is about results only: if
one of the two is satisfied with a list, so is the other, and the cursors behind the list are the
same.

* `ValueAt` says what a value is read from, by the first character of its text.
* `Listed` are the items that a reader takes from a list, and `Record.Listed` are the fields that
  they go to.  Neither counts steps (`readItems_eq_ok_iff`, `Record.close_readItems_iff`).
-/

set_option autoImplicit false

namespace SpikeWatch.Json

/-! ## Blanks -/

namespace Cursor

/-- Behind the blanks there is none. -/
theorem stops_skipBlanks (cur : Cursor) : Stops isBlank cur.skipBlanks.rest := by
  intro c hc
  change c ∈ (cur.rest.dropWhile isBlank).head? at hc
  have := List.head?_dropWhile_not isBlank cur.rest
  rw [hc] at this
  simpa using this

/-- Where no blank stands, none is skipped. -/
theorem skipBlanks_eq_self {cur : Cursor} (h : Stops isBlank cur.rest) : cur.skipBlanks = cur := by
  obtain ⟨rest, offset, size, hlength⟩ := cur
  cases rest with
  | nil => rfl
  | cons c rest =>
    have hc : isBlank c = false := h c rfl
    simp [skipBlanks, skipWhile, hc]

/-- So nothing changes when blanks are passed for a second time. -/
@[simp] theorem skipBlanks_skipBlanks (cur : Cursor) : cur.skipBlanks.skipBlanks = cur.skipBlanks :=
  skipBlanks_eq_self cur.stops_skipBlanks

end Cursor

/-! ## Values by their first character -/

/-- What a value is read from, and the cursor behind it. -/
inductive ValueAt (nested : Option (Cursor → Result Value)) (cur : Cursor) : Value → Cursor → Prop
  | null {behind : Cursor} {more : List Char} (h : cur.skipBlanks.rest = 'n' :: more)
      (hread : readWord ['u', 'l', 'l'] cur.skipBlanks.advance = .ok behind) :
      ValueAt nested cur .null behind
  | trueWord {behind : Cursor} {more : List Char} (h : cur.skipBlanks.rest = 't' :: more)
      (hread : readWord ['r', 'u', 'e'] cur.skipBlanks.advance = .ok behind) :
      ValueAt nested cur (.bool true) behind
  | falseWord {behind : Cursor} {more : List Char} (h : cur.skipBlanks.rest = 'f' :: more)
      (hread : readWord ['a', 'l', 's', 'e'] cur.skipBlanks.advance = .ok behind) :
      ValueAt nested cur (.bool false) behind
  | number {n : Numeral} {behind : Cursor} {c : Char} {more : List Char}
      (h : cur.skipBlanks.rest = c :: more) (hc : c = '-' ∨ c.isDigit = true)
      (hread : readNumber cur.skipBlanks = .ok (n, behind)) :
      ValueAt nested cur (.number n) behind
  | text {s : String} {behind : Cursor} {more : List Char} (h : cur.skipBlanks.rest = '"' :: more)
      (hread : readString cur.skipBlanks.advance = .ok (s, behind)) :
      ValueAt nested cur (.text s) behind
  | array {items : List Value} {behind : Cursor} {more : List Char} {read : Cursor → Result Value}
      (h : cur.skipBlanks.rest = '[' :: more) (hnested : nested = some read)
      (hread : readItems read cur.skipBlanks.advance = .ok (items, behind)) :
      ValueAt nested cur (.array items) behind
  | object {members : List (String × Value)} {behind : Cursor} {more : List Char}
      {read : Cursor → Result Value} (h : cur.skipBlanks.rest = '\x7b' :: more)
      (hnested : nested = some read)
      (hread : readMembers read cur.skipBlanks.advance = .ok (members, behind)) :
      ValueAt nested cur (.object members) behind

/-- A value that was read has been read in one of these ways. -/
theorem valueAt_of_readValueWith {nested : Option (Cursor → Result Value)} {cur behind : Cursor}
    {v : Value} (h : readValueWith nested cur = .ok (v, behind)) :
    ValueAt nested cur v behind := by
  -- one case for each first character that the reader knows; in all others it has failed
  rw [readValueWith.eq_def] at h
  dsimp only at h
  split at h
  · cases h
  · next c more hrest =>
    simp only [bind, Except.bind, pure, Except.pure] at h
    split at h
    · split at h
      · cases h
      · next hread =>
        cases h
        exact .null hrest hread
    · split at h
      · cases h
      · next hread =>
        cases h
        exact .trueWord hrest hread
    · split at h
      · cases h
      · next hread =>
        cases h
        exact .falseWord hrest hread
    · split at h
      · cases h
      · next hread =>
        cases h
        exact .text hrest hread
    · split at h
      · cases h
      · split at h
        · cases h
        · next hread =>
          cases h
          exact .array hrest rfl hread
    · split at h
      · cases h
      · split at h
        · cases h
        · next hread =>
          cases h
          exact .object hrest rfl hread
    · split at h
      · next hc =>
        split at h
        · cases h
        · next hread =>
          cases h
          exact .number hrest hc hread
      · cases h

/-- In each of these ways a value is read. -/
theorem ValueAt.readValueWith_eq {nested : Option (Cursor → Result Value)} {cur behind : Cursor}
    {v : Value} (h : ValueAt nested cur v behind) :
    readValueWith nested cur = .ok (v, behind) := by
  cases h with
  | null hrest hread => simp [readValueWith, hrest, hread, bind, Except.bind, pure, Except.pure]
  | trueWord hrest hread =>
    simp [readValueWith, hrest, hread, bind, Except.bind, pure, Except.pure]
  | falseWord hrest hread =>
    simp [readValueWith, hrest, hread, bind, Except.bind, pure, Except.pure]
  | number hrest hc hread =>
    rw [readValueWith_number hrest hc]
    simp [hread, bind, Except.bind, pure, Except.pure]
  | text hrest hread => simp [readValueWith, hrest, hread, bind, Except.bind, pure, Except.pure]
  | array hrest hnested hread =>
    simp [readValueWith, hrest, hnested, hread, bind, Except.bind, pure, Except.pure]
  | object hrest hnested hread =>
    simp [readValueWith, hrest, hnested, hread, bind, Except.bind, pure, Except.pure]

/-- **What values are read from**, case by case.  All later statements about a value that was read
go by this one, and do not look into the reader again. -/
theorem readValueWith_eq_ok_iff {nested : Option (Cursor → Result Value)} {cur behind : Cursor}
    {v : Value} : readValueWith nested cur = .ok (v, behind) ↔ ValueAt nested cur v behind :=
  ⟨valueAt_of_readValueWith, ValueAt.readValueWith_eq⟩

/-- With any number of levels a value is read in the same way, but for what is nested. -/
theorem exists_readValue_eq (depth : Nat) : ∃ nested, readValue depth = readValueWith nested := by
  cases depth <;> exact ⟨_, rfl⟩

/-- Only objects are read behind an opening brace. -/
theorem exists_object_of_brace {cur behind : Cursor} {more : List Char} {depth : Nat} {v : Value}
    (h : cur.skipBlanks.rest = '\x7b' :: more) (hread : readValue depth cur = .ok (v, behind)) :
    ∃ members, v = .object members := by
  -- Nothing is nested in a text or in `null`, so the number of levels does not matter.
  obtain ⟨nested, hdepth⟩ := exists_readValue_eq depth
  rw [hdepth, readValueWith_eq_ok_iff] at hread
  cases hread with
  | object => exact ⟨_, rfl⟩
  | number hrest hc =>
    cases h.symm.trans hrest
    exact absurd hc (by decide)
  | null hrest => cases h.symm.trans hrest
  | trueWord hrest => cases h.symm.trans hrest
  | falseWord hrest => cases h.symm.trans hrest
  | text hrest => cases h.symm.trans hrest
  | array hrest => cases h.symm.trans hrest

/-! ## Values of a given type -/

/-- A result that is changed on its way has the same cursor behind it. -/
theorem Result.map_eq_ok_iff {α β : Type} {result : Result α} {f : α → β} {b : β}
    {behind : Cursor} : (result.map fun (a, cur) => (f a, cur)) = .ok (b, behind) ↔
      ∃ a, result = .ok (a, behind) ∧ b = f a := by
  cases result with
  | error failure => exact iff_of_false nofun nofun
  | ok found =>
    obtain ⟨a, after⟩ := found
    constructor
    · intro h
      cases h
      exact ⟨a, rfl, rfl⟩
    · rintro ⟨_, h, rfl⟩
      cases h
      rfl

section Typed

variable {nested : Option (Cursor → Result Value)} {cur behind : Cursor} {depth : Nat}

/-- A refusal gives nothing, even where it reads a value in order to show it. -/
theorem refuse_ne_ok {α : Type} (wanted : Wanted) (cur : Cursor) (a : α) :
    refuse wanted cur ≠ .ok a := by
  intro h
  rw [refuse.eq_def] at h
  dsimp only at h
  split at h
  · cases h
  · cases h
  · cases hvalue : readValueWith none cur <;> simp [hvalue, bind, Except.bind, Cursor.failHere] at h

/-- A text is read where a value that is a text is read. -/
theorem readText_eq_ok_iff {s : String} : readText cur = .ok (s, behind) ↔
    readValueWith nested cur = .ok (.text s, behind) := by
  rw [readValueWith_eq_ok_iff]
  constructor
  · intro h
    rw [readText.eq_def] at h
    dsimp only at h
    split at h
    · next more hrest => exact .text hrest h
    · exact absurd h (refuse_ne_ok _ _ _)
  · intro h
    cases h with
    | text hrest hread => simpa only [readText, hrest] using hread

/-- Texts may have blanks in front of them, and a reader that has skipped these reads the same
text. -/
theorem readText_skipBlanks (cur : Cursor) : readText cur.skipBlanks = readText cur := by
  simp only [readText, Cursor.skipBlanks_skipBlanks]

/-- A text or nothing is read from what is read as such a value. -/
theorem readOptionalText_eq_ok_iff {s? : Option String} :
    readOptionalText cur = .ok (s?, behind) ↔
      readValue depth cur = .ok (s?.elim .null .text, behind) := by
  obtain ⟨nested, hdepth⟩ := exists_readValue_eq depth
  rw [hdepth]
  constructor
  · intro h
    rw [readOptionalText.eq_def] at h
    simp only [bind, Except.bind, pure, Except.pure, readText_skipBlanks] at h
    split at h
    · next more hrest =>
      split at h
      · cases h
      · next hread =>
        cases h
        exact readValueWith_eq_ok_iff.2 (.null hrest hread)
    · split at h
      · cases h
      · next hread =>
        cases h
        exact readText_eq_ok_iff.1 hread
  · intro h
    cases s? with
    | none =>
      cases readValueWith_eq_ok_iff.1 h with
      | null hrest hread =>
        simp [readOptionalText, hrest, hread, bind, Except.bind, pure, Except.pure]
    | some s =>
      have hread := readText_eq_ok_iff.2 h
      cases readValueWith_eq_ok_iff.1 h with
      | text hrest =>
        simp [readOptionalText, hrest, readText_skipBlanks, hread, bind, Except.bind, pure,
          Except.pure]

/-- A list of values is read where a value that is a list is read, with the same items. -/
theorem readList_eq_ok_iff {items : List Value} :
    readList depth readValue cur = .ok (items, behind) ↔
      readValue depth cur = .ok (.array items, behind) := by
  constructor
  · intro h
    rw [readList.eq_def] at h
    dsimp only at h
    split at h
    · next more hrest =>
      cases depth with
      | zero => cases h
      | succ depth => exact readValueWith_eq_ok_iff.2 (.array hrest rfl h)
    · exact absurd h (refuse_ne_ok _ _ _)
  · intro h
    cases depth with
    | zero =>
      cases readValueWith_eq_ok_iff.1 h with
      | array hrest hnested => cases hnested
    | succ depth =>
      cases readValueWith_eq_ok_iff.1 h with
      | array hrest hnested hread =>
        cases hnested
        simpa only [readList, hrest] using hread

end Typed

/-! ## Items -/

section Items

variable {α : Type} {read : Cursor → Result α} {first : Bool} {cur front behind : Cursor}

/-- The items that a reader takes from a list, and the cursor behind its closing bracket. -/
inductive Listed (read : Cursor → Result α) : Bool → Cursor → List α → Cursor → Prop
  | closed {first : Bool} {cur front : Cursor} (hnext : nextItem first cur = .ok (.closed front)) :
      Listed read first cur [] front.advance
  | item {first : Bool} {cur front after behind : Cursor} {item : α} {items : List α}
      (hnext : nextItem first cur = .ok (.item front)) (hread : read front = .ok (item, after))
      (hitems : Listed read false after items behind) :
      Listed read first cur (item :: items) behind

/-- A list is over where the next character but for blanks is its bracket. -/
theorem nextItem_eq_closed_iff : nextItem first cur = .ok (.closed front) ↔
    front = cur.skipBlanks ∧ ∃ more, cur.skipBlanks.rest = ']' :: more := by
  constructor
  · intro h
    rw [nextItem.eq_def] at h
    dsimp only at h
    split at h
    · cases h
    · next c more hrest =>
      split at h
      · next hc =>
        cases h
        exact ⟨rfl, more, hc ▸ hrest⟩
      · split at h
        · cases h
        · split at h
          · split at h
            · cases h
            · split at h <;> cases h
          · cases h
  · rintro ⟨rfl, more, hrest⟩
    simp only [nextItem, hrest, if_true]

/-- There is no item at the end of the text. -/
theorem rest_ne_nil_of_item (h : nextItem first cur = .ok (.item front)) : cur.rest ≠ [] := by
  intro hnil
  have hrest : cur.skipBlanks.rest = [] := by
    show cur.rest.dropWhile Cursor.isBlank = []
    rw [hnil, List.dropWhile_nil]
  simp only [nextItem, hrest] at h
  cases h

/-- A list that is over is over for whoever looks at it, also for a reader that expects its first
item. -/
theorem nextItem_of_closed (h : nextItem first cur = .ok (.closed front)) (first' : Bool) :
    nextItem first' front = .ok (.closed front) := by
  obtain ⟨rfl, more, hrest⟩ := nextItem_eq_closed_iff.1 h
  exact nextItem_eq_closed_iff.2
    ⟨cur.skipBlanks_skipBlanks.symm, more, by rw [Cursor.skipBlanks_skipBlanks, hrest]⟩

/-- The reader has taken items already, and takes as many as are listed, if it may take so many. -/
theorem readItemsFrom_eq_ok_iff {fuel : Nat} {done items : List α} :
    readItemsFrom read fuel first done cur = .ok (items, behind) ↔
      ∃ rest, items = done.reverse ++ rest ∧ rest.length < fuel ∧
        Listed read first cur rest behind := by
  induction fuel generalizing first done cur with
  | zero => simp [readItemsFrom, Cursor.failNext]
  | succ fuel ih =>
    -- a step takes one item from the list and one from the count
    rw [readItemsFrom]
    constructor
    · intro h
      split at h
      · cases h
      · next hnext =>
        cases h
        exact ⟨[], (List.append_nil _).symm, Nat.succ_pos fuel, .closed hnext⟩
      · next hnext =>
        split at h
        · cases h
        · next item _ hread =>
          obtain ⟨rest, rfl, hlength, hlisted⟩ := ih.1 h
          refine ⟨item :: rest, ?_, Nat.succ_lt_succ hlength, .item hnext hread hlisted⟩
          rw [List.reverse_cons, List.append_assoc, List.singleton_append]
    · rintro ⟨rest, rfl, hlength, hlisted⟩
      cases hlisted with
      | closed hnext => simp [hnext]
      | item hnext hread hitems =>
        simp only [hnext, hread]
        refine ih.2 ⟨_, ?_, Nat.lt_of_succ_lt_succ hlength, hitems⟩
        rw [List.reverse_cons, List.append_assoc, List.singleton_append]

/-- Items are read as long as there are no more of them than the text has characters. -/
theorem readItems_eq_ok_iff {items : List α} : readItems read cur = .ok (items, behind) ↔
    items.length ≤ cur.size ∧ Listed read true cur items behind := by
  rw [readItems, readItemsFrom_eq_ok_iff]
  simp only [List.reverse_nil, List.nil_append, exists_eq_left', Nat.lt_succ_iff]

/-- What a list is read from. -/
theorem readValue_eq_array_iff {depth : Nat} {items : List Value} :
    readValue (depth + 1) cur = .ok (.array items, behind) ↔
      (∃ more, cur.skipBlanks.rest = '[' :: more) ∧ items.length ≤ cur.size ∧
        Listed (readValue depth) true cur.skipBlanks.advance items behind := by
  have hsize : cur.skipBlanks.advance.size = cur.size := rfl
  rw [readValue, readValueWith_eq_ok_iff, ← hsize, ← readItems_eq_ok_iff]
  constructor
  · intro h
    cases h with
    | array hrest hnested hread =>
      cases hnested
      exact ⟨⟨_, hrest⟩, hread⟩
  · rintro ⟨⟨more, hrest⟩, hread⟩
    exact .array hrest rfl hread

end Items

/-! ## Fields -/

namespace Record

variable {σ : Type} (record : Record σ) {depth : Nat} {fields : List (Field σ)} {first : Bool}
  {draft last : σ} {cur front behind : Cursor}

/-- The items of a list go to the fields of a record one after the other.  There may be fewer items
than fields, but not more. -/
inductive Listed (depth : Nat) : List (Field σ) → Bool → σ → Cursor → σ → Cursor → Prop
  | closed {fields : List (Field σ)} {first : Bool} {draft : σ} {cur front : Cursor}
      (hnext : nextItem first cur = .ok (.closed front)) :
      Listed depth fields first draft cur draft front.advance
  | item {field : Field σ} {fields : List (Field σ)} {first : Bool} {draft next last : σ}
      {cur front after behind : Cursor} (hnext : nextItem first cur = .ok (.item front))
      (hread : field.read depth draft front = .ok (next, after))
      (hfields : Listed depth fields false next after last behind) :
      Listed depth (field :: fields) first draft cur last behind

/-- Where a list is over, no field gets anything any more. -/
theorem listed_iff_of_closed (h : nextItem first cur = .ok (.closed front)) :
    Listed depth fields first draft cur last behind ↔ last = draft ∧ behind = front.advance := by
  constructor
  · intro hlisted
    cases hlisted with
    | closed hnext =>
      cases h.symm.trans hnext
      exact ⟨rfl, rfl⟩
    | item hnext hread hfields => cases h.symm.trans hnext
  · rintro ⟨rfl, rfl⟩
    exact .closed h

/-- Behind its fields a record has nothing to say against a list that is over there. -/
theorem closeList_eq_none_iff (first : Bool) : closeList cur = (behind, none) ↔
    ∃ front, nextItem first cur = .ok (.closed front) ∧ behind = front.advance := by
  simp only [nextItem_eq_closed_iff]
  constructor
  · intro h
    rw [closeList.eq_def] at h
    dsimp only at h
    split at h
    · cases h
    · next more hrest =>
      cases h
      exact ⟨_, ⟨rfl, more, hrest⟩, rfl⟩
    · split at h <;> cases h
    · cases h
  · rintro ⟨_, ⟨rfl, more, hrest⟩, rfl⟩
    simp only [closeList, hrest]

/-- **Lists as records.**  A record whose fields may all be absent is read from a list just if its
items go to the fields. -/
theorem close_readItems_iff (hoptional : ∀ f ∈ fields, f.optional = true) (index : Nat) :
    close closeList (record.readItems depth fields index first draft cur) = .ok (last, behind) ↔
      Listed depth fields first draft cur last behind := by
  induction fields generalizing index first draft cur with
  | nil =>
    rw [readItems, close]
    constructor
    · intro h
      split at h
      · next hclose =>
        cases h
        obtain ⟨front, hnext, rfl⟩ := (closeList_eq_none_iff first).1 hclose
        exact .closed hnext
      · cases h
    · intro h
      cases h with
      | closed hnext => rw [(closeList_eq_none_iff first).2 ⟨_, hnext, rfl⟩]
  | cons field fields ih =>
    obtain ⟨hfield, hfields⟩ := List.forall_mem_cons.1 hoptional
    rw [readItems]
    cases hnext : nextItem first cur with
    | error failure =>
      refine iff_of_false nofun fun h => ?_
      cases h with
      | closed hnext' => cases hnext.symm.trans hnext'
      | item hnext' => cases hnext.symm.trans hnext'
    | ok next =>
      cases next with
      | closed front =>
        -- all other fields find the same bracket
        simp only [hfield, if_true]
        rw [ih hfields, listed_iff_of_closed hnext,
          listed_iff_of_closed (nextItem_of_closed hnext first)]
      | item front =>
        dsimp only
        cases hread : field.read depth draft front with
        | error failure =>
          refine iff_of_false nofun fun h => ?_
          cases h with
          | closed hnext' => cases hnext.symm.trans hnext'
          | item hnext' hread' =>
            cases hnext.symm.trans hnext'
            cases hread.symm.trans hread'
        | ok found =>
          obtain ⟨next, after⟩ := found
          refine (ih hfields (index + 1)).trans ⟨.item hnext hread, fun h => ?_⟩
          cases h with
          | closed hnext' => cases hnext.symm.trans hnext'
          | item hnext' hread' hrest =>
            cases hnext.symm.trans hnext'
            cases hread.symm.trans hread'
            exact hrest

/-- A record is read from what is no object just if it is a list whose items go to the fields. -/
theorem read_eq_ok_iff_listed (hoptional : ∀ f ∈ record.fields, f.optional = true)
    (hopen : ∀ more, cur.skipBlanks.rest ≠ '\x7b' :: more) :
    record.read (depth + 1) draft cur = .ok (last, behind) ↔
      (∃ more, cur.skipBlanks.rest = '[' :: more) ∧
        Listed depth record.fields true draft cur.skipBlanks.advance last behind := by
  rw [← record.close_readItems_iff hoptional 0]
  constructor
  · intro h
    rw [read.eq_def] at h
    dsimp only at h
    split at h
    · next more hrest => exact ⟨⟨more, hrest⟩, h⟩
    · next more hrest => exact absurd hrest (hopen more)
    · exact absurd h (refuse_ne_ok _ _ _)
  · rintro ⟨⟨more, hrest⟩, h⟩
    simpa only [read, hrest] using h

end Record

/-! ## Whole texts -/

/-- A whole text is read if something is read from it, and nothing but blanks follows. -/
theorem finish_eq_ok_iff {α : Type} {result : Except Failure (α × Cursor)} {a : α} :
    (do let (a, cur) ← result; cur.finish; return a : Except Failure α) = .ok a ↔
      ∃ behind, result = .ok (a, behind) ∧ behind.finish = .ok () := by
  simp only [bind, Except.bind, pure, Except.pure]
  cases result with
  | error failure => exact iff_of_false nofun nofun
  | ok found =>
    obtain ⟨b, behind⟩ := found
    dsimp only
    -- The value is there in any case; what is behind it decides.
    cases hfinish : behind.finish with
    | error failure =>
      refine iff_of_false nofun ?_
      rintro ⟨behind, h, hfinish'⟩
      cases h
      cases hfinish.symm.trans hfinish'
    | ok =>
      constructor
      · intro h
        cases h
        exact ⟨behind, rfl, hfinish⟩
      · rintro ⟨_, h, -⟩
        cases h
        rfl

/-- What it means that a text stands for a value. -/
theorem Value.ofText_eq_ok_iff {s : String} {v : Value} : Value.ofText s = .ok v ↔
    ∃ behind, readValue maxDepth (Cursor.ofText s) = .ok (v, behind) ∧ behind.finish = .ok () :=
  finish_eq_ok_iff

/-- What it means that a text stands for a record. -/
theorem Record.ofText_eq_ok_iff {σ : Type} {record : Record σ} {empty draft : σ} {s : String} :
    record.ofText empty s = .ok draft ↔ ∃ behind,
      record.read maxDepth empty (Cursor.ofText s) = .ok (draft, behind) ∧
        behind.finish = .ok () :=
  finish_eq_ok_iff

end SpikeWatch.Json
