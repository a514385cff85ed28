import SpikeWatch.Json.Record
import SpikeWatch.Proofs.Json.Written

/-!
# Reading records from objects

What a record does with an object whose members are known: those of its fields are read into the
draft one after the other, and the closing bracket is behind them.

* `Record.read_object`, `Record.readMembers_field` and `Record.readMembers_closed` are the steps of
  reading an object, whatever stands in it.
* `Record.Fills` says that written members lead from one draft to another, and
  `Record.ofText_writeObject` that an object which was written of them is read back.
-/

set_option autoImplicit false

namespace SpikeWatch.Json

open Grammar

/-! ## Objects as records -/

section Records

variable {σ : Type} (record : Record σ) {depth fuel : Nat} {first : Bool} {draft : σ}
  {cur front : Cursor} {more : List Char}

/-- An object is read member by member, and then its bracket has to be closed. -/
theorem Record.read_object (h : cur.skipBlanks.rest = '\x7b' :: more) :
    record.read (depth + 1) draft cur =
      Record.close Record.closeObject
        (record.readMembers depth (cur.size + 1) true draft cur.skipBlanks.advance) := by
  simp only [Record.read, h]
  rfl

/-- At the closing bracket the draft is done, if no field is missing in it. -/
theorem Record.readMembers_closed (hnext : nextKey first cur = .ok (.closed front))
    (hmissing : record.missing? draft = none) :
    record.readMembers depth (fuel + 1) first draft cur = .ok (.ok draft, front) := by
  simp only [Record.readMembers, hnext, hmissing]

/-- A member whose key names a field is read into this field, unless the field was set before. -/
theorem Record.readMembers_field {key : String} {behindKey : Cursor} {field : Field σ}
    (hnext : nextKey first cur = .ok (.item front)) (hkey : readString front = .ok (key, behindKey))
    (hfield : record.fields.find? (·.name = key) = some field)
    (hset : field.isSet draft = false) :
    record.readMembers depth (fuel + 1) first draft cur =
      (readColon behindKey >>= field.read depth draft).bind fun (draft, cur) =>
        record.readMembers depth fuel false draft cur := by
  simp only [Record.readMembers, hnext, hkey, hfield, hset, Bool.false_eq_true, if_false]
  cases readColon behindKey >>= field.read depth draft <;> rfl

/-- Closing an object steps over its bracket. -/
theorem Record.closeObject_eq (h : cur.rest = '\x7d' :: more) :
    ∃ behind, Record.closeObject cur = (behind, none) ∧ behind.rest = more := by
  have hrest := Cursor.rest_skipBlanks .none (h : cur.rest = [] ++ _) (stops_cons rfl)
  refine ⟨cur.skipBlanks.advance, ?_, Cursor.rest_advance hrest⟩
  simp only [Record.closeObject, hrest]

/-- A list of values, as the grammar has it, with the blanks in front of it. -/
theorem yields_readList (depth : Nat) (before within : Blanks) (items : List (Padded Tree))
    (h : cur.rest = before.chars ++ ((Tree.list within items).chars ++ more)) :
    Yields (readList (depth + 1) readValue cur) (Tree.values? depth items) more := by
  have h' : cur.rest = before.chars ++ '[' :: (within.chars ++
      (writeSeparated (items.map (Padded.chars Tree.chars)) ++ ']' :: more)) := by
    simpa [Tree.chars, Tree.charsOfItems_eq] using h
  have hrest := Cursor.rest_skipBlanks before h' (stops_cons rfl)
  have hitems := yields_readItems within items (fun item _ => yields_readValue item.body depth)
    (fun item _ => begins_chars item.body) (Cursor.rest_advance hrest)
  rw [← Tree.values?_eq_mapM] at hitems
  simpa only [readList, hrest] using hitems

/-! ## Objects that were written -/

/-- Written members are fields of a record, none of them is given twice, and reading them in their
order leads from one draft to another. -/
inductive Record.Fills (depth : Nat) : σ → List (String × List Char) → σ → Prop
  | nil (draft : σ) : Fills depth draft [] draft
  | cons {draft next last : σ} {key : String} {text : List Char}
    {members : List (String × List Char)} (field : Field σ)
    (hfield : record.fields.find? (·.name = key) = some field)
    (hset : field.isSet draft = false)
    (hread : Reads (field.read depth draft) text (some next))
    (hmembers : Fills depth next members last) : Fills depth draft ((key, text) :: members) last

/-- A written member of a field, where it is the next one. -/
theorem Record.readMembers_writeMember {key : String} {field : Field σ} {next : σ}
    {text behind : List Char} (hnext : nextKey first cur = .ok (.item front))
    (hfront : front.rest = (pieces key).flatMap Piece.chars ++ '"' :: ':' :: (text ++ behind))
    (hbehind : Stops isNumberPart behind)
    (hfield : record.fields.find? (·.name = key) = some field)
    (hset : field.isSet draft = false)
    (hread : Reads (field.read depth draft) text (some next)) :
    ∃ after, record.readMembers depth (fuel + 1) first draft cur =
      record.readMembers depth fuel false next after ∧ after.rest = behind := by
  have hkey := yields_readString (pieces key) hfront
  rw [spelled?_pieces, Option.map_some, String.ofList_toList] at hkey
  obtain ⟨behindKey, hkey, hrest⟩ := hkey.eq_ok
  obtain ⟨behindColon, hcolon, hrest⟩ := readColon_eq .none hrest
  obtain ⟨after, hvalue, hrest⟩ := (hread behindColon .none behind hrest hbehind).eq_ok
  refine ⟨after, ?_, hrest⟩
  rw [record.readMembers_field hnext hkey hfield hset, hcolon]
  exact congrArg (Except.bind · _) hvalue

/-- Behind the first member of an object. -/
theorem Record.readMembers_of_fills {members : List (String × List Char)} {last : σ}
    (h : record.Fills depth draft members last) (hmissing : record.missing? last = none)
    (hrest : cur.rest = (members.map writeMember).flatMap (',' :: ·) ++ '\x7d' :: more)
    (hfuel : members.length ≤ fuel) :
    ∃ behind, record.readMembers depth (fuel + 1) false draft cur = .ok (.ok last, behind) ∧
      behind.rest = '\x7d' :: more := by
  induction h generalizing cur fuel with
  | nil draft =>
    obtain ⟨behind, hnext, hbehind⟩ := nextKey_closed false .none hrest
    exact ⟨behind, record.readMembers_closed hnext hmissing, hbehind⟩
  | @cons draft next last key text members field hfield hset hread hmembers ih =>
    obtain ⟨fuel, rfl⟩ := Nat.exists_eq_add_of_lt hfuel
    have hcomma : cur.rest = Blanks.none.chars ++ ',' :: (Blanks.none.chars ++
        (quoted (pieces key) ++ ':' :: (text ++
          ((members.map writeMember).flatMap (',' :: ·) ++ '\x7d' :: more)))) := by
      simpa [writeMember, quoted_pieces, Blanks.none] using hrest
    obtain ⟨front, hnext, hfront⟩ := nextKey_comma .none .none hcomma
    obtain ⟨after, hstep, hafter⟩ := record.readMembers_writeMember hnext hfront
      (stops_flatMap_append _ rfl) hfield hset hread
    rw [hstep]
    exact ih hmissing hafter (Nat.le_add_right ..)

/-- Written members are read one after the other: the first without a comma in front of it, and all
others with one (`readMembers_of_fills`). -/
theorem Record.readMembers_writeSeparated {members : List (String × List Char)} {last : σ}
    (h : record.Fills depth draft members last) (hmissing : record.missing? last = none)
    (hrest : cur.rest = writeSeparated (members.map writeMember) ++ '\x7d' :: more) :
    ∃ behind, record.readMembers depth (cur.size + 1) true draft cur = .ok (.ok last, behind) ∧
      behind.rest = '\x7d' :: more := by
  cases h with
  | nil =>
    obtain ⟨behind, hnext, hbehind⟩ := nextKey_closed true .none hrest
    exact ⟨behind, record.readMembers_closed hnext hmissing, hbehind⟩
  | @cons _ next _ key text members field hfield hset hread hmembers =>
    rw [List.map_cons, writeSeparated_cons] at hrest
    obtain ⟨fuel, hsize⟩ :=
      Nat.exists_eq_add_of_lt (length_lt_size (hrest.trans (List.nil_append _).symm))
    rw [List.length_map] at hsize
    have hfirst : cur.rest = Blanks.none.chars ++ (quoted (pieces key) ++ ':' :: (text ++
        ((members.map writeMember).flatMap (',' :: ·) ++ '\x7d' :: more))) := by
      simpa [writeMember, quoted_pieces, Blanks.none] using hrest
    obtain ⟨front, hnext, hfront⟩ := nextKey_first .none hfirst
    obtain ⟨after, hstep, hafter⟩ := record.readMembers_writeMember hnext hfront
      (stops_flatMap_append _ rfl) hfield hset hread
    rw [hsize, hstep]
    exact record.readMembers_of_fills hmembers hmissing hafter (Nat.le_add_right ..)

/-- **Records that were written are read.** -/
theorem Reads.readRecord {empty last : σ} {members : List (String × List Char)}
    (h : record.Fills depth empty members last) (hmissing : record.missing? last = none) :
    Reads (record.read (depth + 1) empty) (writeObject members) (some last) := by
  intro cur before more hrest _
  have hobject : cur.rest = before.chars ++
      '\x7b' :: (writeSeparated (members.map writeMember) ++ '\x7d' :: more) := by
    simpa [writeObject_eq] using hrest
  have hopen := Cursor.rest_skipBlanks before hobject (stops_cons rfl)
  obtain ⟨behind, hmembers, hbehind⟩ :=
    record.readMembers_writeSeparated h hmissing (Cursor.rest_advance hopen)
  obtain ⟨after, hclose, hafter⟩ := Record.closeObject_eq hbehind
  have hsize : cur.skipBlanks.advance.size = cur.size := rfl
  rw [record.read_object hopen, ← hsize, hmembers]
  simp only [Record.close, hclose]
  exact ⟨rfl, hafter⟩

/-- **Objects are read back.** -/
theorem Record.ofText_writeObject {empty last : σ} {members : List (String × List Char)}
    (h : record.Fills (maxDepth - 1) empty members last)
    (hmissing : record.missing? last = none) :
    record.ofText empty (String.ofList (writeObject members)) = .ok last := by
  have hrest : (Cursor.ofText (String.ofList (writeObject members))).rest =
      Blanks.none.chars ++ (writeObject members ++ []) :=
    String.toList_ofList.trans (List.append_nil _).symm
  obtain ⟨behind, hread, hbehind⟩ :=
    (Reads.readRecord record h hmissing _ .none [] hrest stops_nil).eq_ok
  have hread : record.read maxDepth empty (Cursor.ofText (String.ofList (writeObject members))) =
    .ok (last, behind) := hread
  simp only [Record.ofText, hread, bind, Except.bind, finish_eq .none hbehind]
  rfl

end Records

end SpikeWatch.Json
