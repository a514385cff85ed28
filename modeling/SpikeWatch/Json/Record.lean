import SpikeWatch.Json.Reading

/-!
# Reading records

A record is read from an object with its fields as members, in any order and among others that are
passed over, or from a list with its fields in their order.  A `Field` says how one of them is read
into a draft of the record.

What a record has to say against its contents - a field is missing, given twice, or the list is too
short - is reported only after its closing bracket was looked for, and at the place reached then.
-/

set_option autoImplicit false

namespace SpikeWatch.Json

/-- A field of a record whose drafts have the type `σ`. -/
structure Field (σ : Type) where
  name : String
  /-- It may be absent. -/
  optional : Bool
  /-- Whether a draft has it. -/
  isSet : σ → Bool
  /-- Reads it into a draft, with so many levels of brackets left. -/
  read : Nat → σ → Cursor → Result σ

/-- A record: its name and its fields in their order. -/
structure Record (σ : Type) where
  name : String
  fields : List (Field σ)

/-- What was read of a record, or what is wrong with it, and the cursor reached. -/
abbrev Drafted (σ : Type) := Result (Except Mismatch σ)

namespace Record

variable {σ : Type} (record : Record σ)

/-- The first field that has to be there and is not. -/
def missing? (draft : σ) : Option String :=
  (record.fields.find? fun f => !f.optional && !f.isSet draft).map Field.name

/-- Reads the members of an object, at most `fuel` of them.  Unknown ones are passed over. -/
def readMembers (depth : Nat) : Nat → Bool → σ → Cursor → Drafted σ
  | 0, _, _, cur => cur.failNext .unfinishedObject
  | fuel + 1, first, draft, cur =>
    match nextKey first cur with
    | .error e => .error e
    | .ok (.closed cur) =>
      match record.missing? draft with
      | some name => .ok (.error (.missingField name), cur)
      | none => .ok (.ok draft, cur)
    | .ok (.item cur) =>
      match readString cur with
      | .error e => .error e
      | .ok (key, cur) =>
        match record.fields.find? (·.name = key) with
        | none =>
          match readColon cur >>= skipValue with
          | .error e => .error e
          | .ok cur => readMembers depth fuel false draft cur
        | some field =>
          if field.isSet draft then .ok (.error (.duplicateField key), cur)
          else
            match readColon cur >>= field.read depth draft with
            | .error e => .error e
            | .ok (draft, cur) => readMembers depth fuel false draft cur

/-- Reads the items of a list into the fields, `index` of which have been dealt with. -/
def readItems (depth : Nat) : List (Field σ) → Nat → Bool → σ → Cursor → Drafted σ
  | [], _, _, draft, cur => .ok (.ok draft, cur)
  | field :: fields, index, first, draft, cur =>
    match nextItem first cur with
    | .error e => .error e
    | .ok (.closed cur) =>
      if field.optional then readItems depth fields (index + 1) first draft cur
      else .ok (.error (.wrongLength index record.name record.fields.length), cur)
    | .ok (.item cur) =>
      match field.read depth draft cur with
      | .error e => .error e
      | .ok (draft, cur) => readItems depth fields (index + 1) false draft cur

/-- Looks for the closing bracket of a list: the cursor reached, and what is wrong there. -/
def closeList (cur : Cursor) : Cursor × Option Failure :=
  let cur := cur.skipBlanks
  let at_ (cur : Cursor) (fault : Fault) := (cur, some ⟨fault, cur.nextOffset⟩)
  match cur.rest with
  | [] => at_ cur .unfinishedList
  | ']' :: _ => (cur.advance, none)
  | ',' :: _ =>
    let cur := cur.advance.skipBlanks
    match cur.rest with
    | ']' :: _ => at_ cur .trailingComma
    | _ => at_ cur .trailingCharacters
  | _ => at_ cur .trailingCharacters

/-- Looks for the closing bracket of an object: the cursor reached, and what is wrong there. -/
def closeObject (cur : Cursor) : Cursor × Option Failure :=
  let cur := cur.skipBlanks
  let at_ (fault : Fault) := (cur, some ⟨fault, cur.nextOffset⟩)
  match cur.rest with
  | [] => at_ .unfinishedObject
  | '\x7d' :: _ => (cur.advance, none)
  | ',' :: _ => at_ .trailingComma
  | _ => at_ .trailingCharacters

/-- Closes a record: its own objection comes first, and stands where the closing bracket was looked
for. -/
def close (closing : Cursor → Cursor × Option Failure) : Drafted σ → Result σ
  | .error e => .error e
  | .ok (.error m, cur) => (closing cur).1.failHere (.mismatch m)
  | .ok (.ok draft, cur) =>
    match closing cur with
    | (cur, none) => .ok (draft, cur)
    | (_, some failure) => .error failure

/-- Reads a record, with so many levels of brackets left, from an empty draft. -/
def read (depth : Nat) (empty : σ) (cur : Cursor) : Result σ :=
  let cur := cur.skipBlanks
  match cur.rest with
  | '[' :: _ =>
    match depth with
    | 0 => cur.failNext .tooDeep
    | depth + 1 => close closeList (record.readItems depth record.fields 0 true empty cur.advance)
  | '\x7b' :: _ =>
    match depth with
    | 0 => cur.failNext .tooDeep
    | depth + 1 =>
      let cur := cur.advance
      close closeObject (record.readMembers depth (cur.size + 1) true empty cur)
  | _ => refuse (.record record.name) cur

/-- The record that a text stands for. -/
def ofText (empty : σ) (s : String) : Except Failure σ := do
  let (draft, cur) ← record.read maxDepth empty (Cursor.ofText s)
  cur.finish
  return draft

end Record

end SpikeWatch.Json
