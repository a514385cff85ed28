import SpikeWatch.Json.Skipping

/-!
# Reading values

Values of any shape, nested up to a limit, and the pieces that values and records share: lists of
items, members of objects, and what to say about a value of the wrong type.
-/

set_option autoImplicit false

namespace SpikeWatch.Json

/-! ## Lists -/

/-- Looks for the next item of a list: the cursor at it, or the cursor at the closing bracket. -/
inductive Next where
  | item (cur : Cursor)
  | closed (cur : Cursor)

/-- Looks for the next item of a list.  In front of all but the first there is a comma. -/
def nextItem (first : Bool) (cur : Cursor) : Except Failure Next :=
  let cur := cur.skipBlanks
  match cur.rest with
  | [] => cur.failNext .unfinishedList
  | c :: _ =>
    if c = ']' then .ok (.closed cur)
    else if first then .ok (.item cur)
    else if c = ',' then
      let cur := cur.advance.skipBlanks
      match cur.rest with
      | [] => cur.failNext .unfinishedValue
      | c :: _ => if c = ']' then cur.failNext .trailingComma else .ok (.item cur)
    else cur.failNext .expectedListEnd

/-- Reads the items of a list up to its closing bracket, at most `fuel` of them. -/
def readItemsFrom {α : Type} (read : Cursor → Result α) :
    Nat → Bool → List α → Cursor → Result (List α)
  | 0, _, _, cur => cur.failNext .unfinishedList
  | fuel + 1, first, done, cur =>
    match nextItem first cur with
    | .error e => .error e
    | .ok (.closed cur) => .ok (done.reverse, cur.advance)
    | .ok (.item cur) =>
      match read cur with
      | .error e => .error e
      | .ok (item, cur) => readItemsFrom read fuel false (item :: done) cur

/-- Reads the items of a list behind its opening bracket. -/
def readItems {α : Type} (read : Cursor → Result α) (cur : Cursor) : Result (List α) :=
  readItemsFrom read (cur.size + 1) true [] cur

/-! ## Members of objects -/

/-- Looks for the next member of an object, and passes the opening quote of its key. -/
def nextKey (first : Bool) (cur : Cursor) : Except Failure Next :=
  let cur := cur.skipBlanks
  match cur.rest with
  | [] => cur.failNext .unfinishedObject
  | c :: _ =>
    if c = '\x7d' then .ok (.closed cur)
    else if first then
      if c = '"' then .ok (.item cur.advance) else cur.failNext .keyNotString
    else if c = ',' then
      let cur := cur.advance.skipBlanks
      match cur.rest with
      | [] => cur.failNext .unfinishedValue
      | c :: _ =>
        if c = '"' then .ok (.item cur.advance)
        else if c = '\x7d' then cur.failNext .trailingComma
        else cur.failNext .keyNotString
    else cur.failNext .expectedObjectEnd

/-- Passes over the colon behind a key. -/
def readColon (cur : Cursor) : Except Failure Cursor :=
  let cur := cur.skipBlanks
  match cur.rest with
  | [] => cur.failNext .unfinishedObject
  | c :: _ => if c = ':' then .ok cur.advance else cur.failNext .expectedColon

/-- Reads the members of an object up to its closing bracket, at most `fuel` of them. -/
def readMembersFrom (read : Cursor → Result Value) :
    Nat → Bool → List (String × Value) → Cursor → Result (List (String × Value))
  | 0, _, _, cur => cur.failNext .unfinishedObject
  | fuel + 1, first, done, cur =>
    match nextKey first cur with
    | .error e => .error e
    | .ok (.closed cur) => .ok (done, cur.advance)
    | .ok (.item cur) =>
      match readString cur with
      | .error e => .error e
      | .ok (key, cur) =>
        match readColon cur with
        | .error e => .error e
        | .ok cur =>
          match read cur with
          | .error e => .error e
          | .ok (value, cur) => readMembersFrom read fuel false (insertMember key value done) cur

/-- Reads the members of an object behind its opening bracket. -/
def readMembers (read : Cursor → Result Value) (cur : Cursor) : Result (List (String × Value)) :=
  readMembersFrom read (cur.size + 1) true [] cur

/-! ## Values -/

/-- Reads a value, and what is nested in it by the given reader; without one nothing may be. -/
def readValueWith (nested : Option (Cursor → Result Value)) (cur : Cursor) :
    Except Failure (Value × Cursor) := do
  let cur := cur.skipBlanks
  match cur.rest with
  | [] => cur.failNext .unfinishedValue
  | c :: _ =>
    match c with
    | 'n' => return (.null, ← readWord ['u', 'l', 'l'] cur.advance)
    | 't' => return (.bool true, ← readWord ['r', 'u', 'e'] cur.advance)
    | 'f' => return (.bool false, ← readWord ['a', 'l', 's', 'e'] cur.advance)
    | '"' =>
      let (s, cur) ← readString cur.advance
      return (.text s, cur)
    | '[' =>
      match nested with
      | none => cur.failNext .tooDeep
      | some read =>
        let (items, cur) ← readItems read cur.advance
        return (.array items, cur)
    | '\x7b' =>
      match nested with
      | none => cur.failNext .tooDeep
      | some read =>
        let (members, cur) ← readMembers read cur.advance
        return (.object members, cur)
    | _ =>
      if c = '-' ∨ c.isDigit then
        let (n, cur) ← readNumber cur
        return (.number n, cur)
      else cur.failNext .expectedValue

/-- Reads a value in which brackets may nest as deeply as the first argument says. -/
def readValue : Nat → Cursor → Result Value
  | 0 => readValueWith none
  | depth + 1 => readValueWith (some (readValue depth))

/-- How deeply the brackets of a text may nest. -/
def maxDepth : Nat := 127

/-- The value that a text stands for. -/
def Value.ofText (s : String) : Except Failure Value := do
  let (value, cur) ← readValue maxDepth (Cursor.ofText s)
  cur.finish
  return value

/-! ## Scalars of a given type -/

/-- Refuses what stands here because something else is wanted.  A scalar is read first, so that it
can be shown, and may be refused for itself; of a list or an object only the bracket is seen. -/
def refuse {α : Type} (wanted : Wanted) (cur : Cursor) : Except Failure α := do
  let mismatch (found : Found) : Fault := .mismatch (.wrongType found wanted)
  match cur.rest with
  | '[' :: _ => cur.failHere (mismatch .sequence)
  | '\x7b' :: _ => cur.failHere (mismatch .map)
  | _ =>
    let (value, cur) ← readValueWith none cur
    cur.failHere (mismatch value.found)

/-- Reads a string. -/
def readText (cur : Cursor) : Result String :=
  let cur := cur.skipBlanks
  match cur.rest with
  | '"' :: _ => readString cur.advance
  | _ => refuse .text cur

/-- Reads a string or nothing. -/
def readOptionalText (cur : Cursor) : Except Failure (Option String × Cursor) := do
  let cur := cur.skipBlanks
  match cur.rest with
  | 'n' :: _ => return (none, ← readWord ['u', 'l', 'l'] cur.advance)
  | _ =>
    let (s, cur) ← readText cur
    return (some s, cur)

/-- Reads a number of the given kind. -/
def readNumeral {α : Type} (wanted : Wanted) (convert : Numeral → Except Mismatch α)
    (cur : Cursor) : Except Failure (α × Cursor) := do
  let cur := cur.skipBlanks
  match cur.rest with
  | c :: _ =>
    if c = '-' ∨ c.isDigit then
      let (n, cur) ← readNumber cur
      match convert n with
      | .ok x => return (x, cur)
      | .error m => cur.failHere (.mismatch m)
    else refuse wanted cur
  | [] => refuse wanted cur

/-- Reads a number in floating point. -/
def readDouble (cur : Cursor) : Result Double :=
  readNumeral .double (fun n => .ok n.toDouble) cur

/-- A count must be whole and not negative. -/
def Numeral.toSize : Numeral → Except Mismatch Nat
  | .whole (.ofNat n) => .ok n
  | .whole n => .error (.wrongValue (.integer n) .size)
  | .real x => .error (.wrongType (.real x) .size)

/-- Reads a count. -/
def readSize (cur : Cursor) : Result Nat := readNumeral .size Numeral.toSize cur

/-- Reads a list of items, nested in `depth` further levels of brackets. -/
def readList {α : Type} (depth : Nat) (read : Nat → Cursor → Result α) (cur : Cursor) :
    Result (List α) :=
  let cur := cur.skipBlanks
  match cur.rest with
  | '[' :: _ =>
    match depth with
    | 0 => cur.failNext .tooDeep
    | depth + 1 => readItems (read depth) cur.advance
  | _ => refuse .sequence cur

end SpikeWatch.Json
