import SpikeWatch.Toml.Lexeme
import SpikeWatch.Toml.Value

/-!
# TOML documents

Values with arrays and inline tables in them, and the expressions of a document, one to a line: a
key with its value, or the header of a table.
-/

set_option autoImplicit false

namespace SpikeWatch.Toml

/-! ## Values -/

/-- Reads the items of an array behind its bracket, at most `fuel` of them.  The last one may have a
comma behind it, and lines may end between them. -/
def readItems? (read : Reader Value) :
    Nat → List Value → List Char → Option (List Value × List Char)
  | 0, _, _ => none
  | fuel + 1, done, cs =>
    let cs := skipLines cs.length cs
    match cs with
    | ']' :: rest => some (done.reverse, rest)
    | _ => do
      let (item, cs) ← read cs
      match skipLines cs.length cs with
      | ',' :: rest => readItems? read fuel (item :: done) rest
      | ']' :: rest => some ((item :: done).reverse, rest)
      | _ => none

/-- Reads a key and its value, and the blanks around them. -/
def readPair? (read : Reader Value) (cs : List Char) :
    Option ((List String × String × Value) × List Char) := do
  let ((path, key), cs) ← readKey? cs
  let cs ← skipChar? '=' cs
  let (value, cs) ← read (skipBlanks cs)
  return ((path, key, value), skipBlanks cs)

/-- Reads the entries of an inline table, at most `fuel` of them.  Neither may the last one have a
comma behind it, nor lines end between them. -/
def readEntries? (read : Reader Value) :
    Nat → Entries → List Char → Option (Entries × List Char)
  | 0, _, _ => none
  | fuel + 1, entries, cs => do
    let ((path, key, value), cs) ← readPair? read cs
    let entries ← addDotted? path key value .header entries
    match cs with
    | ',' :: rest => readEntries? read fuel entries rest
    | '\x7d' :: rest => some (entries, rest)
    | _ => none

/-- Reads a number, a date or a time. -/
def readNumber? (cs : List Char) : Option (Value × List Char) :=
  match skipDateTime? cs with
  | some rest => some (.dateTime, rest)
  | none =>
    match (readReal? cs).orElse fun _ => readSpecial? cs with
    | some (x, rest) => some (.real x, rest)
    | none => (readInteger? cs).map fun (n, rest) => (.integer n, rest)

/-- Reads a value, and what is inside its brackets by the given reader; without one there may be no
brackets. -/
def readValueWith? (nested : Option (Reader Value)) (cs : List Char) :
    Option (Value × List Char) :=
  match cs with
  | [] => none
  | c :: rest =>
    match c with
    | '[' => do
      let read ← nested
      let (items, rest) ← readItems? read (rest.length + 1) [] rest
      return (.array items, rest)
    | '\x7b' => do
      let read ← nested
      match skipBlanks rest with
      | '\x7d' :: rest => return (.table .inlineTable [], rest)
      | _ =>
        let (entries, rest) ← readEntries? read (rest.length + 1) [] rest
        return (.table .inlineTable entries, rest)
    | 't' =>
      match rest with
      | 'r' :: 'u' :: 'e' :: rest => some (.bool true, rest)
      | _ => none
    | 'f' =>
      match rest with
      | 'a' :: 'l' :: 's' :: 'e' :: rest => some (.bool false, rest)
      | _ => none
    | _ =>
      if c = '"' ∨ c = '\'' then (readString? cs).map fun (s, rest) => (.text s, rest)
      else readNumber? cs

/-- Reads a value in which brackets may be as deep as the first argument says. -/
def readValue? : Nat → List Char → Option (Value × List Char)
  | 0 => readValueWith? none
  | depth + 1 => readValueWith? (some (readValue? depth))

/-! ## Expressions -/

/-- A document as far as it was read: its entries, and the last header. -/
structure Draft where
  entries : Entries := []
  header : List String := []

/-- Reads the header of a table or of an item of an array of tables, behind its first bracket. -/
def readHeader? (draft : Draft) (cs : List Char) : Option (Draft × List Char) := do
  let (isItem, cs) := match cs with
    | '[' :: rest => (true, rest)
    | cs => (false, cs)
  let ((path, key), cs) ← readKey? cs
  let cs ← skipChar? ']' cs
  let cs ← if isItem then skipChar? ']' cs else some cs
  let cs ← lineRest? cs
  let entries ← (if isItem then addItem? path key else addTable? path key) draft.entries
  return (⟨entries, path ++ [key]⟩, cs)

/-- Reads one expression, or a line without one. -/
def readExpression? (draft : Draft) (cs : List Char) : Option (Draft × List Char) :=
  match newline? cs with
  | some rest => some (draft, rest)
  | none =>
    match cs with
    | '#' :: _ => (lineRest? cs).map fun rest => (draft, rest)
    | '[' :: rest => readHeader? draft rest
    | _ => do
      let ((path, key, value), cs) ← readPair? (readValue? (depthLimit - 1)) cs
      let cs ← lineRest? cs
      let entries ← addValue? draft.header path key value draft.entries
      return ({ draft with entries }, cs)

/-- Reads expressions up to the end of the text, at most `fuel` of them. -/
def readExpressions? : Nat → Draft → List Char → Option Draft
  | 0, _, _ => none
  | fuel + 1, draft, cs =>
    match skipBlanks cs with
    | [] => some draft
    | cs => do
      let (draft, rest) ← readExpression? draft cs
      readExpressions? fuel draft rest

/-- The entries of a document, if the text is one.  A mark of the byte order is passed over. -/
def ofText? (s : String) : Option Entries :=
  let cs := match s.toList with
    | '\uFEFF' :: rest => rest
    | cs => cs
  (readExpressions? (cs.length + 1) {} cs).map Draft.entries

end SpikeWatch.Toml
