import SpikeWatch.Mismatch

/-!
# TOML values

The values of a document, and how a table grows while the document is read.  A table remembers how
it came to be, since that decides who may still add to it: an inline table is finished, a table with
a header of its own is not reopened by another header nor by a dotted key, and a table that dotted
keys made is only added to by dotted keys.

Entries keep the order of the document, with one exception: a table that was first only implied by
the headers of its parts moves behind its siblings when its own header comes.
-/

set_option autoImplicit false

namespace SpikeWatch.Toml

/-- How a table came to be. -/
inductive Origin where
  /-- Written in one place, between braces. -/
  | inlineTable
  /-- By a header of its own; the document itself counts as such a table. -/
  | header
  /-- By the header of a table inside it. -/
  | implied
  /-- By a dotted key. -/
  | dotted
  deriving DecidableEq

/-- A TOML value.  Of a date or time only that it is one is kept. -/
inductive Value where
  | text (s : String)
  | integer (n : Int)
  | real (x : Double)
  | bool (b : Bool)
  | dateTime
  | array (items : List Value)
  | table (origin : Origin) (entries : List (String × Value))
  /-- An array whose items are tables with a common header. -/
  | tables (items : List (List (String × Value)))

instance : Inhabited Value := ⟨.dateTime⟩

/-- The entries of a table, in their order. -/
abbrev Entries := List (String × Value)

/-- What a message says that it found here. -/
def Value.found : Value → Found
  | text s => .text s
  | integer n => .integer n
  | real x => .real x
  | bool b => .bool b
  | dateTime => .map
  | array _ => .sequence
  | table _ _ => .map
  | tables _ => .sequence

/-- Puts another value in the place of that of a key. -/
def replaceEntry (key : String) (value : Value) (entries : Entries) : Entries :=
  entries.map fun (k, v) => if k = key then (k, value) else (k, v)

/-- Adds an entry behind all others, if its key is new. -/
def addEntry? (key : String) (value : Value) (entries : Entries) : Option Entries :=
  if (entries.lookup key).isSome then none else some (entries ++ [(key, value)])

/-- Changes the last item of a list. -/
def changeLast? {α : Type} (change : α → Option α) : List α → Option (List α)
  | [] => none
  | [a] => (change a).map fun b => [b]
  | a :: rest => (changeLast? change rest).map (a :: ·)

/-- Walks from a table down a path and changes the entries of the table at its end.  What is missing
on the way is made, with the given origin; of an array of tables the last item is meant.  A finished
value stops the walk, and so does for dotted keys a table with a header.  The change is told the
origin of the table. -/
def changeAt? (making : Origin) (change : Origin → Entries → Option Entries) :
    List String → Origin → Entries → Option Entries
  | [], origin, entries => change origin entries
  | key :: path, _, entries =>
    match entries.lookup key with
    | none => do
      let child ← changeAt? making change path making []
      return entries ++ [(key, .table making child)]
    | some (.table origin child) => do
      if origin = .inlineTable ∨ (making = .dotted ∧ origin = .header) then none
      else
        let child ← changeAt? making change path origin child
        return replaceEntry key (.table origin child) entries
    | some (.tables items) => do
      let items ← changeLast? (changeAt? making change path .header) items
      return replaceEntry key (.tables items) entries
    | some _ => none

/-- Adds the value of a dotted key to a table.  The last table on the way must be one that dotted
keys made. -/
def addDotted? (path : List String) (key : String) (value : Value) (origin : Origin)
    (entries : Entries) : Option Entries :=
  changeAt? .dotted
    (fun origin entries =>
      if path ≠ [] ∧ origin ≠ .dotted then none else addEntry? key value entries)
    path origin entries

/-- Begins the table of a header: a new one, or one that was only implied so far. -/
def addTable? (path : List String) (key : String) (entries : Entries) : Option Entries :=
  changeAt? .implied
    (fun _ entries =>
      match entries.lookup key with
      | none => some (entries ++ [(key, .table .header [])])
      | some (.table .implied child) =>
        some (entries.filter (·.1 ≠ key) ++ [(key, .table .header child)])
      | some _ => none)
    path .header entries

/-- Begins another item of an array of tables. -/
def addItem? (path : List String) (key : String) (entries : Entries) : Option Entries :=
  changeAt? .implied
    (fun _ entries =>
      match entries.lookup key with
      | none => some (entries ++ [(key, .tables [[]])])
      | some (.tables items) => some (replaceEntry key (.tables (items ++ [[]])) entries)
      | some _ => none)
    path .header entries

/-- Adds the value of a key, dotted or not, to the table of the header that was seen last. -/
def addValue? (header path : List String) (key : String) (value : Value) (entries : Entries) :
    Option Entries :=
  changeAt? .implied (fun origin entries => addDotted? path key value origin entries)
    header .header entries

end SpikeWatch.Toml
