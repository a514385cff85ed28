import SpikeWatch.Decimal.Layout
import SpikeWatch.Text.Quoted

/-!
# Data that does not fit

A document can be well formed and still not be what a reader wants: a text where a number is due, a
number too large for its field, a field that is missing or given twice.  `Mismatch` names these
cases, whatever the format of the document, and `Mismatch.message` words them.
-/

set_option autoImplicit false

namespace SpikeWatch

/-- What stands in the document. -/
inductive Found where
  | null
  | bool (b : Bool)
  | integer (n : Int)
  | real (x : Double)
  | text (s : String)
  | sequence
  | map

/-- What the reader wants. -/
inductive Wanted where
  | text
  | sequence
  | boolean
  /-- A number of thirty-two bits. -/
  | single
  /-- A number of sixty-four bits. -/
  | double
  | unsigned32
  | unsigned64
  /-- A count of things in memory. -/
  | size
  /-- A record of the given name. -/
  | record (name : String)

/-- Why well-formed data does not fit. -/
inductive Mismatch where
  | wrongType (found : Found) (wanted : Wanted)
  | wrongValue (found : Found) (wanted : Wanted)
  | missingField (name : String)
  | duplicateField (name : String)
  /-- A record given as a sequence ends before its last necessary field. -/
  | wrongLength (length : Nat) (record : String) (fields : Nat)
  /-- A name that is none of the known ones. -/
  | unknownName (name : String) (known : List String)

/-- How the data is shown, numbers with a fraction under the given conventions. -/
def Found.message (layout : Decimal.Layout) : Found → String
  | .null => "null"
  | .bool b => "boolean `" ++ (if b then "true" else "false") ++ "`"
  | .integer n => "integer `" ++ String.ofList (Decimal.signed n) ++ "`"
  | .real x => "floating point `" ++ String.ofList (x.layOut layout) ++ "`"
  | .text s => "string " ++ Text.quoted s
  | .sequence => "sequence"
  | .map => "map"

/-- What is wanted, in words. -/
def Wanted.message : Wanted → String
  | .text => "a string"
  | .sequence => "a sequence"
  | .boolean => "a boolean"
  | .single => "f32"
  | .double => "f64"
  | .unsigned32 => "u32"
  | .unsigned64 => "u64"
  | .size => "usize"
  | .record name => "struct " ++ name

/-- A name as messages show it. -/
def tickedName (name : String) : String := "`" ++ name ++ "`"

/-- The wording of a mismatch, numbers with a fraction under the given conventions. -/
def Mismatch.message (layout : Decimal.Layout) : Mismatch → String
  | .wrongType found wanted =>
    "invalid type: " ++ found.message layout ++ ", expected " ++ wanted.message
  | .wrongValue found wanted =>
    "invalid value: " ++ found.message layout ++ ", expected " ++ wanted.message
  | .missingField name => "missing field " ++ tickedName name
  | .duplicateField name => "duplicate field " ++ tickedName name
  | .wrongLength length record fields =>
    "invalid length " ++ String.ofList (Decimal.digits length) ++ ", expected struct " ++ record ++
      " with " ++ String.ofList (Decimal.digits fields) ++ " elements"
  | .unknownName name known =>
    "unknown variant " ++ tickedName name ++ ", expected one of " ++
      ", ".intercalate (known.map tickedName)

end SpikeWatch
