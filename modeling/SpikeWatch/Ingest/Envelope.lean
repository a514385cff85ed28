import SpikeWatch.Json.Value

/-!
# The envelope of a raw event

Before the payload is looked at, an event must give the name of its type, and may give a timestamp
in milliseconds.  The two are members of an object, or the items of a list of one or two.
-/

set_option autoImplicit false

namespace SpikeWatch

open Json (Value)

/-- The type that an event declares and the timestamp that it gives. -/
structure Envelope where
  typeName : String
  /-- Milliseconds since the beginning of 1970. -/
  timestamp : Option Int
  deriving DecidableEq

namespace Envelope

/-- A timestamp: a whole number of sixty-four bits, or nothing. -/
def readTimestamp? : Value → Option (Option Int)
  | .null => some none
  | .number (.whole n) =>
    if Int64.minValue.toInt ≤ n ∧ n ≤ Int64.maxValue.toInt then some (some n) else none
  | _ => none

/-- An envelope of its two parts, the second of which may be absent. -/
def ofParts? (type : Value) (timestamp : Option Value) : Option Envelope :=
  match type, timestamp with
  | .text typeName, none => some ⟨typeName, none⟩
  | .text typeName, some v => (readTimestamp? v).map fun timestamp => ⟨typeName, timestamp⟩
  | _, _ => none

/-- The envelope of a value, if it has the shape of one. -/
def ofValue? : Value → Option Envelope
  | .object members =>
    match members.lookup "type" with
    | some type => ofParts? type (members.lookup "timestamp")
    | none => none
  | .array [type] => ofParts? type none
  | .array [type, timestamp] => ofParts? type (some timestamp)
  | _ => none

end Envelope

end SpikeWatch
