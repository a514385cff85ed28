import SpikeWatch.Mismatch

/-!
# JSON values

A value of unknown shape.  Numbers written as integers that fit sixty-four bits stay whole; all
others are rounded to floating point.  The members of an object are sorted by their keys and the
keys differ, whatever order and repetition the text had.
-/

set_option autoImplicit false

namespace SpikeWatch.Json

/-- A number as its text gives it. -/
inductive Numeral where
  /-- Without fraction or exponent, and within sixty-four bits. -/
  | whole (n : Int)
  | real (x : Double)
  deriving DecidableEq

/-- A JSON value. -/
inductive Value where
  | null
  | bool (b : Bool)
  | number (n : Numeral)
  | text (s : String)
  | array (items : List Value)
  | object (members : List (String × Value))

instance : Inhabited Value := ⟨.null⟩

/-- The numeral as a floating-point number. -/
def Numeral.toDouble : Numeral → Double
  | whole n => .ofInt n
  | real x => x

/-- What a message says that it found, which tells whole numbers from others. -/
def Numeral.found : Numeral → Found
  | whole n => .integer n
  | real x => .real x

/-- What a message says that it found here. -/
def Value.found : Value → Found
  | null => .null
  | bool b => .bool b
  | number n => n.found
  | text s => .text s
  | array _ => .sequence
  | object _ => .map

/-- Puts a member in the place of its key; a member of the same key gives way. -/
def insertMember (key : String) (value : Value) : List (String × Value) → List (String × Value)
  | [] => [(key, value)]
  | (k, v) :: rest =>
    -- the members are sorted already, so the first key that is not smaller decides
    if key < k then (key, value) :: (k, v) :: rest
    else if key = k then (key, value) :: rest
    else (k, v) :: insertMember key value rest

end SpikeWatch.Json
