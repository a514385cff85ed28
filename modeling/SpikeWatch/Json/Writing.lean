import SpikeWatch.Json.Value

/-!
# Writing JSON

Texts are written in the shortest way: no blanks, and escapes only for quotes, backslashes and
control characters, by a letter where there is one.
-/

set_option autoImplicit false

namespace SpikeWatch.Json

/-- One character inside a string. -/
def writeChar (c : Char) : List Char :=
  if c = '"' then ['\\', '"']
  else if c = '\\' then ['\\', '\\']
  else if c = '\x08' then ['\\', 'b']
  else if c = '\t' then ['\\', 't']
  else if c = '\n' then ['\\', 'n']
  else if c = '\x0c' then ['\\', 'f']
  else if c = '\r' then ['\\', 'r']
  else if c < ' ' then
    ['\\', 'u', '0', '0', Nat.digitChar (c.toNat / 16), Nat.digitChar (c.toNat % 16)]
  else [c]

/-- A string. -/
def writeText (s : String) : List Char := '"' :: s.toList.flatMap writeChar ++ ['"']

/-- A count. -/
def writeNat (n : Nat) : List Char := Decimal.digits n

/-- A number in floating point. -/
def writeDouble (x : Double) : List Char := x.layOut .exchange

/-- Items with commas between them. -/
def writeSeparated : List (List Char) → List Char
  | [] => []
  | [item] => item
  | item :: items => item ++ ',' :: writeSeparated items

/-- A list of written items. -/
def writeList (items : List (List Char)) : List Char := '[' :: writeSeparated items ++ [']']

/-- An object of the given keys and written values, in their order. -/
def writeObject (members : List (String × List Char)) : List Char :=
  '\x7b' :: writeSeparated (members.map fun (key, value) => writeText key ++ ':' :: value)
    ++ ['\x7d']

end SpikeWatch.Json
