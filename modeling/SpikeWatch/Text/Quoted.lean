import SpikeWatch.Text.PrintTable

/-!
# Quoted text

How a text is shown inside a message: between double quotes, with quotes, backslashes and whatever
the reader could not see written as escapes.
-/

set_option autoImplicit false

namespace SpikeWatch.Text

/-- The character as an escape by its code point. -/
def codeEscape (c : Char) : List Char :=
  '\\' :: 'u' :: '\x7b' :: Nat.toDigits 16 c.toNat ++ ['\x7d']

/-- Whether a reader could not see the character by itself: it joins the one before it, or it has no
mark at all. -/
def isUnseen (c : Char) : Bool :=
  (graphemeExtend.holds c.toNat && !voicingMarks.holds c.toNat) || unprintable.holds c.toNat ||
    fillers.holds c.toNat

/-- One character inside quotes. -/
def quotedChar (c : Char) : List Char :=
  if c = '\x00' then ['\\', '0']
  else if c = '\t' then ['\\', 't']
  else if c = '\r' then ['\\', 'r']
  else if c = '\n' then ['\\', 'n']
  else if c = '\\' then ['\\', '\\']
  else if c = '"' then ['\\', '"']
  else if isUnseen c then codeEscape c
  else [c]

/-- The text between quotes. -/
def quoted (s : String) : String := String.ofList ('"' :: s.toList.flatMap quotedChar ++ ['"'])

end SpikeWatch.Text
