import SpikeWatch.Mismatch

/-!
# Reading along a JSON text

A `Cursor` is what is left of a text together with the number of bytes before it.  Readers take a
cursor and give a result with the cursor behind it, or a `Failure`: a fault and the byte offset at
which it is reported.  A fault is reported either where the cursor stands (`failHere`) or behind
the next byte (`failNext`), since some faults are only seen by taking that byte.
-/

set_option autoImplicit false

namespace SpikeWatch.Json

/-- What can be wrong with a JSON text. -/
inductive Fault where
  | unfinishedValue
  | unfinishedList
  | unfinishedObject
  | unfinishedString
  | expectedColon
  | expectedListEnd
  | expectedObjectEnd
  /-- A word that begins as `null`, `true` or `false` does and goes on otherwise. -/
  | expectedWord
  | expectedValue
  | invalidEscape
  | invalidNumber
  | numberOutOfRange
  /-- A surrogate without its other half. -/
  | loneSurrogate
  /-- The first half of a surrogate pair with no escape behind it. -/
  | unfinishedPair
  | controlCharacter
  | keyNotString
  | trailingComma
  | trailingCharacters
  /-- Brackets nest too deeply. -/
  | tooDeep
  /-- The text is well formed, but not what is wanted. -/
  | mismatch (m : Mismatch)

/-- What is said about a fault.  Those of other readers come with words of their own. -/
def Fault.message : Fault → String
  | unfinishedValue => "EOF while parsing a value"
  | unfinishedList => "EOF while parsing a list"
  | unfinishedObject => "EOF while parsing an object"
  | unfinishedString => "EOF while parsing a string"
  | expectedColon => "expected `:`"
  | expectedListEnd => "expected `,` or `]`"
  | expectedObjectEnd => "expected `,` or `\x7d`"
  | expectedWord => "expected ident"
  | expectedValue => "expected value"
  | invalidEscape => "invalid escape"
  | invalidNumber => "invalid number"
  | numberOutOfRange => "number out of range"
  | loneSurrogate => "lone leading surrogate in hex escape"
  | unfinishedPair => "unexpected end of hex escape"
  | controlCharacter => "control character (\\u0000-\\u001F) found while parsing a string"
  | keyNotString => "key must be a string"
  | trailingComma => "trailing comma"
  | trailingCharacters => "trailing characters"
  | tooDeep => "recursion limit exceeded"
  | mismatch m => m.message .exchange

/-- A fault, and the number of bytes of the text before the place where it is reported. -/
structure Failure where
  fault : Fault
  offset : Nat

/-- The line, from one on, and the column, in bytes, of an offset in a text. -/
def locate (offset line column : Nat) : List Char → Nat × Nat
  | [] => (line, column)
  | c :: rest =>
    if offset < c.utf8Size then (line, column + offset)
    else if c = '\n' then locate (offset - 1) (line + 1) 0 rest
    else locate (offset - c.utf8Size) line (column + c.utf8Size) rest

/-- The wording of a failure to read the given text. -/
def Failure.message (text : String) (f : Failure) : String :=
  let (line, column) := locate f.offset 1 0 text.toList
  f.fault.message ++ " at line " ++ String.ofList (Decimal.digits line) ++ " column " ++
    String.ofList (Decimal.digits column)

/-- The wording of a failure to read the body of a request. -/
def Failure.bodyMessage (body : String) (f : Failure) : String :=
  "invalid JSON: " ++ f.message body

/-- What is left of a text, and the number of bytes before it. -/
structure Cursor where
  rest : List Char
  offset : Nat
  /-- The number of characters of the whole text: no reader takes more steps than that. -/
  size : Nat
  length_le : rest.length ≤ size

/-- The result of reading: a value and the cursor behind it. -/
abbrev Result (α : Type) := Except Failure (α × Cursor)

namespace Cursor

/-- The cursor at the beginning of a text. -/
def ofText (s : String) : Cursor := ⟨s.toList, 0, s.toList.length, Nat.le_refl _⟩

/-- Reports a fault where the cursor stands. -/
def failHere {α : Type} (cur : Cursor) (fault : Fault) : Except Failure α :=
  .error ⟨fault, cur.offset⟩

/-- The offset behind the next byte, or the end of the text. -/
def nextOffset (cur : Cursor) : Nat := if cur.rest.isEmpty then cur.offset else cur.offset + 1

/-- Reports a fault behind the next byte. -/
def failNext {α : Type} (cur : Cursor) (fault : Fault) : Except Failure α :=
  .error ⟨fault, cur.nextOffset⟩

/-- Passes over one character. -/
def advance (cur : Cursor) : Cursor where
  rest := cur.rest.tail
  offset := cur.offset + (cur.rest.head?.map Char.utf8Size).getD 0
  size := cur.size
  length_le := by
    have := cur.length_le
    simp only [List.length_tail]
    omega

/-- Passes over so many characters of one byte each. -/
def skip (n : Nat) (cur : Cursor) : Cursor where
  rest := cur.rest.drop n
  offset := cur.offset + n
  size := cur.size
  length_le := by
    have := cur.length_le
    simp only [List.length_drop]
    omega

/-- Passes over characters of one byte each as long as they are of a kind. -/
def skipWhile (kind : Char → Bool) (cur : Cursor) : Cursor where
  rest := cur.rest.dropWhile kind
  offset := cur.offset + (cur.rest.takeWhile kind).length
  size := cur.size
  length_le := Nat.le_trans (List.dropWhile_suffix kind).length_le cur.length_le

/-- The four characters that may stand between the parts of a text. -/
def isBlank (c : Char) : Bool := c == ' ' || c == '\n' || c == '\t' || c == '\r'

/-- Passes over blanks. -/
def skipBlanks (cur : Cursor) : Cursor := cur.skipWhile isBlank

/-- Passes over decimal digits. -/
def skipDigits (cur : Cursor) : Cursor := cur.skipWhile Char.isDigit

/-- Whether the next character is a decimal digit. -/
def atDigit (cur : Cursor) : Bool :=
  match cur.rest with
  | c :: _ => c.isDigit
  | [] => false

/-- Whether the next character begins an exponent. -/
def atExponent (cur : Cursor) : Bool :=
  match cur.rest with
  | c :: _ => c == 'e' || c == 'E'
  | [] => false

/-- Nothing but blanks may follow. -/
def finish (cur : Cursor) : Except Failure Unit :=
  let cur := cur.skipBlanks
  if cur.rest.isEmpty then .ok () else cur.failNext .trailingCharacters

end Cursor

end SpikeWatch.Json
