import SpikeWatch.Text.Hexadecimal
import SpikeWatch.Decimal.Reading
import SpikeWatch.Time.Calendar

/-!
# The smallest parts of a TOML text

Blanks and comments, keys and strings, numbers, dates and times.  A reader takes the characters that
are left of the text, and gives what it has read with the characters behind it; where the text is
not TOML it gives nothing.
-/

set_option autoImplicit false

namespace SpikeWatch.Toml

/-- Takes the characters that are left, and gives what it has read with the characters behind it. -/
abbrev Reader (α : Type) := List Char → Option (α × List Char)

/-! ## Blanks, comments and ends of lines -/

/-- The two characters that may stand between the parts of a line. -/
def isBlank (c : Char) : Bool := c == ' ' || c == '\t'

/-- A character that may stand in a comment: no control character but the tab. -/
def isPrintable (c : Char) : Bool := c == '\t' || (' ' ≤ c && c != '\x7f')

/-- Passes blanks, but no end of a line. -/
def skipBlanks (cs : List Char) : List Char := cs.dropWhile isBlank

/-- Passes the end of a line. -/
def newline? : List Char → Option (List Char)
  | '\n' :: rest => some rest
  | '\r' :: '\n' :: rest => some rest
  | _ => none

/-- Passes the end of a line or stands at the end of the text. -/
def lineEnd? (cs : List Char) : Option (List Char) := if cs.isEmpty then some [] else newline? cs

/-- Passes a comment, if there is one, up to the end of its line. -/
def skipComment : List Char → List Char
  | '#' :: rest => rest.dropWhile isPrintable
  | cs => cs

/-- Passes what may follow an expression on its line. -/
def lineRest? (cs : List Char) : Option (List Char) := lineEnd? (skipComment (skipBlanks cs))

/-- Passes blanks, comments and ends of lines, at most `fuel` lines of them. -/
def skipLines : Nat → List Char → List Char
  | 0, cs => cs
  | fuel + 1, cs =>
    let cs := skipBlanks cs
    match newline? (skipComment cs) with
    | some rest => skipLines fuel rest
    | none => cs

/-! ## Strings -/

/-- A character that stands for itself in a basic string. -/
def isBasic (c : Char) : Bool := isPrintable c && c != '"' && c != '\\'

/-- A character that stands for itself in a literal string. -/
def isLiteral (c : Char) : Bool := isPrintable c && c != '\''

/-- The character of a code point that is not a surrogate. -/
def charOf? (code : Nat) : Option Char :=
  if code.isValidChar then some (Char.ofNat code) else none

/-- Reads the digits of an escape by code point. -/
def readCode? (width : Nat) (cs : List Char) : Option (Char × List Char) := do
  let digits := cs.take width
  if digits.length = width then
    let c ← charOf? (← Text.ofHex? digits)
    return (c, cs.drop width)
  else none

/-- Reads an escape behind its backslash. -/
def readEscape? : List Char → Option (Char × List Char)
  | 'b' :: rest => some ('\x08', rest)
  | 'f' :: rest => some ('\x0c', rest)
  | 'n' :: rest => some ('\n', rest)
  | 'r' :: rest => some ('\r', rest)
  | 't' :: rest => some ('\t', rest)
  | '\\' :: rest => some ('\\', rest)
  | '"' :: rest => some ('"', rest)
  | 'u' :: rest => readCode? 4 rest
  | 'U' :: rest => readCode? 8 rest
  | _ => none

/-- Reads a basic string behind its quote, at most `fuel` characters; those read are in reverse. -/
def readBasicFrom? : Nat → List Char → List Char → Option (String × List Char)
  | 0, _, _ => none
  | fuel + 1, done, cs =>
    match cs with
    | [] => none
    | c :: rest =>
      if c = '"' then some (String.ofList done.reverse, rest)
      else if c = '\\' then do
        let (d, rest) ← readEscape? rest
        readBasicFrom? fuel (d :: done) rest
      else if isBasic c then readBasicFrom? fuel (c :: done) rest
      else none

@[inherit_doc readBasicFrom?]
def readBasic? (cs : List Char) : Option (String × List Char) :=
  readBasicFrom? (cs.length + 1) [] cs

/-- Reads a literal string behind its quote. -/
def readLiteral? (cs : List Char) : Option (String × List Char) :=
  match cs.dropWhile isLiteral with
  | '\'' :: rest => some (String.ofList (cs.takeWhile isLiteral), rest)
  | _ => none

/-- How many times a character stands in front. -/
def countFront (c : Char) (cs : List Char) : Nat := (cs.takeWhile (· == c)).length

/-- Passes blanks and ends of lines, at most `fuel` lines of them. -/
def skipBlankLines : Nat → List Char → List Char
  | 0, cs => cs
  | fuel + 1, cs =>
    let cs := skipBlanks cs
    match newline? cs with
    | some rest => skipBlankLines fuel rest
    | none => cs

/-- Reads a string of several lines, at most `fuel` pieces of it; the characters read are in
reverse.  Up to two quotes in a row are part of the text, also in front of the three that end it.
In a basic string a backslash at the end of a line takes the blanks and lines that follow with
it. -/
def readLinesFrom? (quote : Char) (escapes : Bool) :
    Nat → List Char → List Char → Option (String × List Char)
  | 0, _, _ => none
  | fuel + 1, done, cs =>
    match cs with
    | [] => none
    | c :: rest =>
      if c = quote then
        let quotes := countFront quote cs
        -- a run of quotes ends the text if it has three of them, and up to two more belong to the
        -- text
        if quotes < 3 then
          readLinesFrom? quote escapes fuel (List.replicate quotes quote ++ done) (cs.drop quotes)
        else
          let inside := min (quotes - 3) 2
          some (String.ofList (List.replicate inside quote ++ done).reverse, cs.drop (inside + 3))
      else if escapes ∧ c = '\\' then
        match newline? (skipBlanks rest) with
        | some rest => readLinesFrom? quote escapes fuel done (skipBlankLines rest.length rest)
        | none => do
          let (d, rest) ← readEscape? rest
          readLinesFrom? quote escapes fuel (d :: done) rest
      else
        match newline? cs with
        | some rest => readLinesFrom? quote escapes fuel ('\n' :: done) rest
        | none =>
          if isPrintable c then readLinesFrom? quote escapes fuel (c :: done) rest else none

/-- Reads a string of several lines behind its quotes.  An end of line right behind them is not
part of the text. -/
def readLines? (quote : Char) (escapes : Bool) (cs : List Char) : Option (String × List Char) :=
  readLinesFrom? quote escapes (cs.length + 1) [] ((newline? cs).getD cs)

/-- Reads a string of any of the four kinds. -/
def readString? : List Char → Option (String × List Char)
  | '"' :: '"' :: '"' :: rest => readLines? '"' true rest
  | '\'' :: '\'' :: '\'' :: rest => readLines? '\'' false rest
  | '"' :: rest => readBasic? rest
  | '\'' :: rest => readLiteral? rest
  | _ => none

/-! ## Keys -/

/-- A character of a key without quotes. -/
def isBare (c : Char) : Bool := c.isAlphanum || c == '-' || c == '_'

/-- Reads one part of a key, and the blanks around it. -/
def readPart? (cs : List Char) : Option (String × List Char) := do
  let cs := skipBlanks cs
  let (part, rest) ← match cs with
    | '"' :: rest => readBasic? rest
    | '\'' :: rest => readLiteral? rest
    | _ =>
      let part := cs.takeWhile isBare
      if part.isEmpty then none else some (String.ofList part, cs.dropWhile isBare)
  return (part, skipBlanks rest)

/-- Reads the parts of a key, at most `fuel` of them. -/
def readParts? : Nat → List Char → Option (List String × List Char)
  | 0, _ => none
  | fuel + 1, cs => do
    let (part, rest) ← readPart? cs
    match rest with
    | '.' :: rest =>
      let (parts, rest) ← readParts? fuel rest
      return (part :: parts, rest)
    | _ => return ([part], rest)

/-- Neither may a key have so many parts, nor brackets be so deep. -/
def depthLimit : Nat := 80

/-- Reads a key: the parts in front of the last one, and the last one. -/
def readKey? (cs : List Char) : Option ((List String × String) × List Char) := do
  let (parts, rest) ← readParts? (depthLimit - 1) cs
  let last ← parts.getLast?
  return ((parts.dropLast, last), rest)

/-! ## Dates and times -/

/-- Reads a number of exactly so many digits, from `first` to `last`. -/
def readField? (width first last : Nat) (cs : List Char) : Option (Nat × List Char) :=
  let digits := cs.take width
  let n := Decimal.ofDigits digits
  if digits.length = width ∧ digits.all Char.isDigit ∧ first ≤ n ∧ n ≤ last then
    some (n, cs.drop width)
  else none

/-- Passes one given character. -/
def skipChar? (c : Char) : List Char → Option (List Char)
  | d :: rest => if d = c then some rest else none
  | [] => none

/-- Passes a date that exists. -/
def skipDate? (cs : List Char) : Option (List Char) := do
  let (year, cs) ← readField? 4 0 9999 cs
  let cs ← skipChar? '-' cs
  let (month, cs) ← readField? 2 1 12 cs
  let cs ← skipChar? '-' cs
  let (_, cs) ← readField? 2 1 (Date.daysInMonth year month) cs
  return cs

/-- Passes a time of day, which may have a fraction of a second. -/
def skipTime? (cs : List Char) : Option (List Char) := do
  let (_, cs) ← readField? 2 0 23 cs
  let cs ← skipChar? ':' cs
  let (_, cs) ← readField? 2 0 59 cs
  let cs ← skipChar? ':' cs
  let (_, cs) ← readField? 2 0 60 cs
  match cs with
  | '.' :: rest =>
    let behind := rest.dropWhile Char.isDigit
    -- a point without digits behind it is no part of the time
    return if behind.length < rest.length then behind else cs
  | _ => return cs

/-- Passes the distance from universal time, if there is one. -/
def skipOffset? (cs : List Char) : Option (List Char) :=
  match cs with
  | c :: rest =>
    if c = 'Z' ∨ c = 'z' then some rest
    else if c = '+' ∨ c = '-' then do
      let (_, cs) ← readField? 2 0 23 rest
      let cs ← skipChar? ':' cs
      let (_, cs) ← readField? 2 0 59 cs
      return cs
    else some cs
  | [] => some []

/-- Passes a date, a time of day, or both. -/
def skipDateTime? (cs : List Char) : Option (List Char) :=
  match skipDate? cs with
  | none => skipTime? cs
  | some rest =>
    match rest with
    | c :: time =>
      if c = 'T' ∨ c = 't' ∨ c = ' ' then
        match skipTime? time with
        | some behind => skipOffset? behind
        | none => some rest
      else some rest
    | [] => some []

/-! ## Numbers -/

/-- Takes digits of a kind, with single underscores between them, at most `fuel` of them. -/
def takeDigitsFrom (isDigit : Char → Bool) : Nat → List Char → List Char → List Char × List Char
  | 0, done, cs => (done.reverse, cs)
  | fuel + 1, done, cs =>
    match cs with
    | c :: rest =>
      if isDigit c then takeDigitsFrom isDigit fuel (c :: done) rest
      else if c = '_' ∧ done ≠ [] then
        match rest with
        | d :: rest =>
          if isDigit d then takeDigitsFrom isDigit fuel (d :: done) rest else (done.reverse, cs)
        | [] => (done.reverse, cs)
      else (done.reverse, cs)
    | [] => (done.reverse, [])

/-- Reads digits of a kind, with single underscores between them; there must be at least one. -/
def readDigits? (isDigit : Char → Bool) (cs : List Char) : Option (List Char × List Char) :=
  match takeDigitsFrom isDigit (cs.length + 1) [] cs with
  | ([], _) => none
  | read => some read

/-- Reads a sign, if there is one. -/
def readSign : List Char → List Char × List Char
  | '+' :: rest => (['+'], rest)
  | '-' :: rest => (['-'], rest)
  | cs => ([], cs)

/-- Reads a decimal integer: no zero stands in front of another digit. -/
def readDecimal? (cs : List Char) : Option (List Char × List Char) := do
  let (sign, cs) := readSign cs
  match cs with
  | '0' :: rest => return (sign ++ ['0'], rest)
  | _ =>
    let (digits, rest) ← readDigits? Char.isDigit cs
    return (sign ++ digits, rest)

/-- Reads an exponent. -/
def readExponent? : List Char → Option (List Char × List Char)
  | c :: rest =>
    if c = 'e' ∨ c = 'E' then do
      let (sign, rest) := readSign rest
      let (digits, rest) ← readDigits? Char.isDigit rest
      return ('e' :: sign ++ digits, rest)
    else none
  | [] => none

/-- Reads a fraction. -/
def readFraction? : List Char → Option (List Char × List Char)
  | '.' :: rest => do
    let (digits, rest) ← readDigits? Char.isDigit rest
    return ('.' :: digits, rest)
  | _ => none

/-- Reads a number that has a fraction, an exponent or both.  It must not lie beyond the greatest
number; below the least one it is minus infinity. -/
def readReal? (cs : List Char) : Option (Double × List Char) := do
  let (whole, rest) ← readDecimal? cs
  let (tail, rest) ← match readExponent? rest with
    | some read => some read
    | none => do
      let (fraction, rest) ← readFraction? rest
      match readExponent? rest with
      | some (exponent, rest) => some (fraction ++ exponent, rest)
      | none => some (fraction, rest)
  let x : Double ← Binary.ofText? (whole ++ tail)
  -- the sign is kept, so only a number that is too large upwards is refused here
  if x = .infinity false then none else return (x, rest)

/-- Reads infinity, or what is not a number. -/
def readSpecial? (cs : List Char) : Option (Double × List Char) :=
  let (sign, cs) := readSign cs
  match cs with
  | 'i' :: 'n' :: 'f' :: rest => some (.infinity (sign = ['-']), rest)
  | 'n' :: 'a' :: 'n' :: rest => some (.nan, rest)
  | _ => none

/-- An integer of sixty-four bits with a sign. -/
def inRange? (n : Int) : Option Int :=
  if Int64.minValue.toInt ≤ n ∧ n ≤ Int64.maxValue.toInt then some n else none

/-- Reads digits of a base up to sixteen. -/
def readBase? (base : Nat) (cs : List Char) : Option (Int × List Char) := do
  let isDigit (c : Char) : Bool := match Text.hexValue? c with
    | some n => n < base
    | none => false
  let (digits, rest) ← readDigits? isDigit cs
  let n := digits.foldl (fun n c => base * n + (Text.hexValue? c).getD 0) 0
  return (← inRange? n, rest)

/-- Reads an integer. -/
def readInteger? : List Char → Option (Int × List Char)
  | '0' :: 'x' :: rest => readBase? 16 rest
  | '0' :: 'o' :: rest => readBase? 8 rest
  | '0' :: 'b' :: rest => readBase? 2 rest
  | cs => do
    let (digits, rest) ← readDecimal? cs
    let n : Int := match digits with
      | '-' :: digits => -(Decimal.ofDigits digits : Int)
      | '+' :: digits => Decimal.ofDigits digits
      | digits => Decimal.ofDigits digits
    return (← inRange? n, rest)

end SpikeWatch.Toml
