import SpikeWatch.Json.Cursor
import SpikeWatch.Json.Value
import SpikeWatch.Text.Hexadecimal

/-!
# Words, numbers and strings of a JSON text

A number is collected into a significand of sixty-four bits and a power of ten.  Integers that do
not fit, and fractions and exponents, turn it into floating point: the significand is rounded, and
then multiplied or divided by the rounded power of ten, so that the result may differ from the
nearest number by its last bits.  A number beyond the largest one is refused.
-/

set_option autoImplicit false

namespace SpikeWatch.Json

open Decimal (digitValue)

/-! ## Words -/

/-- Reads the given characters. -/
def readWord : List Char → Cursor → Except Failure Cursor
  | [], cur => .ok cur
  | w :: word, cur =>
    match cur.rest with
    | [] => cur.failHere .unfinishedValue
    | c :: _ => if c = w then readWord word cur.advance else cur.failNext .expectedWord

/-! ## Numbers -/

/-- The largest significand that is collected. -/
def maxSignificand : Nat := UInt64.size - 1

/-- The largest exponent that is collected. -/
def maxExponent : Nat := 2147483647

/-- Collects digits into a number, behind `count` digits that made `n`, as long as it stays within
the limit, and counts them. -/
def collectDigits (limit : Nat) : List Char → Nat → Nat → Nat × Nat
  | [], n, count => (n, count)
  | c :: rest, n, count =>
    if c.isDigit && decide (10 * n + digitValue c ≤ limit) then
      collectDigits limit rest (10 * n + digitValue c) (count + 1)
    else (n, count)

/-- The number nearest to a power of ten. -/
def powerOfTen (exponent : Nat) : Double := .ofDecimal false 1 exponent

/-- Divides by a power of ten, in steps of the greatest one there is; zero is left at once. -/
def divideDown : Nat → Double → Nat → Double
  | 0, x, exponent => x / powerOfTen exponent
  | steps + 1, x, exponent =>
    if exponent ≤ 308 then x / powerOfTen exponent
    else if x.isZero then x
    else divideDown steps (x / powerOfTen 308) (exponent - 308)

/-- The magnitude of a number from its parts; `none` beyond the largest number. -/
def magnitude? (significand : Nat) (exponent : Int) : Option Double :=
  if exponent < 0 then some (divideDown (-exponent).toNat (.ofNat significand) (-exponent).toNat)
  else if 308 < exponent then (if significand = 0 then some (.ofNat 0) else none)
  else
    let x : Double := .ofNat significand * powerOfTen exponent.toNat
    if x.isFinite then some x else none

/-- A number in floating point from its parts. -/
def ofParts (negative : Bool) (significand : Nat) (exponent : Int) (cur : Cursor) :
    Result Numeral :=
  match magnitude? significand exponent with
  | none => cur.failHere .numberOutOfRange
  | some x => .ok (.real (if negative then -x else x), cur)

/-- Reads from the mark of an exponent on. -/
def readExponent (negative : Bool) (significand : Nat) (exponent : Int) (cur : Cursor) :
    Result Numeral :=
  let cur := cur.advance
  let (down, cur) := match cur.rest with
    | '+' :: _ => (false, cur.advance)
    | '-' :: _ => (true, cur.advance)
    | _ => (false, cur)
  if cur.rest.isEmpty then cur.failHere .unfinishedValue
  else if !cur.atDigit then cur.failNext .invalidNumber
  else
    let (e, count) := collectDigits maxExponent cur.rest 0 0
    let cur := cur.skip count
    if cur.atDigit then
      if significand ≠ 0 ∧ ¬ down then cur.failNext .numberOutOfRange
      else .ok (.real (.zero negative), cur.skipDigits)
    else ofParts negative significand (if down then exponent - e else exponent + e) cur

/-- Reads from the point on.  Digits for which the significand has no room are dropped. -/
def readFraction (negative : Bool) (significand : Nat) (exponent : Int) (cur : Cursor) :
    Result Numeral :=
  let cur := cur.advance
  let (significand, count) := collectDigits maxSignificand cur.rest significand 0
  let cur := cur.skip count
  if count = 0 ∧ ¬ cur.atDigit then
    if cur.rest.isEmpty then cur.failHere .unfinishedValue else cur.failNext .invalidNumber
  else
    let exponent := exponent - count
    let cur := cur.skipDigits
    if cur.atExponent then readExponent negative significand exponent cur
    else ofParts negative significand exponent cur

/-- Reads what may follow the integer part of a number. -/
def readTail (negative : Bool) (significand : Nat) (exponent : Int) (cur : Cursor)
    (otherwise : Result Numeral) : Result Numeral :=
  match cur.rest with
  | '.' :: _ => readFraction negative significand exponent cur
  | _ => if cur.atExponent then readExponent negative significand exponent cur else otherwise

/-- An integer of sixty-four bits.  Minus zero, and what lies below all signed integers, is
floating point. -/
def ofInteger (negative : Bool) (n : Nat) : Numeral :=
  if !negative then .whole n
  else if n = 0 ∨ (-n : Int) < Int64.minValue.toInt then .real (-.ofNat n)
  else .whole (-n)

/-- Reads a number behind its sign. -/
def readUnsigned (negative : Bool) (cur : Cursor) : Result Numeral :=
  match cur.rest with
  | [] => cur.failHere .unfinishedValue
  | c :: _ =>
    if c = '0' then
      let cur := cur.advance
      if cur.atDigit then cur.failNext .invalidNumber
      else readTail negative 0 0 cur (.ok (ofInteger negative 0, cur))
    else if c.isDigit then
      let (n, count) := collectDigits maxSignificand cur.rest 0 0
      let cur := cur.skip count
      if cur.atDigit then
        let behind := cur.skipDigits
        let exponent : Nat := behind.offset - cur.offset
        readTail negative n exponent behind (ofParts negative n exponent behind)
      else readTail negative n 0 cur (.ok (ofInteger negative n, cur))
    else cur.failNext .invalidNumber

/-- Reads a number. -/
def readNumber (cur : Cursor) : Result Numeral :=
  match cur.rest with
  | '-' :: _ => readUnsigned true cur.advance
  | _ => readUnsigned false cur

/-! ## Strings -/

/-- Reads the four hexadecimal digits of an escape.  Four bytes are taken before they are looked
at. -/
def readHex (cur : Cursor) : Result Nat :=
  let digits := cur.rest.take 4
  match (if digits.length = 4 then Text.ofHex? digits else none) with
  | some n => .ok (n, cur.skip 4)
  | none =>
    let bytes := digits.foldl (fun bytes c => bytes + c.utf8Size) 0
    if bytes < 4 then .error ⟨.unfinishedString, cur.offset + bytes⟩
    else .error ⟨.invalidEscape, cur.offset + 4⟩

/-- Reads one given character between the halves of a surrogate pair. -/
def readPairMark (mark : Char) (cur : Cursor) : Except Failure Cursor :=
  match cur.rest with
  | [] => cur.failHere .unfinishedString
  | c :: _ => if c = mark then .ok cur.advance else cur.failNext .unfinishedPair

/-- Reads an escape by code units behind its `u`: one unit, or two that make a pair. -/
def readUnits (cur : Cursor) : Except Failure (Char × Cursor) := do
  let (high, cur) ← readHex cur
  if 0xDC00 ≤ high ∧ high ≤ 0xDFFF then cur.failHere .loneSurrogate
  else if high < 0xD800 ∨ 0xDBFF < high then return (Char.ofNat high, cur)
  else
    let cur ← readPairMark '\\' cur
    let cur ← readPairMark 'u' cur
    let (low, cur) ← readHex cur
    if low < 0xDC00 ∨ 0xDFFF < low then cur.failHere .loneSurrogate
    else return (Char.ofNat (0x10000 + (high - 0xD800) * 0x400 + (low - 0xDC00)), cur)

/-- The characters that stand for another one behind a backslash. -/
def shortEscape? (c : Char) : Option Char :=
  match c with
  | '"' => some '"'
  | '\\' => some '\\'
  | '/' => some '/'
  | 'b' => some '\x08'
  | 'f' => some '\x0c'
  | 'n' => some '\n'
  | 'r' => some '\r'
  | 't' => some '\t'
  | _ => none

/-- Reads an escape behind its backslash. -/
def readEscape (cur : Cursor) : Result Char :=
  match cur.rest with
  | [] => cur.failHere .unfinishedString
  | c :: _ =>
    match shortEscape? c with
    | some d => .ok (d, cur.advance)
    | none => if c = 'u' then readUnits cur.advance else cur.failNext .invalidEscape

/-- Reads a string behind its opening quote, at most `fuel` characters of it.  The characters read
so far are in reverse. -/
def readStringFrom : Nat → List Char → Cursor → Result String
  | 0, _, cur => cur.failHere .unfinishedString
  | fuel + 1, done, cur =>
    match cur.rest with
    | [] => cur.failHere .unfinishedString
    | c :: _ =>
      if c = '"' then .ok (String.ofList done.reverse, cur.advance)
      else if c = '\\' then
        match readEscape cur.advance with
        | .error e => .error e
        | .ok (d, cur) => readStringFrom fuel (d :: done) cur
      else if c < ' ' then cur.failNext .controlCharacter
      else readStringFrom fuel (c :: done) cur.advance

/-- Reads a string behind its opening quote. -/
def readString (cur : Cursor) : Result String := readStringFrom (cur.size + 1) [] cur

end SpikeWatch.Json
