import SpikeWatch.Json.Scalar

/-!
# Passing over a value

A member that nobody asked for is only checked to be well formed.  The brackets that are open are
kept in a list, so values may nest as deeply as they like here, and nothing that was read is kept:
numbers of any size pass.
-/

set_option autoImplicit false

namespace SpikeWatch.Json

/-- The two kinds of brackets. -/
inductive Bracket where
  | list
  | object
  deriving DecidableEq

namespace Bracket

/-- The bracket at the other end. -/
def closing : Bracket → Char
  | list => ']'
  | object => '\x7d'

/-- The text ends inside the bracket. -/
def unfinished : Bracket → Fault
  | list => .unfinishedList
  | object => .unfinishedObject

/-- Neither a comma nor the closing bracket follows. -/
def expectedEnd : Bracket → Fault
  | list => .expectedListEnd
  | object => .expectedObjectEnd

end Bracket

/-- Passes over the digits, fraction and exponent of a number behind its sign. -/
def skipUnsigned (cur : Cursor) : Except Failure Cursor :=
  match cur.rest with
  | [] => cur.failHere .invalidNumber
  | c :: _ =>
    if !c.isDigit then cur.failNext .invalidNumber
    else
      let cur := cur.advance
      if c = '0' ∧ cur.atDigit then cur.failNext .invalidNumber
      else
        let cur := cur.skipDigits
        match cur.rest with
        | '.' :: _ =>
          let cur := cur.advance
          if !cur.atDigit then cur.failNext .invalidNumber
          else skipExponent cur.skipDigits
        | _ => skipExponent cur
where
  /-- Passes over an exponent, if there is one. -/
  skipExponent (cur : Cursor) : Except Failure Cursor :=
    if !cur.atExponent then .ok cur
    else
      let cur := cur.advance
      let cur := match cur.rest with
        | '+' :: _ | '-' :: _ => cur.advance
        | _ => cur
      if cur.atDigit then .ok cur.skipDigits else cur.failNext .invalidNumber

/-- Passes over a string behind its opening quote.  Escapes by code units need four digits, but
surrogates need no partner. -/
def skipStringFrom : Nat → Cursor → Except Failure Cursor
  | 0, cur => cur.failHere .unfinishedString
  | fuel + 1, cur =>
    match cur.rest with
    | [] => cur.failHere .unfinishedString
    | c :: _ =>
      if c = '"' then .ok cur.advance
      else if c = '\\' then
        let cur := cur.advance
        match cur.rest with
        | [] => cur.failHere .unfinishedString
        | d :: _ =>
          if (shortEscape? d).isSome then skipStringFrom fuel cur.advance
          else if d = 'u' then
            match readHex cur.advance with
            | .error e => .error e
            | .ok (_, cur) => skipStringFrom fuel cur
          else cur.failNext .invalidEscape
      else if c < ' ' then cur.failHere .controlCharacter
      else skipStringFrom fuel cur.advance

@[inherit_doc skipStringFrom]
def skipString (cur : Cursor) : Except Failure Cursor := skipStringFrom (cur.size + 1) cur

/-- Passes over the key of a member and its colon. -/
def skipKey (cur : Cursor) : Except Failure Cursor := do
  let cur := cur.skipBlanks
  match cur.rest with
  | [] => cur.failNext .unfinishedObject
  | c :: _ =>
    if c ≠ '"' then cur.failNext .keyNotString
    else
      let cur ← skipString cur.advance
      let cur := cur.skipBlanks
      match cur.rest with
      | [] => cur.failNext .unfinishedObject
      | c :: _ => if c = ':' then return cur.advance else cur.failNext .expectedColon

/-- Gets ready for the next value inside the innermost bracket. -/
def skipToValue (bracket : Bracket) (cur : Cursor) : Except Failure Cursor :=
  match bracket with
  | .list => .ok cur
  | .object => skipKey cur

/-- Goes on behind a value: closes brackets, and gets ready for the next value if there is one.
Gives the brackets that are still open. -/
def skipBehind : List Bracket → Cursor → Except Failure (List Bracket × Cursor)
  | [], cur => .ok ([], cur)
  | bracket :: outer, cur =>
    let cur := cur.skipBlanks
    match cur.rest with
    | [] => cur.failNext bracket.unfinished
    | c :: _ =>
      if c = ',' then (skipToValue bracket cur.advance).map fun cur => (bracket :: outer, cur)
      else if c = bracket.closing then skipBehind outer cur.advance
      else cur.failNext bracket.expectedEnd

/-- Goes on behind an opening bracket. -/
def skipInto (bracket : Bracket) (outer : List Bracket) (cur : Cursor) :
    Except Failure (List Bracket × Cursor) :=
  let cur := cur.skipBlanks
  match cur.rest with
  | [] => cur.failNext bracket.unfinished
  | c :: _ =>
    if c = bracket.closing then skipBehind outer cur.advance
    else (skipToValue bracket cur).map fun cur => (bracket :: outer, cur)

/-- Passes over the beginning of a value: all of it, or its opening bracket. -/
def skipOne (opened : List Bracket) (cur : Cursor) : Except Failure (List Bracket × Cursor) := do
  let cur := cur.skipBlanks
  match cur.rest with
  | [] => cur.failNext .unfinishedValue
  | c :: _ =>
    match c with
    | 'n' => skipBehind opened (← readWord ['u', 'l', 'l'] cur.advance)
    | 't' => skipBehind opened (← readWord ['r', 'u', 'e'] cur.advance)
    | 'f' => skipBehind opened (← readWord ['a', 'l', 's', 'e'] cur.advance)
    | '-' => skipBehind opened (← skipUnsigned cur.advance)
    | '"' => skipBehind opened (← skipString cur.advance)
    | '[' => skipInto .list opened cur.advance
    | '\x7b' => skipInto .object opened cur.advance
    | _ =>
      if c.isDigit then skipBehind opened (← skipUnsigned cur)
      else cur.failNext .expectedValue

/-- Passes over values until no bracket is open any more, at most `fuel` of them. -/
def skipUntilClosed : Nat → List Bracket → Cursor → Except Failure Cursor
  | 0, _, cur => cur.failNext .unfinishedValue
  | fuel + 1, opened, cur =>
    match skipOne opened cur with
    | .error e => .error e
    | .ok ([], cur) => .ok cur
    | .ok (opened, cur) => skipUntilClosed fuel opened cur

/-- Passes over one value. -/
def skipValue (cur : Cursor) : Except Failure Cursor :=
  skipUntilClosed (cur.size + 1) [] cur

end SpikeWatch.Json
