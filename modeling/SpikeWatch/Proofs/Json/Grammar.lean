import SpikeWatch.Json.Scalar
import SpikeWatch.Json.Writing

/-!
# The grammar of JSON texts

What a JSON text is, whatever a reader makes of it: the rules of the grammar as types, each with the
characters it stands for.  A text may be well formed and still be refused, since a number may be too
large, half of a surrogate pair may lack the other, and brackets may nest too deeply.

The blanks are part of the trees, since a reader has to pass them, and since the text of a request
is whatever the client wrote.  Keys are runs of pieces, as strings are: a key may be spelled with
escapes, and it is the same key then.

* `Blanks`, `Digits`, `Exponent`, `NumberText`, `Piece` and `ScalarText` are the texts without
  anything nested in them.
* `Tree` is a text of any shape, with `Padded` for what stands between blanks and `Member` for a
  member of an object.  `Tree.induct` is the induction over all that is nested in a tree.
* `Tree.nesting` and `Tree.scalars` tell what a reader with limits has to ask about.
-/

set_option autoImplicit false

namespace SpikeWatch.Json.Grammar

/-! ## Words, numbers and strings -/

/-- Blanks between the parts of a text. -/
structure Blanks where
  chars : List Char
  isBlank : chars.all Cursor.isBlank

/-- No blanks at all. -/
def Blanks.none : Blanks := ⟨[], rfl⟩

/-- Blanks and further ones behind them. -/
def Blanks.append (a b : Blanks) : Blanks where
  chars := a.chars ++ b.chars
  isBlank := by rw [List.all_append, a.isBlank, b.isBlank]; rfl

/-- A run of decimal digits. -/
structure Digits where
  chars : List Char
  nonempty : chars ≠ []
  isDigit : chars.all Char.isDigit

/-- The power of ten at the end of a number. -/
structure Exponent where
  /-- Its letter is a capital. -/
  capital : Bool
  /-- Its sign, if one is written; true is a minus. -/
  sign : Option Bool
  digits : Digits

/-- A number: no zero stands in front of further digits. -/
structure NumberText where
  negative : Bool
  whole : Digits
  leading : whole.chars.head? = some '0' → whole.chars.length = 1
  fraction : Option Digits
  exponent : Option Exponent

/-- What stands for one character, or for half of one, between the quotes of a string. -/
inductive Piece where
  /-- A character that stands for itself. -/
  | plain (c : Char) (h : ¬ c < ' ' ∧ c ≠ '"' ∧ c ≠ '\\')
  /-- A backslash and a character that stands for another one. -/
  | short (mark : Char) (h : mark ∈ ['"', '\\', '/', 'b', 'f', 'n', 'r', 't'])
  /-- A backslash, a `u` and the four hexadecimal digits of a code unit. -/
  | unit (digits : List Char) (value : Nat)
    (h : digits.length = 4 ∧ Text.ofHex? digits = some value)

/-- A text without brackets. -/
inductive ScalarText where
  | null
  | bool (b : Bool)
  | number (n : NumberText)
  | text (pieces : List Piece)

/-- The characters of an exponent, from its letter on. -/
def Exponent.chars (e : Exponent) : List Char :=
  (if e.capital then 'E' else 'e') ::
    (e.sign.elim [] (fun down => [if down then '-' else '+']) ++ e.digits.chars)

namespace NumberText

variable (n : NumberText)

/-- The characters of the fraction, with its point, if there is one. -/
def fractionChars : List Char := n.fraction.elim [] ('.' :: ·.chars)

/-- The characters of the exponent, if there is one. -/
def exponentChars : List Char := n.exponent.elim [] Exponent.chars

/-- The characters behind the sign. -/
def unsignedChars : List Char := n.whole.chars ++ n.fractionChars ++ n.exponentChars

/-- The characters of a number. -/
def chars : List Char := if n.negative then '-' :: n.unsignedChars else n.unsignedChars

end NumberText

/-- The characters of a piece as they stand in the text. -/
def Piece.chars : Piece → List Char
  | plain c _ => [c]
  | short mark _ => ['\\', mark]
  | unit digits _ _ => '\\' :: 'u' :: digits

theorem Piece.chars_ne_nil (piece : Piece) : piece.chars ≠ [] := by
  cases piece <;> exact List.cons_ne_nil _ _

/-- A string with its quotes. -/
def quoted (pieces : List Piece) : List Char := '"' :: pieces.flatMap Piece.chars ++ ['"']

/-- The characters of a text without brackets. -/
def ScalarText.chars : ScalarText → List Char
  | null => ['n', 'u', 'l', 'l']
  | bool true => ['t', 'r', 'u', 'e']
  | bool false => ['f', 'a', 'l', 's', 'e']
  | number n => n.chars
  | text pieces => quoted pieces

/-! ## Texts of any shape -/

/-- A text between blanks. -/
structure Padded (α : Type) where
  before : Blanks
  body : α
  after : Blanks

/-- A member of an object. -/
structure Member (α : Type) where
  before : Blanks
  key : List Piece
  behindKey : Blanks
  value : Padded α

/-- A text with everything that is nested in it.  The blanks of a list or an object are those behind
its opening bracket. -/
inductive Tree where
  | scalar (s : ScalarText)
  | list (within : Blanks) (items : List (Padded Tree))
  | object (within : Blanks) (members : List (Member Tree))

/-- What holds of a tree if it holds of all that is nested in it holds of all trees. -/
@[elab_as_elim]
theorem Tree.induct {motive : Tree → Prop} (scalar : ∀ s, motive (.scalar s))
    (list : ∀ within items, (∀ item ∈ items, motive item.body) → motive (.list within items))
    (object : ∀ within members, (∀ m ∈ members, motive m.value.body) →
      motive (.object within members)) (t : Tree) : motive t := by
  refine @Tree.rec motive (fun items => ∀ item ∈ items, motive item.body)
    (fun members => ∀ m ∈ members, motive m.value.body) (fun item => motive item.body)
    (fun m => motive m.value.body) scalar list object
    ?noItems ?items ?noMembers ?members ?padded ?member t
  case noItems => exact List.forall_mem_nil _
  case items => exact fun _ _ hitem hitems => List.forall_mem_cons.2 ⟨hitem, hitems⟩
  case noMembers => exact List.forall_mem_nil _
  case members => exact fun _ _ hmember hmembers => List.forall_mem_cons.2 ⟨hmember, hmembers⟩
  case padded => exact fun _ _ _ ht => ht
  case member => exact fun _ _ _ _ hvalue => hvalue

/-- The characters of a text between blanks, from those of the text. -/
def Padded.chars {α : Type} (chars : α → List Char) (p : Padded α) : List Char :=
  p.before.chars ++ chars p.body ++ p.after.chars

/-- The characters of a member, from those of its value. -/
def Member.chars {α : Type} (chars : α → List Char) (m : Member α) : List Char :=
  m.before.chars ++ quoted m.key ++ m.behindKey.chars ++ ':' :: m.value.chars chars

namespace Tree

mutual

/-- The characters of a tree. -/
def chars : Tree → List Char
  | scalar s => s.chars
  | list within items => '[' :: within.chars ++ writeSeparated (charsOfItems items) ++ [']']
  | object within members =>
    '\x7b' :: within.chars ++ writeSeparated (charsOfMembers members) ++ ['\x7d']

/-- The characters of each item, with the blanks around it. -/
def charsOfItems : List (Padded Tree) → List (List Char)
  | [] => []
  | ⟨before, t, after⟩ :: items => (before.chars ++ t.chars ++ after.chars) :: charsOfItems items

/-- The characters of each member, with the blanks around its parts. -/
def charsOfMembers : List (Member Tree) → List (List Char)
  | [] => []
  | ⟨before, key, behindKey, ⟨behindColon, t, after⟩⟩ :: members =>
    (before.chars ++ quoted key ++ behindKey.chars ++
      ':' :: (behindColon.chars ++ t.chars ++ after.chars)) :: charsOfMembers members

end

/-- The recursion over items is a map.  It is only written out so that it goes down with the
tree. -/
theorem charsOfItems_eq (items : List (Padded Tree)) :
    charsOfItems items = items.map (Padded.chars chars) := by
  induction items with
  | nil => rfl
  | cons item items ih => rw [List.map_cons, ← ih, charsOfItems, Padded.chars]

theorem charsOfMembers_eq (members : List (Member Tree)) :
    charsOfMembers members = members.map (Member.chars chars) := by
  induction members with
  | nil => rfl
  | cons m members ih => rw [List.map_cons, ← ih, charsOfMembers, Member.chars, Padded.chars]

mutual

/-- How deeply the brackets of a text nest. -/
def nesting : Tree → Nat
  | scalar _ => 0
  | list _ items => nestingOfItems items + 1
  | object _ members => nestingOfMembers members + 1

/-- The deepest nesting among items. -/
def nestingOfItems : List (Padded Tree) → Nat
  | [] => 0
  | ⟨_, t, _⟩ :: items => max t.nesting (nestingOfItems items)

/-- The deepest nesting among the values of members. -/
def nestingOfMembers : List (Member Tree) → Nat
  | [] => 0
  | ⟨_, _, _, ⟨_, t, _⟩⟩ :: members => max t.nesting (nestingOfMembers members)

end

mutual

/-- The texts without brackets in a text, the keys of members among them. -/
def scalars : Tree → List ScalarText
  | scalar s => [s]
  | list _ items => scalarsOfItems items
  | object _ members => scalarsOfMembers members

/-- The texts without brackets in items. -/
def scalarsOfItems : List (Padded Tree) → List ScalarText
  | [] => []
  | ⟨_, t, _⟩ :: items => t.scalars ++ scalarsOfItems items

/-- The texts without brackets in members, each key in front of what its value holds. -/
def scalarsOfMembers : List (Member Tree) → List ScalarText
  | [] => []
  | ⟨_, key, _, ⟨_, t, _⟩⟩ :: members => .text key :: t.scalars ++ scalarsOfMembers members

end

theorem nestingOfItems_le_iff {items : List (Padded Tree)} {depth : Nat} :
    nestingOfItems items ≤ depth ↔ ∀ item ∈ items, item.body.nesting ≤ depth := by
  induction items with
  | nil => simp [nestingOfItems]
  | cons item items ih => rw [nestingOfItems, Nat.max_le, ih, List.forall_mem_cons]

theorem nestingOfMembers_le_iff {members : List (Member Tree)} {depth : Nat} :
    nestingOfMembers members ≤ depth ↔ ∀ m ∈ members, m.value.body.nesting ≤ depth := by
  induction members with
  | nil => simp [nestingOfMembers]
  | cons m members ih => rw [nestingOfMembers, Nat.max_le, ih, List.forall_mem_cons]

theorem scalarsOfItems_eq (items : List (Padded Tree)) :
    scalarsOfItems items = items.flatMap fun item => item.body.scalars := by
  induction items with
  | nil => rfl
  | cons item items ih => rw [scalarsOfItems, ih, List.flatMap_cons]

theorem scalarsOfMembers_eq (members : List (Member Tree)) :
    scalarsOfMembers members = members.flatMap fun m => .text m.key :: m.value.body.scalars := by
  induction members with
  | nil => rfl
  | cons m members ih => rw [scalarsOfMembers, ih, List.flatMap_cons]

end Tree

end SpikeWatch.Json.Grammar
