import SpikeWatch.Proofs.Decimal.Digits
import SpikeWatch.Proofs.Json.Range
import SpikeWatch.Proofs.Json.Values

/-!
# What is written

Everything that is written is a text of the grammar: `Tree.ofText`, `Tree.ofNat`, `Tree.ofList` and
`Tree.ofMembers` are the trees of what `writeText`, `writeNat`, `writeList` and `writeObject` write.
So whatever is known about reading texts of the grammar holds of it.

* Strings come back character by character, whatever the characters are (`spelled?_pieces`), and
  counts come back as long as they fit sixty-four bits (`NumberText.numeral?_ofNat`).
* No control character is ever written, so a line stays one line (`Legible`).
* `Reads.readText`, `Reads.readSize` and `Reads.readList` say the same of the readers of a given
  type.
-/

set_option autoImplicit false

namespace SpikeWatch.Json

/-- A member as it is written. -/
def writeMember (m : String × List Char) : List Char := writeText m.1 ++ ':' :: m.2

theorem writeObject_eq (members : List (String × List Char)) :
    writeObject members = '\x7b' :: writeSeparated (members.map writeMember) ++ ['\x7d'] :=
  rfl

/-! ## Strings -/

namespace Grammar

/-- The escape of a control character is read back from its two digits. -/
theorem ofHex?_digitChar {n : Nat} (h : n < 32) :
    Text.ofHex? ['0', '0', Nat.digitChar (n / 16), Nat.digitChar (n % 16)] = some n := by
  have hall : ∀ n < 32,
      Text.ofHex? ['0', '0', Nat.digitChar (n / 16), Nat.digitChar (n % 16)] = some n := by
    decide
  exact hall n h

/-- Control characters are those below the blank. -/
theorem lt_space_iff {c : Char} : c < ' ' ↔ c.toNat < 32 := Iff.rfl

/-- The piece that is written for a character. -/
def Piece.ofChar (c : Char) : Piece :=
  if hquote : c = '"' then .short '"' (by decide)
  else if hslash : c = '\\' then .short '\\' (by decide)
  else if c = '\x08' then .short 'b' (by decide)
  else if c = '\t' then .short 't' (by decide)
  else if c = '\n' then .short 'n' (by decide)
  else if c = '\x0c' then .short 'f' (by decide)
  else if c = '\r' then .short 'r' (by decide)
  else if hcontrol : c < ' ' then
    .unit ['0', '0', Nat.digitChar (c.toNat / 16), Nat.digitChar (c.toNat % 16)] c.toNat
      ⟨rfl, ofHex?_digitChar (lt_space_iff.1 hcontrol)⟩
  else .plain c ⟨hcontrol, hquote, hslash⟩

/-- The pieces that are written for a string. -/
def pieces (s : String) : List Piece := s.toList.map Piece.ofChar

/-- A piece is what is written for its character. -/
theorem Piece.chars_ofChar (c : Char) : (ofChar c).chars = writeChar c := by
  rw [ofChar, writeChar]
  split_ifs <;> rfl

/-- A written string is a run of pieces in quotes. -/
theorem quoted_pieces (s : String) : quoted (pieces s) = writeText s := by
  rw [quoted, pieces, writeText, List.flatMap_map]
  simp only [Piece.chars_ofChar]

/-- A piece spells its character, and the rest goes on after it. -/
theorem spelled?_ofChar_cons (c : Char) (rest : List Piece) :
    spelled? (Piece.ofChar c :: rest) = (spelled? rest).map (c :: ·) := by
  rw [Piece.ofChar]
  split_ifs with hquote hslash hback htab hfeed hform hreturn hcontrol
  case pos => rw [hquote]; rfl
  case pos => rw [hslash]; rfl
  case pos => rw [hback]; rfl
  case pos => rw [htab]; rfl
  case pos => rw [hfeed]; rfl
  case pos => rw [hform]; rfl
  case pos => rw [hreturn]; rfl
  case pos =>
    have hc := lt_space_iff.1 hcontrol
    have htrail : ¬ IsTrail c.toNat := by simp only [IsTrail]; omega
    have hlead : ¬ IsLead c.toNat := by simp only [IsLead]; omega
    rw [spelled?.eq_def]
    simp only [if_neg htrail, if_neg hlead, Char.ofNat_toNat]
  case neg => rfl

/-- **Strings come back.** -/
theorem spelled?_pieces (s : String) : spelled? (pieces s) = some s.toList := by
  rw [pieces]
  induction s.toList with
  | nil => rfl
  | cons c cs ih => rw [List.map_cons, spelled?_ofChar_cons, ih, Option.map_some]

/-! ## Counts -/

/-- The digits of a number. -/
def Digits.ofNat (n : Nat) : Digits :=
  ⟨Decimal.digits n, Decimal.digits_ne_nil n, Decimal.all_isDigit_digits n⟩

/-- A number that is written with its digits alone. -/
def NumberText.ofNat (n : Nat) : NumberText where
  negative := false
  whole := .ofNat n
  leading := Decimal.length_digits_of_head?
  fraction := none
  exponent := none

/-- A written count is a number of the grammar. -/
theorem NumberText.chars_ofNat (n : Nat) : (ofNat n).chars = writeNat n := by
  change (Decimal.digits n ++ []) ++ [] = Decimal.digits n
  rw [List.append_nil, List.append_nil]

/-- Digits are collected behind others if all of them together stay within the limit. -/
theorem Digits.collect_eq {limit : Nat} (ds : Digits) {n : Nat}
    (h : Nat.ofDigitChars 10 ds.chars n ≤ limit) :
    ds.value limit n = Nat.ofDigitChars 10 ds.chars n ∧
      ds.taken limit n = ds.chars.length := by
  rcases collectDigits_or limit ds.isDigit n 0 with hall | ⟨-, hlimit⟩
  · rw [Decimal.foldl_digitValue_eq, Nat.zero_add] at hall
    exact ⟨congrArg Prod.fst hall, congrArg Prod.snd hall⟩
  · rw [Decimal.foldl_digitValue_eq] at hlimit
    exact absurd h (Nat.not_le.2 hlimit)

/-- The digits of a count make up the count, and none of them is too many. -/
theorem Digits.collect_ofNat {limit n : Nat} (h : n ≤ limit) :
    (ofNat n).value limit 0 = n ∧
      (ofNat n).taken limit 0 = (ofNat n).chars.length := by
  have hn : Nat.ofDigitChars 10 (ofNat n).chars 0 = n := Nat.ofDigitChars_ten_toDigits
  have hcollect := (ofNat n).collect_eq (hn.le.trans h)
  rwa [hn] at hcollect

/-- **Counts come back** as long as they fit sixty-four bits. -/
theorem NumberText.numeral?_ofNat {n : Nat} (h : n ≤ maxSignificand) :
    (ofNat n).numeral? = some (.whole n) := by
  obtain ⟨hvalue, htaken⟩ := Digits.collect_ofNat h
  have hdropped : (ofNat n).whole.chars.length - (ofNat n).whole.taken maxSignificand 0 = 0 :=
    Nat.sub_eq_zero_of_le htaken.ge
  exact (if_pos ⟨rfl, hdropped⟩).trans (congrArg (fun n => some (ofInteger false n)) hvalue)

/-! ## Trees -/

namespace Tree

/-- The tree of a written string. -/
def ofText (s : String) : Tree := .scalar (.text (pieces s))

/-- The tree of a written count. -/
def ofNat (n : Nat) : Tree := .scalar (.number (.ofNat n))

/-- A list without blanks. -/
def ofList (ts : List Tree) : Tree := .list .none (ts.map fun t => ⟨.none, t, .none⟩)

/-- A member without blanks. -/
def member (m : String × Tree) : Member Tree :=
  ⟨.none, pieces m.1, .none, ⟨.none, m.2, .none⟩⟩

/-- An object without blanks. -/
def ofMembers (members : List (String × Tree)) : Tree := .object .none (members.map member)

theorem chars_ofText (s : String) : (ofText s).chars = writeText s := quoted_pieces s

theorem chars_ofNat (n : Nat) : (ofNat n).chars = writeNat n := NumberText.chars_ofNat n

/-- A written list is the text of the trees of its items. -/
theorem chars_ofList (ts : List Tree) : (ofList ts).chars = writeList (ts.map chars) := by
  rw [ofList, chars, charsOfItems_eq, writeList, List.map_map]
  have hitem : (Padded.chars chars ∘ fun t => ⟨.none, t, .none⟩) = chars := by
    funext t
    simp [Padded.chars, Blanks.none]
  rw [hitem]
  rfl

/-- A written object is the text of the trees of its members. -/
theorem chars_ofMembers (members : List (String × Tree)) :
    (ofMembers members).chars = writeObject (members.map fun m => (m.1, m.2.chars)) := by
  rw [ofMembers, chars, charsOfMembers_eq, writeObject_eq, List.map_map, List.map_map]
  have hmember : Member.chars chars ∘ member = writeMember ∘ fun m => (m.1, m.2.chars) := by
    funext m
    simp [member, Member.chars, Padded.chars, Blanks.none, quoted_pieces, writeMember]
  rw [hmember]
  rfl

end Tree

end Grammar

/-! ## One line stays one line -/

/-- No control character, and so no line break, is among some characters. -/
def Legible (cs : List Char) : Prop := ∀ c ∈ cs, ¬ c < ' '

theorem Legible.append {as bs : List Char} (ha : Legible as) (hb : Legible bs) :
    Legible (as ++ bs) := fun c hc => (List.mem_append.1 hc).elim (ha c) (hb c)

theorem Legible.cons {c : Char} {cs : List Char} (hc : ¬ c < ' ') (hcs : Legible cs) :
    Legible (c :: cs) := List.forall_mem_cons.2 ⟨hc, hcs⟩

theorem legible_nil : Legible [] := List.forall_mem_nil _

theorem legible_digits (n : Nat) : Legible (Decimal.digits n) := by
  intro c hc hlow
  have hdigit := (Char.isDigit_iff_toNat.1 (Decimal.isDigit_of_mem_digits hc)).1
  have hc := Grammar.lt_space_iff.1 hlow
  have : '0'.toNat = 48 := rfl
  omega

theorem legible_digitChar {n : Nat} (h : n < 16) : Legible [Nat.digitChar n] := by
  intro c hc
  obtain rfl := List.mem_singleton.1 hc
  interval_cases n <;> decide

theorem legible_escape {mark : Char} (h : ¬ mark < ' ') : Legible ['\\', mark] :=
  .cons (by decide) (.cons h legible_nil)

/-- **No character is written as a control character**: those are escaped, and the escapes consist
of others. -/
theorem legible_writeChar (c : Char) : Legible (writeChar c) := by
  rw [writeChar]
  split_ifs with _ _ _ _ _ _ _ hcontrol
  case pos => exact legible_escape (by decide)
  case pos => exact legible_escape (by decide)
  case pos => exact legible_escape (by decide)
  case pos => exact legible_escape (by decide)
  case pos => exact legible_escape (by decide)
  case pos => exact legible_escape (by decide)
  case pos => exact legible_escape (by decide)
  case pos =>
    have hc := Grammar.lt_space_iff.1 hcontrol
    have hhigh := legible_digitChar (n := c.toNat / 16) (by omega)
    have hlow := legible_digitChar (n := c.toNat % 16) (by omega)
    exact .cons (by decide) (.cons (by decide) (.cons (by decide) (.cons (by decide)
      (hhigh.append hlow))))
  case neg => exact .cons hcontrol legible_nil

/-- So a string is legible, whatever is in it. -/
theorem legible_writeText (s : String) : Legible (writeText s) := by
  refine .cons (by decide) (.append (fun c hc => ?_) (.cons (by decide) legible_nil))
  obtain ⟨d, -, hd⟩ := List.mem_flatMap.1 hc
  exact legible_writeChar d c hd

theorem legible_writeSeparated {items : List (List Char)} (h : ∀ item ∈ items, Legible item) :
    Legible (writeSeparated items) := by
  cases items with
  | nil => exact legible_nil
  | cons item items =>
    obtain ⟨hitem, hitems⟩ := List.forall_mem_cons.1 h
    rw [writeSeparated_cons]
    refine hitem.append fun c hc => ?_
    obtain ⟨next, hnext, hmem⟩ := List.mem_flatMap.1 hc
    exact (Legible.cons (by decide) (hitems next hnext)) c hmem

theorem legible_writeList {items : List (List Char)} (h : ∀ item ∈ items, Legible item) :
    Legible (writeList items) :=
  .cons (by decide) (.append (legible_writeSeparated h) (.cons (by decide) legible_nil))

/-- An object is legible if its members are. -/
theorem legible_writeObject {members : List (String × List Char)}
    (h : ∀ m ∈ members, Legible m.2) : Legible (writeObject members) := by
  refine .cons (by decide) (.append (legible_writeSeparated fun item hitem => ?_)
    (.cons (by decide) legible_nil))
  obtain ⟨m, hm, rfl⟩ := List.mem_map.1 hitem
  exact (legible_writeText m.1).append (.cons (by decide) (h m hm))

/-! ## Reading what was written -/

open Grammar

variable {α β : Type}

/-- What is made of a value that is read back. -/
theorem Reads.map {read : Cursor → Result α} {text : List Char} {a : α}
    (h : Reads read text (some a)) (f : α → β) :
    Reads (fun cur => (read cur).map fun (a, cur) => (f a, cur)) text (some (f a)) := by
  intro cur before more hrest hmore
  obtain ⟨behind, hread, hbehind⟩ := (h cur before more hrest hmore).eq_ok
  change Yields (Except.map _ (read cur)) _ _
  rw [hread]
  exact ⟨rfl, hbehind⟩

/-- **Strings are read back.** -/
theorem Reads.readText (s : String) : Reads Json.readText (writeText s) (some s) := by
  intro cur before more h _
  have h' : cur.rest = before.chars ++ '"' :: ((pieces s).flatMap Piece.chars ++ '"' :: more) := by
    simpa [← quoted_pieces, quoted] using h
  have hrest := Cursor.rest_skipBlanks before h' (stops_cons rfl)
  have hstring := yields_readString (pieces s) (Cursor.rest_advance hrest)
  rw [spelled?_pieces, Option.map_some, String.ofList_toList] at hstring
  simpa only [Json.readText, hrest] using hstring

/-- A number of the grammar, read as one of a given kind. -/
theorem Reads.readNumeral {wanted : Wanted} {convert : Numeral → Except Mismatch α}
    (t : NumberText) {n : Numeral} {a : α} (hvalue : t.numeral? = some n)
    (hconvert : convert n = .ok a) :
    Reads (Json.readNumeral wanted convert) t.chars (some a) := by
  intro cur before more h hmore
  obtain ⟨c, rest, hchars, hc⟩ := t.exists_eq_cons
  have hstops : Stops Cursor.isBlank (t.chars ++ more) := by
    rw [hchars]
    exact stops_cons (isBlank_eq_false hc)
  have hrest := Cursor.rest_skipBlanks before h hstops
  have hcons : cur.skipBlanks.rest = c :: (rest ++ more) := by rw [hrest, hchars]; rfl
  have hnumber := yields_readNumber t hrest hmore
  rw [hvalue] at hnumber
  obtain ⟨behind, hread, hbehind⟩ := hnumber.eq_ok
  simp only [Json.readNumeral, hcons, if_pos hc, hread, bind, Except.bind, hconvert]
  exact ⟨rfl, hbehind⟩

/-- **Counts are read back**, if they have room where counts are read. -/
theorem Reads.readSize {n : Nat} (h : n ≤ maxSignificand) :
    Reads Json.readSize (writeNat n) (some n) :=
  NumberText.chars_ofNat n ▸ Reads.readNumeral (.ofNat n) (NumberText.numeral?_ofNat h) rfl

/-- Lists are read back if their items are.  An item that cannot be read makes the list fail as
well. -/
theorem Reads.readList {τ : Type} {depth : Nat} {read : Nat → Cursor → Result α}
    {write : τ → List Char} {meaning? : τ → Option α} (items : List τ)
    (hread : ∀ item ∈ items, Reads (read depth) (write item) (meaning? item))
    (hbegins : ∀ item ∈ items, Begins (write item)) :
    Reads (Json.readList (depth + 1) read) (writeList (items.map write))
      (items.mapM meaning?) := by
  intro cur before more h _
  -- Lists are written without blanks, which is one of the ways in which the grammar has them.
  let padded : List (Padded τ) := items.map fun item => ⟨.none, item, .none⟩
  have hchars : padded.map (Padded.chars write) = items.map write := by
    rw [List.map_map]
    refine List.map_congr_left fun item _ => ?_
    simp [Padded.chars, Blanks.none]
  have h' : cur.rest = before.chars ++ '[' :: (Blanks.none.chars ++
      (writeSeparated (padded.map (Padded.chars write)) ++ ']' :: more)) := by
    rw [hchars]
    simpa [writeList, Blanks.none] using h
  have hrest := Cursor.rest_skipBlanks before h' (stops_cons rfl)
  have hbody {P : τ → Prop} (hP : ∀ item ∈ items, P item) : ∀ item ∈ padded, P item.body := by
    intro item hitem
    obtain ⟨item, hmem, rfl⟩ := List.mem_map.1 hitem
    exact hP item hmem
  have hitems := yields_readItems .none padded (hbody hread) (hbody hbegins)
    (Cursor.rest_advance hrest)
  rw [List.mapM_map] at hitems
  simpa only [Json.readList, hrest, Function.comp_def] using hitems

/-! ## Whole texts -/

/-- Nothing but blanks may stand behind a value. -/
theorem finish_eq {cur : Cursor} (after : Blanks) (h : cur.rest = after.chars) :
    cur.finish = .ok () := by
  have hrest := Cursor.rest_skipBlanks after (h.trans (List.append_nil _).symm) stops_nil
  simp only [Cursor.finish, hrest, List.isEmpty_nil, if_true]

/-- The value of a text is that of its tree. -/
theorem Value.ofText_eq {t : Tree} {v : Value} (h : t.value? maxDepth = some v) :
    Value.ofText (String.ofList t.chars) = .ok v := by
  have hrest : (Cursor.ofText (String.ofList t.chars)).rest =
      Blanks.none.chars ++ (t.chars ++ []) :=
    String.toList_ofList.trans (List.append_nil _).symm
  have hread := yields_readValue t maxDepth _ .none [] hrest stops_nil
  rw [h] at hread
  obtain ⟨behind, hread, hbehind⟩ := hread.eq_ok
  simp only [Value.ofText, hread, bind, Except.bind, finish_eq .none hbehind]
  rfl

end SpikeWatch.Json
