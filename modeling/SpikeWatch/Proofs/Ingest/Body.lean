import SpikeWatch.Proofs.Json.Range
import SpikeWatch.Proofs.Json.Records
import SpikeWatch.Proofs.Pipeline.Batch

/-!
# Bodies of requests

A body is read as a whole before any of its events is looked at.  So an event that is merely wrong
is rejected by itself, but an event that has no value as JSON takes the whole batch with it.

* `Body` is a body in the grammar: an object with a list under `events` and nothing else.
* `toOption_eventsOfText` says what is read of it, and `Pipeline.dispatchText_body` when it is
  answered for: just if it is `Body.Readable`.
* Most bodies show at sight which of the two they are.  One in which all is `Ordinary` is readable
  (`Body.readable_of_ordinary`), and one with an `Excessive` number is not
  (`Body.not_readable_of_excessive`).
-/

set_option autoImplicit false

namespace SpikeWatch

open Json Json.Grammar

/-! ## Bodies -/

/-- A body with nothing but raw events in it: an object with a list under `events`, in which texts
of any shape may stand. -/
structure Body where
  before : Blanks
  beforeKey : Blanks
  key : List Piece
  key_eq : spelled? key = some "events".toList
  behindKey : Blanks
  behindColon : Blanks
  within : Blanks
  items : List (Padded Tree)
  behindList : Blanks
  after : Blanks

namespace Body

/-- The only member of a body: its events. -/
def member (body : Body) : Member Tree :=
  ⟨body.beforeKey, body.key, body.behindKey,
    ⟨body.behindColon, .list body.within body.items, body.behindList⟩⟩

/-- The characters of a body. -/
def chars (body : Body) : List Char :=
  Padded.chars Tree.chars ⟨body.before, .object .none [body.member], body.after⟩

/-- The body as it comes in. -/
def text (body : Body) : String := String.ofList body.chars

/-- A body without blanks, and without escapes in its key. -/
def ofItems (items : List (Padded Tree)) : Body where
  before := .none
  beforeKey := .none
  key := [.plain 'e' (by decide), .plain 'v' (by decide), .plain 'e' (by decide),
    .plain 'n' (by decide), .plain 't' (by decide), .plain 's' (by decide)]
  key_eq := by decide
  behindKey := .none
  behindColon := .none
  within := .none
  items
  behindList := .none
  after := .none

/-- A body with one event, which is a power of ten in short. -/
def ofPower (exponent : Digits) : Body := .ofItems [⟨.none, .scalar <| .number {
  negative := false
  whole := ⟨['1'], by decide, rfl⟩
  leading := by decide
  fraction := none
  exponent := some ⟨false, none, exponent⟩ }, .none⟩]

/-- All raw events have a value: their brackets nest within the limit, two levels of which the body
takes itself, and their words, numbers and strings, keys included, have one. -/
def Readable (body : Body) : Prop :=
  ∀ item ∈ body.items,
    item.body.nesting ≤ maxDepth - 2 ∧ ∀ s ∈ item.body.scalars, s.HasValue

end Body

theorem Batch.find?_events :
    ∃ field, Batch.record.fields.find? (·.name = "events") = some field ∧
      field.isSet {} = false ∧ ∀ depth draft cur, field.read depth draft cur =
        (readList depth readValue cur).map fun (events, cur) =>
          ({ draft with events := some events }, cur) :=
  ⟨_, rfl, rfl, fun _ _ _ => rfl⟩

/-- The parts of a body in their order, as a reader comes upon them. -/
theorem Body.rest_ofText (body : Body) : (Cursor.ofText body.text).rest =
    body.before.chars ++ '\x7b' :: (body.beforeKey.chars ++ (quoted body.key ++
      (body.behindKey.chars ++ ':' :: (body.behindColon.chars ++
        ((Tree.list body.within body.items).chars ++
          (body.behindList.chars ++ '\x7d' :: body.after.chars)))))) := by
  change body.text.toList = _
  rw [Body.text, String.toList_ofList]
  simp [Body.chars, Body.member, Padded.chars, Member.chars, Tree.chars, Tree.charsOfMembers_eq,
    writeSeparated, Blanks.none]

/-- A body has a bracket in it at least, so a reader may take steps. -/
theorem Body.exists_size_eq (body : Body) :
    ∃ fuel, (Cursor.ofText body.text).size = fuel + 1 := by
  refine Nat.exists_eq_add_one_of_ne_zero fun hzero => ?_
  have hlength := (Cursor.ofText body.text).length_le
  rw [hzero, body.rest_ofText] at hlength
  simp at hlength

/-- A body is read as the list of its events. -/
theorem yields_read_body (body : Body) :
    Yields (Batch.record.read maxDepth {} (Cursor.ofText body.text))
      ((Tree.values? (maxDepth - 2) body.items).map fun events =>
        ({ events := some events } : Batch)) body.after.chars := by
  -- From here on the text is gone through from its front: bracket, key, colon, list, bracket.
  have hopen := Cursor.rest_skipBlanks body.before body.rest_ofText (stops_cons rfl)
  obtain ⟨front, hnext, hfront⟩ := nextKey_first body.beforeKey (Cursor.rest_advance hopen)
  have hkey := yields_readString body.key hfront
  rw [body.key_eq, Option.map_some, String.ofList_toList] at hkey
  obtain ⟨behindKey, hkey, hrest⟩ := hkey.eq_ok
  obtain ⟨behindColon, hcolon, hrest⟩ := readColon_eq body.behindKey hrest
  obtain ⟨field, hfield, hset, hread⟩ := Batch.find?_events
  have hlist := yields_readList (maxDepth - 2) body.behindColon body.within body.items hrest
  have hmember : (readColon behindKey >>= field.read (maxDepth - 1) {}) =
      (readList (maxDepth - 2 + 1) readValue behindColon).map fun (events, cur) =>
        ({ events := some events }, cur) := by
    rw [hcolon]
    exact hread ..
  change Yields (Batch.record.read (maxDepth - 1 + 1) {} (Cursor.ofText body.text)) _ _
  rw [Record.read_object Batch.record hopen,
    Record.readMembers_field Batch.record hnext hkey hfield hset, hmember]
  cases hvalues : Tree.values? (maxDepth - 2) body.items with
  | none =>
    rw [hvalues] at hlist
    obtain ⟨failure, hlist⟩ := hlist.eq_error
    rw [hlist]
    rfl
  | some events =>
    rw [hvalues] at hlist
    obtain ⟨behind, hlist, hrest⟩ := hlist.eq_ok
    obtain ⟨front, hnext, hrest⟩ := nextKey_closed false body.behindList hrest
    obtain ⟨after, hclose, hrest⟩ := Record.closeObject_eq hrest
    obtain ⟨fuel, hfuel⟩ := body.exists_size_eq
    rw [hlist, hfuel]
    change Yields (Record.close _ (Batch.record.readMembers _ _ _ _ behind)) _ _
    rw [Record.readMembers_closed Batch.record hnext rfl]
    simp only [Record.close, hclose]
    exact ⟨rfl, hrest⟩

/-- **What is read of a body.**  Two of the levels of brackets are those of the body itself. -/
theorem toOption_eventsOfText (body : Body) :
    (Batch.eventsOfText body.text).toOption = Tree.values? (maxDepth - 2) body.items := by
  have hread := yields_read_body body
  rw [Batch.eventsOfText, Record.ofText]
  cases hvalues : Tree.values? (maxDepth - 2) body.items with
  | none =>
    rw [hvalues] at hread
    obtain ⟨failure, hread⟩ := hread.eq_error
    rw [hread]
    rfl
  | some events =>
    rw [hvalues] at hread
    obtain ⟨behind, hread, hrest⟩ := hread.eq_ok
    simp only [hread, bind, Except.bind, finish_eq body.after hrest]
    rfl

/-- A body is readable just if all its events have values. -/
theorem Body.isSome_values?_iff (body : Body) :
    (Tree.values? (maxDepth - 2) body.items).isSome = true ↔ body.Readable :=
  Tree.isSome_values?_iff.trans <| forall₂_congr fun item _ => item.body.isSome_value?_iff

/-! ## What can be told at sight -/

/-- A word, a number below `10 ^ 307`, or a string without escapes for halves of pairs. -/
def Json.Grammar.ScalarText.Ordinary : ScalarText → Prop
  | .null | .bool _ => True
  | .number n => n.whole.chars.length + n.power ≤ 307
  | .text pieces =>
    ∀ digits n hdigits, .unit digits n hdigits ∈ pieces → ¬ IsLead n ∧ ¬ IsTrail n

theorem Json.Grammar.ScalarText.Ordinary.hasValue {s : ScalarText} (h : s.Ordinary) :
    s.HasValue := by
  cases s with
  | null => rfl
  | bool b => rfl
  | number n => exact Option.isSome_map.trans (n.isSome_numeral?_of_le h)
  | text pieces => exact hasValue_text_iff.2 (isSome_spelled?_of_forall h)

/-- A number from `10 ^ 309` on. -/
def Json.Grammar.ScalarText.Excessive : ScalarText → Prop
  | .number n =>
    n.whole.chars.head? ≠ some '0' ∧ 0 ≤ n.power ∧ 310 ≤ n.whole.chars.length + n.power
  | _ => False

theorem Json.Grammar.ScalarText.Excessive.not_hasValue {s : ScalarText} (h : s.Excessive) :
    ¬ s.HasValue := by
  cases s with
  | number n =>
    obtain ⟨hzero, hpower, hlarge⟩ := h
    rw [HasValue, value?, n.numeral?_eq_none_of_ge hzero hpower hlarge]
    exact Bool.false_ne_true
  | _ => exact h.elim

/-- Nothing in a body is out of the way: neither its brackets nor its words, numbers and strings. -/
def Body.Ordinary (body : Body) : Prop :=
  ∀ item ∈ body.items, item.body.nesting ≤ 125 ∧ ∀ s ∈ item.body.scalars, s.Ordinary

/-- There is a number in a body that is too large. -/
def Body.Excessive (body : Body) : Prop :=
  ∃ item ∈ body.items, ∃ s ∈ item.body.scalars, s.Excessive

/-- **Ordinary numbers are not in the way**: the texts of all scalars tell that the body is
readable. -/
theorem Body.readable_of_ordinary {body : Body} (h : body.Ordinary) : body.Readable :=
  fun item hitem => ⟨(h item hitem).1, fun s hs => ((h item hitem).2 s hs).hasValue⟩

/-- **Excessive numbers are in the way**, wherever they stand in a body. -/
theorem Body.not_readable_of_excessive {body : Body} (h : body.Excessive) : ¬ body.Readable := by
  intro hreadable
  obtain ⟨item, hitem, s, hs, hexcessive⟩ := h
  exact hexcessive.not_hasValue ((hreadable item hitem).2 s hs)

namespace Pipeline

/-- **When a batch is answered for.**  If all its events have a value as JSON, whatever that is,
each of them is accepted or rejected, and that is so for all that is ordinary.  If any has none, the
whole body is refused, and that is so for a number that is too large. -/
theorem dispatchText_body (p : Pipeline) (body : Body) :
    (body.Readable ↔ ∃ q response, p.dispatchText body.text = .ok (q, response) ∧
      response.accepted + response.rejected = body.items.length) ∧
    (¬ body.Readable ↔ ∃ failure, p.dispatchText body.text = .error failure) ∧
    (body.Ordinary → body.Readable) ∧ (body.Excessive → ¬ body.Readable) := by
  rw [← and_assoc]
  refine ⟨?_, body.readable_of_ordinary, body.not_readable_of_excessive⟩
  have hread := toOption_eventsOfText body
  rw [← body.isSome_values?_iff, ← hread, dispatchText]
  cases hevents : Batch.eventsOfText body.text with
  | error failure => simp [Except.toOption, Except.map]
  | ok events =>
    rw [hevents] at hread
    have hlength : events.length = body.items.length :=
      Tree.length_eq_of_values?_eq_some hread.symm
    refine ⟨iff_of_true rfl ⟨_, _, rfl, ?_⟩, ?_⟩
    · exact (p.dispatch_total events).trans hlength
    · simp [Except.toOption, Except.map]

/-- The first body is answered for since it is ordinary, and the second one is refused since its
number is too large. -/
theorem dispatchText_body_powers :
    let small := Body.ofPower ⟨['9'], by decide, rfl⟩
    let large := Body.ofPower ⟨['9', '9', '9'], by decide, rfl⟩
    let p : Pipeline := { now := .epoch }
    small.Ordinary ∧ large.Excessive ∧
      (∃ q response, p.dispatchText small.text = .ok (q, response) ∧
        response.accepted + response.rejected = 1) ∧
      ∃ failure, p.dispatchText large.text = .error failure := by
  intro small large p
  have hsmall : small.Ordinary := by
    intro item hitem
    obtain rfl := List.mem_singleton.1 hitem
    refine ⟨by decide, fun s hs => ?_⟩
    obtain rfl := List.mem_singleton.1 hs
    change (1 : Int) + 9 ≤ 307
    decide
  have hlarge : large.Excessive := by
    refine ⟨_, List.mem_singleton_self _, _, List.mem_singleton_self _, ?_⟩
    exact ⟨by decide, by decide, by decide⟩
  obtain ⟨hanswered, -, hordinary, -⟩ := dispatchText_body p small
  obtain ⟨-, hrefused, -, hexcessive⟩ := dispatchText_body p large
  exact ⟨hsmall, hlarge, hanswered.1 (hordinary hsmall), hrefused.1 (hexcessive hlarge)⟩

/-- A number that is no event is rejected by itself, but one that is too large is refused with all
that stands beside it. -/
theorem refuses_too_large :
    let small := Body.ofPower ⟨['9'], by decide, rfl⟩
    let large := Body.ofPower ⟨['9', '9', '9'], by decide, rfl⟩
    let p : Pipeline := { now := { nanos := 0 } }
    (small.text = "\x7b\"events\":[1e9]\x7d" ∧ large.text = "\x7b\"events\":[1e999]\x7d") ∧
      (p.dispatchText small.text).toOption.map Prod.snd =
        some ⟨0, 1, ["event 0: invalid format"]⟩ ∧
      p.dispatchText large.text = .error ⟨.numberOutOfRange, 16⟩ := by
  refine ⟨⟨?_, ?_⟩, ?_, ?_⟩
  · decide +kernel
  · decide +kernel
  · decide +kernel
  · rfl

end Pipeline

end SpikeWatch
