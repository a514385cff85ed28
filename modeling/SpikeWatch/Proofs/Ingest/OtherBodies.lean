import SpikeWatch.Pipeline.Step
import SpikeWatch.Proofs.Json.Lists
import SpikeWatch.Proofs.Json.Written

/-!
# Bodies that are no objects

The body of a request has to be an object with a list of events.  Other bodies are refused, but for
some lists: a batch is a record whose fields may be absent, and records are read from lists as well.

Such a list has the values of the fields of a batch in their order, first the key of the application
and then the events, and may end early.  So there are only three forms of it.

* `NotObject` are the texts that are JSON but no objects, whether they have a value or not.
* `ListBatch` are the lists that are read as batches, with the events in them.
* `Batch.eventsOfText_eq_ok_iff`: a text that does not open an object is read as a batch just if it
  is read as such a list.
* `Pipeline.step_dispatch_of_not_object`: all others are refused and change nothing.
-/

set_option autoImplicit false

namespace SpikeWatch

open Json Json.Grammar

/-! ## Bodies -/

/-- The lists that are read as batches: a key that may be null, and a list of events.  The second
may be left out, and so may both. -/
inductive ListBatch : Value → List Value → Prop
  | empty : ListBatch (.array []) []
  | key (key? : Option String) : ListBatch (.array [key?.elim .null .text]) []
  | events (key? : Option String) (events : List Value) :
      ListBatch (.array [key?.elim .null .text, .array events]) events

/-- Only lists are batches without being objects. -/
theorem ListBatch.exists_items {v : Value} {events : List Value} (h : ListBatch v events) :
    ∃ items, v = .array items := by
  cases h <;> exact ⟨_, rfl⟩

/-- The first character behind blanks is an opening brace. -/
def OpensObject (body : String) : Prop :=
  ∃ more, (Cursor.ofText body).skipBlanks.rest = '\x7b' :: more

/-- Texts that are JSON, but no objects. -/
inductive NotObject (body : String) : Prop
  /-- The text has a value. -/
  | value {v : Value} (h : Value.ofText body = .ok v) (hv : ∀ members, v ≠ .object members)
  /-- The text keeps to the grammar.  It may have no value, since a number in it may be too large,
  or brackets may nest too deeply. -/
  | text (t : Padded Tree) (h : body = String.ofList (t.chars Tree.chars))
      (ht : ∀ within members, t.body ≠ .object within members)

/-- The text of something else does not begin like an object. -/
theorem NotObject.not_opensObject {body : String} (h : NotObject body) : ¬ OpensObject body := by
  rintro ⟨more, hopen⟩
  cases h with
  | @value v h hv =>
    obtain ⟨behind, hread, -⟩ := Value.ofText_eq_ok_iff.1 h
    obtain ⟨members, rfl⟩ := exists_object_of_brace hopen hread
    exact hv members rfl
  | text t h ht =>
    obtain ⟨c, rest, hchars, hblank, -, hobject⟩ := exists_chars_eq_cons t.body
    have hbody : (Cursor.ofText body).rest = t.before.chars ++ (c :: (rest ++ t.after.chars)) := by
      show body.toList = _
      rw [h, String.toList_ofList, Padded.chars, hchars, List.append_assoc]
      rfl
    rw [Cursor.rest_skipBlanks t.before hbody (stops_cons hblank)] at hopen
    cases hopen
    obtain ⟨within, members, hbody⟩ := hobject rfl
    exact ht within members hbody

/-! ## Batches from lists -/

namespace Batch

variable {depth : Nat} {cur behind : Cursor} {events : List Value}

/-- The fields of a batch, and the values that they are read from. -/
theorem fields_eq (depth : Nat) : ∃ key list, record.fields = [key, list] ∧
    (∀ f ∈ record.fields, f.optional = true) ∧
    (∀ batch cur next behind, key.read depth batch cur = .ok (next, behind) ↔
      ∃ key?, readValue depth cur = .ok (key?.elim .null .text, behind) ∧
        next = { batch with appKey := some key? }) ∧
    ∀ batch cur next behind, list.read depth batch cur = .ok (next, behind) ↔
      ∃ events, readValue depth cur = .ok (.array events, behind) ∧
        next = { batch with events := some events } := by
  refine ⟨_, _, rfl, by simp [record], fun batch cur next behind => ?_,
    fun batch cur next behind => ?_⟩
  · refine (Result.map_eq_ok_iff (f := fun key? => { batch with appKey := some key? })).trans ?_
    exact exists_congr fun key? => and_congr_left' readOptionalText_eq_ok_iff
  · refine (Result.map_eq_ok_iff (f := fun events => { batch with events := some events })).trans ?_
    exact exists_congr fun events => and_congr_left' readList_eq_ok_iff

/-- The fields of a batch take the items of a list just if the list is one that is read as a
batch. -/
theorem listed_fields_iff :
    (∃ batch, Record.Listed depth record.fields true {} cur batch behind ∧
      batch.events.getD [] = events) ↔
    ∃ items, Listed (readValue depth) true cur items behind ∧
      ListBatch (.array items) events := by
  -- There are two fields, so lists with none, one and two items are left.
  obtain ⟨key, list, hfields, -, hkey, hlist⟩ := fields_eq depth
  rw [hfields]
  constructor
  · rintro ⟨batch, h, rfl⟩
    cases h with
    | closed hnext => exact ⟨[], .closed hnext, .empty⟩
    | item hnext hread h =>
      obtain ⟨key?, hfirst, rfl⟩ := (hkey ..).1 hread
      cases h with
      | closed hnext' => exact ⟨[_], .item hnext hfirst (.closed hnext'), .key key?⟩
      | item hnext' hread' h =>
        obtain ⟨events, hsecond, rfl⟩ := (hlist ..).1 hread'
        cases h with
        | closed hnext'' =>
          exact ⟨[_, _], .item hnext hfirst (.item hnext' hsecond (.closed hnext'')),
            .events key? events⟩
  · rintro ⟨items, h, hbatch⟩
    cases hbatch with
    | empty =>
      cases h with
      | closed hnext => exact ⟨_, .closed hnext, rfl⟩
    | key key? =>
      cases h with
      | item hnext hread h =>
        cases h with
        | closed hnext' =>
          exact ⟨_, .item hnext ((hkey ..).2 ⟨key?, hread, rfl⟩) (.closed hnext'), rfl⟩
    | events key? =>
      cases h with
      | item hnext hread h =>
        cases h with
        | item hnext' hread' h =>
          cases h with
          | closed hnext'' =>
            exact ⟨_, .item hnext ((hkey ..).2 ⟨key?, hread, rfl⟩)
              (.item hnext' ((hlist ..).2 ⟨events, hread', rfl⟩) (.closed hnext'')), rfl⟩

/-- Lists that are read as batches have no more items than their text has characters. -/
theorem length_le_size {items : List Value} {more : List Char}
    (hrest : cur.skipBlanks.rest = '[' :: more)
    (hlisted : Listed (readValue depth) true cur.skipBlanks.advance items behind)
    (h : ListBatch (.array items) events) : items.length ≤ cur.size := by
  have hlength : (cur.skipBlanks.rest).length ≤ cur.size := cur.skipBlanks.length_le
  rw [hrest, List.length_cons] at hlength
  cases hlisted with
  | closed hnext => exact Nat.zero_le _
  | item hnext hread hitems =>
    have hmore : more ≠ [] := by
      rw [← Cursor.rest_advance hrest]
      exact rest_ne_nil_of_item hnext
    have := List.length_pos_iff.2 hmore
    cases h <;> simp only [List.length_cons, List.length_nil] <;> omega

/-- **Batches from lists.** -/
theorem read_eq_ok_iff (hopen : ∀ more, cur.skipBlanks.rest ≠ '\x7b' :: more) :
    (∃ batch, record.read (depth + 1) {} cur = .ok (batch, behind) ∧
      batch.events.getD [] = events) ↔
    ∃ v, readValue (depth + 1) cur = .ok (v, behind) ∧ ListBatch v events := by
  obtain ⟨-, -, -, hoptional, -⟩ := fields_eq depth
  simp only [record.read_eq_ok_iff_listed hoptional hopen, and_assoc, exists_and_left,
    listed_fields_iff]
  constructor
  · rintro ⟨⟨more, hrest⟩, items, hlisted, hbatch⟩
    refine ⟨.array items, readValue_eq_array_iff.2 ⟨⟨more, hrest⟩, ?_, hlisted⟩, hbatch⟩
    exact length_le_size hrest hlisted hbatch
  · rintro ⟨v, hread, hbatch⟩
    obtain ⟨items, rfl⟩ := ListBatch.exists_items hbatch
    obtain ⟨hrest, -, hlisted⟩ := readValue_eq_array_iff.1 hread
    exact ⟨hrest, items, hlisted, hbatch⟩

/-- **The other bodies that are read as batches** are lists. -/
theorem eventsOfText_eq_ok_iff {body : String} (h : ¬ OpensObject body) :
    eventsOfText body = .ok events ↔ ∃ v, Value.ofText body = .ok v ∧ ListBatch v events := by
  have hread (behind : Cursor) :
      (∃ batch, record.read maxDepth {} (Cursor.ofText body) = .ok (batch, behind) ∧
        batch.events.getD [] = events) ↔
      ∃ v, readValue maxDepth (Cursor.ofText body) = .ok (v, behind) ∧ ListBatch v events :=
    read_eq_ok_iff (not_exists.1 h)
  have hevents : eventsOfText body = .ok events ↔
      ∃ batch, record.ofText {} body = .ok batch ∧ batch.events.getD [] = events := by
    rw [eventsOfText]
    cases record.ofText {} body <;> simp [Except.map]
  simp only [hevents, Record.ofText_eq_ok_iff, Value.ofText_eq_ok_iff]
  constructor
  · rintro ⟨batch, ⟨behind, hbatch, hfinish⟩, hevents⟩
    obtain ⟨v, hv, hlist⟩ := (hread behind).1 ⟨batch, hbatch, hevents⟩
    exact ⟨v, ⟨behind, hv, hfinish⟩, hlist⟩
  · rintro ⟨v, ⟨behind, hv, hfinish⟩, hlist⟩
    obtain ⟨batch, hbatch, hevents⟩ := (hread behind).2 ⟨v, hv, hlist⟩
    exact ⟨batch, ⟨behind, hbatch, hfinish⟩, hevents⟩

end Batch

namespace Pipeline

/-- **Bodies that are no objects.**  A body that is no object is refused and changes nothing, unless
it is a list that is read as a batch: then the events in it are dispatched. -/
theorem step_dispatch_of_not_object (p : Pipeline) {body : String} (h : NotObject body) :
    ((∃ failure, p.step (.dispatch body) = (p, .invalidBody failure)) ↔
      ∀ v events, Value.ofText body = .ok v → ¬ ListBatch v events) ∧
    ∀ v events, Value.ofText body = .ok v → ListBatch v events →
      p.step (.dispatch body) = ((p.dispatch events).1, .response (p.dispatch events).2) := by
  have hread (events : List Value) : Batch.eventsOfText body = .ok events ↔
      ∃ v, Value.ofText body = .ok v ∧ ListBatch v events :=
    Batch.eventsOfText_eq_ok_iff h.not_opensObject
  have hstep : p.step (.dispatch body) = match Batch.eventsOfText body with
      | .ok events => ((p.dispatch events).1, .response (p.dispatch events).2)
      | .error failure => (p, .invalidBody failure) := by
    rw [step, dispatchText]
    cases Batch.eventsOfText body <;> rfl
  rw [hstep]
  constructor
  · cases hevents : Batch.eventsOfText body with
    | error failure =>
      refine iff_of_true ⟨failure, rfl⟩ fun v events hv hlist => ?_
      cases hevents.symm.trans ((hread events).2 ⟨v, hv, hlist⟩)
    | ok events =>
      obtain ⟨v, hv, hlist⟩ := (hread events).1 hevents
      refine iff_of_false ?_ fun hnone => hnone v events hv hlist
      rintro ⟨failure, hfailure⟩
      cases congrArg Prod.snd hfailure
  · intro v events hv hlist
    rw [(hread events).2 ⟨v, hv, hlist⟩]

/-- A list with a key of null and one event, and a list with a number in the place of the key. -/
theorem step_dispatch_of_not_object_list :
    let p : Pipeline := { now := { nanos := 1700000000000000000 } }
    NotObject "[null,[5]]" ∧ NotObject "[1]" ∧
      (p.step (.dispatch "[null,[5]]")).2 = .response ⟨0, 1, ["event 0: invalid format"]⟩ ∧
      ∃ failure, p.step (.dispatch "[1]") = (p, .invalidBody failure) := by
  intro p
  let five : Value := .number (.whole 5)
  have hbatch : Value.ofText "[null,[5]]" = .ok (.array [.null, .array [five]]) := rfl
  have hnumber : Value.ofText "[1]" = .ok (.array [.number (.whole 1)]) := rfl
  have hbatchNot : NotObject "[null,[5]]" := .value hbatch nofun
  have hnumberNot : NotObject "[1]" := .value hnumber nofun
  have hresponse : (p.dispatch [five]).2 = ⟨0, 1, ["event 0: invalid format"]⟩ := by decide +kernel
  refine ⟨hbatchNot, hnumberNot, ?_, ?_⟩
  · rw [(p.step_dispatch_of_not_object hbatchNot).2 _ _ hbatch (.events none [five]), hresponse]
  · refine (p.step_dispatch_of_not_object hnumberNot).1.2 fun v events hv hlist => ?_
    cases hnumber.symm.trans hv
    generalize hvalue : Value.array [.number (.whole 1)] = v at hlist
    cases hlist with
    | empty => cases hvalue
    | key key? => cases key? <;> cases hvalue
    | events key? => cases key? <;> cases hvalue

/-- The empty list is a batch without events, and it is counted. -/
theorem not_forall_step_dispatch_invalidBody :
    let p : Pipeline := { now := { nanos := 1700000000000000000 } }
    (p.step (.dispatch "[]")).2 = .response ⟨0, 0, []⟩ ∧
      (p.step (.dispatch "[]")).1.totals = { batches := 1 } ∧
      ¬ ∀ (p : Pipeline) (body : String) (v : Value), Value.ofText body = .ok v →
        (∀ members, v ≠ .object members) →
          ∃ failure, p.step (.dispatch body) = (p, .invalidBody failure) := by
  intro p
  have hresponse : (p.step (.dispatch "[]")).2 = .response ⟨0, 0, []⟩ := rfl
  refine ⟨hresponse, rfl, fun h => ?_⟩
  obtain ⟨failure, hrefused⟩ := h p "[]" (.array []) rfl nofun
  rw [hrefused] at hresponse
  cases hresponse

end Pipeline

end SpikeWatch
