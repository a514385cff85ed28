import SpikeWatch.Proofs.Event.Visiting
import SpikeWatch.Proofs.Requirements

/-!
# What is wrong with a payload

Many fields of a payload may be filled in wrongly, and decoding names one of them.

This is the order of the fields in the records, and not that of the members in the payload, which
are in no order of their own.  A list is looked through from its front, so its first wrong item is
the one that is named.

* `FieldKind.Misfits` says what is wrong with a value that a field cannot hold: its type, or that of
  the first item of a list, or the size of a number.
* `payloadRequirements` is what decoding asks of a payload, in its order: an object, and then each
  field of the type and of the context.
* `Event.decode_eq_error_iff`: decoding reports what comes first in this order.
-/

set_option autoImplicit false

namespace SpikeWatch

open Json (Value)
open Payload

/-! ## Values -/

/-- What is wrong with a value for a field of a kind. -/
inductive FieldKind.Misfits : FieldKind → Value → Mismatch → Prop
  | text {v : Value} (h : ∀ s, v ≠ .text s) : Misfits .text v (.wrongType v.found .text)
  | texts {v : Value} (h : ∀ items, v ≠ .array items) :
      Misfits .texts v (.wrongType v.found .sequence)
  /-- The first item that is no text. -/
  | item (before : List String) {v : Value} (h : ∀ s, v ≠ .text s) (after : List Value) :
      Misfits .texts (.array (before.map .text ++ v :: after)) (.wrongType v.found .text)
  | single {v : Value} (h : ∀ n, v ≠ .number n) : Misfits .single v (.wrongType v.found .single)
  | count {v : Value} (h : ∀ n, v ≠ .number (.whole n)) :
      Misfits .count v (.wrongType v.found .unsigned32)
  | range {n : Int} (h : ¬ (0 ≤ n ∧ n < UInt32.size)) :
      Misfits .count (.number (.whole n)) (.wrongValue (.integer n) .unsigned32)

namespace Payload

variable {v : Value} {m : Mismatch}

/-- A complaint is what reading fails with. -/
theorem complaint?_eq_some_iff {α : Type} {x : Except Mismatch α} :
    complaint? x = some m ↔ x = .error m := by
  cases x <;> simp [complaint?]

/-- Reading a value of one kind fails just if it does not fit, and says in what way. -/
theorem readText_eq_error_iff : readText v = .error m ↔ FieldKind.Misfits .text v m := by
  rw [readText.eq_def]
  constructor
  · intro h
    split at h
    · cases h
    · next hv =>
      cases h
      exact .text hv
  · rintro ⟨hv⟩
    split
    · exact absurd rfl (hv _)
    · rfl

/-- A list of texts fails at its first item that is no text. -/
theorem mapM_readText_eq_error_iff {items : List Value} :
    items.mapM readText = .error m ↔ ∃ before v after,
      items = List.map Value.text before ++ v :: after ∧ readText v = .error m := by
  induction items with
  | nil => simp [pure, Except.pure]
  | cons v items ih =>
    rw [List.mapM_cons]
    cases hv : readText v with
    | error m' =>
      constructor
      · intro h
        cases h
        exact ⟨[], v, items, rfl, hv⟩
      · rintro ⟨before, w, after, heq, hw⟩
        cases before with
        | nil =>
          cases heq
          cases hv.symm.trans hw
          rfl
        | cons s before =>
          cases heq
          cases hv
    | ok s =>
      -- An item that is a text moves in front, and the rest of the list is looked at.
      obtain ⟨⟨s⟩, rfl⟩ := readText_eq_ok_iff.1 hv
      have hcons : ((do let rest ← items.mapM readText; pure (s :: rest)) = .error m) ↔
          items.mapM readText = .error m := by
        cases items.mapM readText <;> simp [bind, Except.bind, pure, Except.pure]
      refine hcons.trans (ih.trans ?_)
      constructor
      · rintro ⟨before, w, after, rfl, hw⟩
        exact ⟨s :: before, w, after, rfl, hw⟩
      · rintro ⟨before, w, after, heq, hw⟩
        cases before with
        | nil =>
          cases heq
          cases hw
        | cons t before =>
          cases heq
          exact ⟨before, w, after, rfl, hw⟩

/-- So a field for texts is named by that item, or by its own type if it holds no list. -/
theorem readTexts_eq_error_iff : readTexts v = .error m ↔ FieldKind.Misfits .texts v m := by
  rw [readTexts.eq_def]
  constructor
  · intro h
    split at h
    · obtain ⟨before, w, after, rfl, hw⟩ := mapM_readText_eq_error_iff.1 h
      cases readText_eq_error_iff.1 hw with
      | text hnotText => exact .item before hnotText after
    · next hv =>
      cases h
      exact .texts hv
  · intro h
    cases h with
    | texts hv =>
      split
      · exact absurd rfl (hv _)
      · rfl
    | item before hw after =>
      exact mapM_readText_eq_error_iff.2 ⟨before, _, after, rfl, readText_eq_error_iff.2 (.text hw)⟩

theorem readSingle_eq_error_iff : readSingle v = .error m ↔ FieldKind.Misfits .single v m := by
  rw [readSingle.eq_def]
  constructor
  · intro h
    split at h
    · cases h
    · cases h
    · next hwhole hreal =>
      cases h
      refine .single fun n hn => ?_
      cases n with
      | whole n => exact hwhole n hn
      | real x => exact hreal x hn
  · intro h
    cases h with
    | single hv =>
      split
      · exact absurd rfl (hv _)
      · exact absurd rfl (hv _)
      · rfl

theorem readCount_eq_error_iff : readCount v = .error m ↔ FieldKind.Misfits .count v m := by
  rw [readCount.eq_def]
  constructor
  · intro h
    split at h
    · split at h
      · cases h
      · next hrange =>
        cases h
        exact .range hrange
    · next hv =>
      cases h
      exact .count hv
  · intro h
    cases h with
    | count hv =>
      split
      · exact absurd rfl (hv _)
      · rfl
    | range hrange => exact if_neg hrange

end Payload

/-- All kinds at once. -/
theorem FieldKind.mismatch?_eq_some_iff {kind : FieldKind} {v : Value} {m : Mismatch} :
    kind.mismatch? v = some m ↔ kind.Misfits v m := by
  cases kind with
  | text => exact complaint?_eq_some_iff.trans readText_eq_error_iff
  | texts => exact complaint?_eq_some_iff.trans readTexts_eq_error_iff
  | single => exact complaint?_eq_some_iff.trans readSingle_eq_error_iff
  | count => exact complaint?_eq_some_iff.trans readCount_eq_error_iff

/-! ## Payloads -/

/-- The member of a field has to be of its kind, if there is one. -/
def fieldRequirement (members : Members) (field : String × FieldKind) : Requirement Mismatch :=
  fun m => ∃ v, members.lookup field.1 = some v ∧ field.2.Misfits v m

/-- What decoding asks of a payload of a type: an object, and members of the kinds of the fields
that they go by. -/
def payloadRequirements (type : EventType) : Value → List (Requirement Mismatch)
  | .object members => (type.fields ++ Context.fields).map (fieldRequirement members)
  | v => [fun m => m = .wrongType v.found (.record type.recordName)]

/-- The fields of a record are looked at one after the other, and the first that does not fit is
reported. -/
theorem Payload.mismatch?_eq_some_iff {fields : List (String × FieldKind)} {members : Members}
    {m : Mismatch} :
    mismatch? fields members = some m ↔ FirstUnmet (fields.map (fieldRequirement members)) m := by
  induction fields with
  | nil => exact iff_of_false nofun (not_firstUnmet_nil m)
  | cons f fields ih =>
    have hfield (m : Mismatch) : (members.lookup f.1).bind f.2.mismatch? = some m ↔
        fieldRequirement members f m := by
      rw [Option.bind_eq_some_iff]
      exact exists_congr fun v => and_congr_right fun _ => FieldKind.mismatch?_eq_some_iff
    rw [mismatch?_cons, List.map_cons, firstUnmet_cons_iff, ← ih, Option.or_eq_some_iff, hfield,
      Option.eq_none_iff_forall_ne_some]
    exact or_congr_right (and_congr_left' (forall_congr' fun m => not_congr (hfield m)))

/-- **What decoding reports** is the first thing that is wrong with a payload. -/
theorem Event.decode_eq_error_iff {type : EventType} {raw : Value} {m : Mismatch} :
    Event.decode type raw = .error m ↔ FirstUnmet (payloadRequirements type raw) m := by
  cases raw with
  | object members =>
    rw [decode_object, payloadRequirements, ← Payload.mismatch?_eq_some_iff]
    cases mismatch? (type.fields ++ Context.fields) members <;> simp [barring]
  | _ =>
    refine Iff.trans ?_ firstUnmet_singleton_iff.symm
    exact ⟨fun h => (Except.error.inj h).symm, fun h => congrArg Except.error h.symm⟩

end SpikeWatch
