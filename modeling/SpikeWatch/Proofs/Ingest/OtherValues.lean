import SpikeWatch.Proofs.Decimal.Digits
import SpikeWatch.Proofs.Ingest.Acceptance

/-!
# Values that are no objects

An event has to be an object, and all other values are rejected.  What is said about them depends on
whether they have an envelope, and lists may have one: an envelope is read from the items of a list
as well as from the members of an object.

* `linesAbout` are the lines about the event at a place.  There is one if the event is rejected,
  wherever it stands, and none otherwise (`Pipeline.linesAbout_errors`).
* `judge_eq_invalidFormat_iff`: the format of a value is invalid just if the value has no envelope,
  and nothing else is said in the same words (`Rejection.message_eq_iff`).
* `ListEnvelope` are the lists with an envelope: a text, and possibly a timestamp.  They are
  rejected for what stands in them, or else for being lists (`listRejection`).
-/

set_option autoImplicit false

namespace SpikeWatch

open Json (Value)

/-! ## Lines about one event -/

/-- Whether a line is about the event at a place, by what stands in front of its reason. -/
def isAbout (place : Nat) (line : String) : Bool :=
  line.toList.takeWhile (· ≠ ':') = "event ".toList ++ Decimal.digits place

/-- The lines about the event at a place. -/
def linesAbout (place : Nat) (lines : List String) : List String := lines.filter (isAbout place)

/-- A line is about the event at its place, and about no other: places are written as numbers, which
have only one spelling. -/
theorem isAbout_errorLine (place place' : Nat) (reason : String) :
    isAbout place (errorLine place' reason) = decide (place' = place) := by
  obtain ⟨hplace, hline⟩ := toList_errorLine place' reason
  have hhead : (errorLine place' reason).toList.takeWhile (· ≠ ':') =
      "event ".toList ++ Decimal.digits place' := by
    rw [hline, List.takeWhile_append_of_pos hplace]
    simp
  rw [isAbout, hhead, decide_eq_decide, List.append_cancel_left_eq]
  constructor
  · intro h
    rw [← Decimal.ofDigits_digits place', h, Decimal.ofDigits_digits]
  · rintro rfl
    rfl

namespace Pipeline

variable (p : Pipeline) (before after : List Value) (raw : Value)

/-- The line about an event is kept at its own place, and passed over at all others. -/
theorem filter_isAbout (place place' : Nat) :
    ((p.rejection? raw).map (errorLine place')).filter (isAbout place) =
      if place' = place then (p.rejection? raw).map (errorLine place') else none := by
  cases p.rejection? raw with
  | none => split <;> rfl
  | some reason => by_cases h : place' = place <;> simp [isAbout_errorLine, h]

/-- There is a line about an event if it is rejected, and it says what would be said about the event
if it came alone. -/
theorem linesAbout_errors :
    linesAbout before.length (p.dispatch (before ++ raw :: after)).2.errors =
      ((p.rejection? raw).map (errorLine before.length)).toList := by
  rw [dispatch_response]
  dsimp only
  simp only [linesAbout, errorLines_eq, List.filter_filterMap, filter_isAbout]
  rw [List.zipIdx_append, List.filterMap_append, List.zipIdx_cons, List.filterMap_cons]
  -- all other events have other places
  have hbefore : before.zipIdx.filterMap (fun x => if x.2 = before.length then
      (p.rejection? x.1).map (errorLine x.2) else none) = [] := by
    refine List.filterMap_eq_nil_iff.2 fun x hx => if_neg ?_
    have := List.snd_lt_of_mem_zipIdx hx
    omega
  have hafter : (after.zipIdx (0 + before.length + 1)).filterMap (fun x =>
      if x.2 = before.length then (p.rejection? x.1).map (errorLine x.2) else none) = [] := by
    refine List.filterMap_eq_nil_iff.2 fun x hx => if_neg ?_
    have := List.le_snd_of_mem_zipIdx hx
    omega
  rw [hbefore, hafter, Nat.zero_add, List.nil_append]
  cases p.rejection? raw <;> simp

end Pipeline

/-! ## Invalid formats -/

/-- Nothing else is said in the same words. -/
theorem Rejection.message_eq_iff {r : Rejection} :
    r.message = "invalid format" ↔ r = .invalidFormat := by
  constructor
  · intro h
    -- The first letter tells the messages with names in them apart; these are compared no further,
    -- since nothing is known about the names.
    have hfirst : r.message.toList.head? = some 'i' := by
      rw [h]
      decide
    rw [message.eq_def] at h hfirst
    cases r with
    | invalidFormat => rfl
    | unknownType name =>
      have hother : "unknown event type \"".toList.head? = some 'u' := by decide
      simp only [String.toList_append, List.append_assoc, List.head?_append, hother] at hfirst
      cases hfirst
    | unrepresentableTime => exact absurd h (by decide)
    | malformed type mismatch =>
      have hother : "malformed ".toList.head? = some 'm' := by decide
      simp only [String.toList_append, List.append_assoc, List.head?_append, hother] at hfirst
      cases hfirst
    | invalid violation => cases violation <;> exact absurd h (by decide)
  · rintro rfl
    rfl

/-- A timestamp never makes the format invalid. -/
theorem resolveTime_ne_invalidFormat (now : Instant) (timestamp : Option Int) :
    resolveTime now timestamp ≠ .error .invalidFormat := by
  rw [resolveTime.eq_def]
  split
  · exact nofun
  · split
    · exact nofun
    · split <;> exact nofun

/-- The format is invalid just if there is no envelope. -/
theorem judge_eq_invalidFormat_iff {limits : Limits} {now : Instant} {raw : Value} :
    judge limits now raw = .error .invalidFormat ↔ Envelope.ofValue? raw = none := by
  rw [judge]
  constructor
  · intro h
    split at h
    · assumption
    · split at h
      · cases h
      · split at h
        · next htime =>
          cases h
          exact absurd htime (resolveTime_ne_invalidFormat now _)
        · split at h
          · cases h
          · dsimp only at h
            split at h
            · cases h
            · cases h
  · intro h
    rw [h]

/-! ## Lists -/

/-- The lists that have an envelope. -/
inductive ListEnvelope : Value → Envelope → Prop
  | name (typeName : String) : ListEnvelope (.array [.text typeName]) ⟨typeName, none⟩
  | untimed (typeName : String) : ListEnvelope (.array [.text typeName, .null]) ⟨typeName, none⟩
  | timed (typeName : String) (n : Int64) :
      ListEnvelope (.array [.text typeName, .number (.whole n.toInt)]) ⟨typeName, some n.toInt⟩

/-- An envelope is read from a list by the places of its items. -/
theorem ofValue?_array_eq_some_iff {items : List Value} {envelope : Envelope} :
    Envelope.ofValue? (.array items) = some envelope ↔ ListEnvelope (.array items) envelope := by
  constructor
  · intro h
    rw [Envelope.ofValue?.eq_def] at h
    split at h
    · next heq => cases heq
    · next type heq =>
      cases heq
      cases type with
      | text typeName =>
        cases h
        exact .name typeName
      | _ => cases h
    · next type timestamp heq =>
      cases heq
      cases type with
      | text typeName =>
        obtain ⟨millis, hread, rfl⟩ := Option.map_eq_some_iff.1 h
        rcases Envelope.readTimestamp?_eq_some_iff.1 hread with ⟨rfl, rfl⟩ | ⟨n, rfl, rfl⟩
        · exact .untimed typeName
        · exact .timed typeName n
      | _ => cases h
    · cases h
  · intro h
    cases h with
    | name typeName => rfl
    | untimed typeName => rfl
    | timed typeName n =>
      have hread := Envelope.readTimestamp?_eq_some_iff.2 (.inr ⟨n, rfl, rfl⟩)
      rw [Envelope.ofValue?, Envelope.ofParts?, hread]
      rfl

/-- So of the values that are no objects, some lists have an envelope, and nothing else has one. -/
theorem ofValue?_eq_some_iff_listEnvelope {raw : Value} (hraw : ∀ members, raw ≠ .object members)
    {envelope : Envelope} : Envelope.ofValue? raw = some envelope ↔ ListEnvelope raw envelope := by
  cases raw with
  | array items => exact ofValue?_array_eq_some_iff
  | object members => exact absurd rfl (hraw members)
  | _ => exact iff_of_false nofun nofun

/-- What is said about a list that has an envelope.  Its payload is looked at last, and is a list
where an object is due. -/
def listRejection (now : Instant) (envelope : Envelope) : Rejection :=
  match EventType.ofName? envelope.typeName with
  | none => .unknownType envelope.typeName
  | some type =>
    match resolveTime now envelope.timestamp with
    | .error r => r
    | .ok _ => .malformed type (.wrongType .sequence (.record type.recordName))

/-- Whatever its envelope says, a list is rejected. -/
theorem judge_of_listEnvelope {limits : Limits} {now : Instant} {raw : Value} {envelope : Envelope}
    (h : ListEnvelope raw envelope) :
    judge limits now raw = .error (listRejection now envelope) := by
  obtain ⟨items, rfl⟩ : ∃ items, raw = .array items := by
    cases h <;> exact ⟨_, rfl⟩
  have hdecode (type : EventType) : Event.decode type (.array items) =
      .error (.wrongType .sequence (.record type.recordName)) := rfl
  rw [judge, ofValue?_array_eq_some_iff.2 h, listRejection]
  dsimp only
  cases EventType.ofName? envelope.typeName with
  | none => rfl
  | some type =>
    dsimp only
    cases resolveTime now envelope.timestamp with
    | error r => rfl
    | ok time => simp only [hdecode]

/-- Other values are rejected. -/
theorem judge_of_not_object {limits : Limits} {now : Instant} {raw : Value}
    (hraw : ∀ members, raw ≠ .object members) : ∃ r, judge limits now raw = .error r := by
  cases hjudge : judge limits now raw with
  | error r => exact ⟨r, rfl⟩
  | ok e =>
    obtain ⟨members, -, -, rfl, -⟩ := judge_eq_ok_iff.1 hjudge
    exact absurd rfl (hraw members)

namespace Pipeline

/-- A rejected event has one line, wherever it stands in its batch. -/
theorem linesAbout_of_judge_eq_error {p : Pipeline} {raw : Value} {r : Rejection}
    (h : judge p.limits p.now raw = .error r) (before after : List Value) :
    linesAbout before.length (p.dispatch (before ++ raw :: after)).2.errors =
      [errorLine before.length r.message] := by
  rw [linesAbout_errors, rejection?_eq, judgeReason?, h]
  rfl

/-- **What is said about values that are no objects.**  There is one line about each of them,
wherever it stands.  The line says that the format is invalid, unless the value is a list with an
envelope: then it says what the type and the timestamp in the list come to. -/
theorem linesAbout_of_not_object (p : Pipeline) {raw : Value}
    (hraw : ∀ members, raw ≠ .object members) (before after : List Value) :
    let lines := linesAbout before.length (p.dispatch (before ++ raw :: after)).2.errors
    (lines = [errorLine before.length "invalid format"] ↔ ∀ envelope, ¬ ListEnvelope raw envelope) ∧
    ∀ envelope, ListEnvelope raw envelope →
      lines = [errorLine before.length (listRejection p.now envelope).message] := by
  intro lines
  obtain ⟨r, hjudge⟩ : ∃ r, judge p.limits p.now raw = .error r := judge_of_not_object hraw
  have hlines : lines = [errorLine before.length r.message] :=
    linesAbout_of_judge_eq_error hjudge before after
  refine ⟨?_, fun envelope h => linesAbout_of_judge_eq_error (judge_of_listEnvelope h) before after⟩
  -- A line gives its reason back, so it may be compared by what it says.
  have hwords : lines = [errorLine before.length "invalid format"] ↔
      r.message = "invalid format" := by
    rw [hlines, List.singleton_inj]
    constructor
    · intro h
      rw [← lineReason_errorLine before.length r.message, h, lineReason_errorLine]
    · intro h
      rw [h]
  have hformat : judge p.limits p.now raw = .error .invalidFormat ↔ Envelope.ofValue? raw = none :=
    judge_eq_invalidFormat_iff
  rw [hjudge, Except.error.injEq] at hformat
  rw [hwords, Rejection.message_eq_iff, hformat, Option.eq_none_iff_forall_ne_some]
  refine forall_congr' fun envelope => not_congr ?_
  exact ofValue?_eq_some_iff_listEnvelope hraw

/-- A list with an envelope between two values without one. -/
theorem linesAbout_of_not_object_between :
    let p : Pipeline := { now := { nanos := 1700000000000000000 } }
    let raw : Value := .array [.text "crash", .null]
    let lines := linesAbout 1 (p.dispatch [.array [], raw, .text "crash"]).2.errors
    (∀ members, raw ≠ .object members) ∧ ListEnvelope raw ⟨"crash", none⟩ ∧
      lines = ["event 1: malformed crash payload: invalid type: sequence, expected struct Crash"] ∧
      lines ≠ [errorLine 1 "invalid format"] := by
  intro p raw lines
  have hraw : ∀ members, raw ≠ .object members := nofun
  have henvelope : ListEnvelope raw ⟨"crash", none⟩ := .untimed "crash"
  obtain ⟨hformat, hother⟩ := linesAbout_of_not_object p hraw [.array []] [.text "crash"]
  have hline : errorLine 1 (listRejection p.now ⟨"crash", none⟩).message =
      "event 1: malformed crash payload: invalid type: sequence, expected struct Crash" := by
    decide +kernel
  refine ⟨hraw, henvelope, ?_, fun h => ?_⟩
  · rw [← hline]
    exact hother _ henvelope
  · exact hformat.1 h _ henvelope

/-- A list of one text is no object, and it is not said that its format is invalid. -/
theorem not_forall_linesAbout_eq_invalidFormat :
    let p : Pipeline := { now := { nanos := 1700000000000000000 } }
    (p.dispatch [.array [.text "bogus"]]).2.errors = ["event 0: unknown event type \"bogus\""] ∧
      ¬ ∀ (p : Pipeline) (before after : List Value) (raw : Value),
        (∀ members, raw ≠ .object members) →
          linesAbout before.length (p.dispatch (before ++ raw :: after)).2.errors =
            [errorLine before.length "invalid format"] := by
  intro p
  have herrors : (p.dispatch [.array [.text "bogus"]]).2.errors =
      ["event 0: unknown event type \"bogus\""] := by
    decide +kernel
  refine ⟨herrors, fun h => ?_⟩
  have hline := h p [] [] (.array [.text "bogus"]) nofun
  rw [List.nil_append, herrors] at hline
  exact absurd hline (by decide +kernel)

end Pipeline

end SpikeWatch
