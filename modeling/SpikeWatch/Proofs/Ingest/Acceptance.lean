import SpikeWatch.Proofs.Event.Payload
import SpikeWatch.Proofs.Pipeline.Batch

/-!
# Which events are accepted

An event goes through an envelope, a decoder, a clean-up of its labels and a list of requirements,
and each of them may turn it away.  `Acceptable` says what comes of all this, on the payload itself
and without an order.

* `Denotes` is the instant that the member for the timestamp stands for.
* `judge_eq_ok_iff` says that an event is accepted just if its payload is acceptable, and that it
  then holds what the payload says, at that instant, with the labels of its platform and its model.
* The labels are made before the requirements are looked at, so a platform is missing if its name
  is blank (`platformLabel_eq_empty_iff`), and not only if it is empty.
-/

set_option autoImplicit false

namespace SpikeWatch

open Json (Value)
open Payload

/-! ## Envelopes -/

/-- The instant that the member for the timestamp stands for, at a given present. -/
inductive Denotes (now : Instant) : Option Value → Instant → Prop
  | absent : Denotes now none now
  | null : Denotes now (some .null) now
  | zero : Denotes now (some (.number (.whole 0))) now
  /-- Milliseconds since the beginning of 1970, in sixty-four bits. -/
  | millis {n : Int64} {t : Instant} (hn : n.toInt ≠ 0) (ht : t.nanos = n.toInt * 1000000) :
      Denotes now (some (.number (.whole n.toInt))) t

/-- An event without a timestamp, or with zero, takes place now, and any other at its
milliseconds. -/
theorem resolveTime_eq_ok_iff {now t : Instant} {timestamp : Option Int} :
    resolveTime now timestamp = .ok t ↔ (timestamp.getD 0 = 0 ∧ t = now) ∨
      (timestamp.getD 0 ≠ 0 ∧ Instant.ofMillis? (timestamp.getD 0) = some t) := by
  cases timestamp with
  | none => simp [resolveTime, eq_comm]
  | some millis =>
    by_cases hzero : millis = 0
    · simp [resolveTime, hzero, eq_comm]
    · cases hmillis : Instant.ofMillis? millis <;> simp [resolveTime, hzero, hmillis]

/-- A timestamp in an envelope is a whole number of sixty-four bits, or nothing. -/
theorem Envelope.readTimestamp?_eq_some_iff {v : Value} {timestamp : Option Int} :
    Envelope.readTimestamp? v = some timestamp ↔ (v = .null ∧ timestamp = none) ∨
      ∃ n : Int64, v = .number (.whole n.toInt) ∧ timestamp = some n.toInt := by
  constructor
  · intro h
    rw [readTimestamp?.eq_def] at h
    split at h
    · cases h
      exact .inl ⟨rfl, rfl⟩
    · next n =>
      split at h
      · next hrange =>
        cases h
        have hn : (Int64.ofInt n).toInt = n :=
          Int64.toInt_ofInt_of_le hrange.1 (Int.lt_of_le_of_lt hrange.2 (by decide))
        exact .inr ⟨.ofInt n, by rw [hn], by rw [hn]⟩
      · cases h
    · cases h
  · rintro (⟨rfl, rfl⟩ | ⟨n, rfl, rfl⟩)
    · rfl
    · rw [readTimestamp?, if_pos ⟨n.minValue_le_toInt, n.toInt_le⟩]

/-- The envelope of an object is what its two members say. -/
theorem Envelope.ofValue?_object_eq_some_iff {members : Members} {envelope : Envelope} :
    Envelope.ofValue? (.object members) = some envelope ↔
      members.lookup "type" = some (.text envelope.typeName) ∧
      (members.lookup "timestamp").elim (some none) Envelope.readTimestamp? =
        some envelope.timestamp := by
  rw [ofValue?]
  cases members.lookup "type" with
  | none => simp
  | some type =>
    obtain ⟨typeName, timestamp⟩ := envelope
    cases type with
    | text name =>
      cases members.lookup "timestamp" with
      | none => simp [ofParts?, eq_comm]
      | some v => cases hread : readTimestamp? v <;> simp [ofParts?, hread, eq_comm]
    | _ => simp [ofParts?]

/-- What a timestamp denotes is what its envelope and the clock make of it. -/
theorem denotes_iff {now t : Instant} {v? : Option Value} :
    Denotes now v? t ↔ ∃ timestamp, v?.elim (some none) Envelope.readTimestamp? = some timestamp ∧
      resolveTime now timestamp = .ok t := by
  constructor
  · intro h
    cases h with
    | absent => exact ⟨none, rfl, rfl⟩
    | null => exact ⟨none, rfl, rfl⟩
    | zero => exact ⟨some 0, rfl, rfl⟩
    | @millis n _ hn ht =>
      exact ⟨some n.toInt, Envelope.readTimestamp?_eq_some_iff.2 (.inr ⟨n, rfl, rfl⟩),
        resolveTime_eq_ok_iff.2 (.inr ⟨hn, Instant.ofMillis?_eq_some_iff.2 ht⟩)⟩
  · rintro ⟨timestamp, hread, htime⟩
    cases v? with
    | none =>
      cases hread
      cases htime
      exact .absent
    | some v =>
      -- A timestamp of zero counts as none.
      rcases Envelope.readTimestamp?_eq_some_iff.1 hread with ⟨rfl, rfl⟩ | ⟨n, rfl, rfl⟩
      · cases htime
        exact .null
      · rcases resolveTime_eq_ok_iff.1 htime with ⟨hzero, rfl⟩ | ⟨hne, ht⟩
        · rw [Option.getD_some] at hzero
          rw [hzero]
          exact .zero
        · exact .millis hne (Instant.ofMillis?_eq_some_iff.1 ht)

/-- What an envelope has to say about the type and the instant of an event. -/
theorem Envelope.exists_ofValue?_iff {now time : Instant} {members : Members} {type : EventType} :
    (∃ envelope, Envelope.ofValue? (.object members) = some envelope ∧
      EventType.ofName? envelope.typeName = some type ∧
      resolveTime now envelope.timestamp = .ok time) ↔
    members.lookup "type" = some (.text type.name) ∧
      Denotes now (members.lookup "timestamp") time := by
  simp only [ofValue?_object_eq_some_iff, EventType.ofName?_eq_some_iff, denotes_iff]
  constructor
  · rintro ⟨envelope, ⟨hdeclares, hread⟩, hname, htime⟩
    rw [hname] at hdeclares
    exact ⟨hdeclares, envelope.timestamp, hread, htime⟩
  · rintro ⟨hdeclares, timestamp, hread, htime⟩
    exact ⟨⟨type.name, timestamp⟩, ⟨hdeclares, hread⟩, rfl, htime⟩

/-! ## Requirements -/

/-- The fields of a type that must not be empty. -/
def EventType.required : EventType → List String
  | sceneLoad => ["scene_name"]
  | exception => ["fingerprint"]
  | crash => ["fingerprint"]
  | _ => []

/-- The member of a field is a text that is not empty. -/
def Fills (members : Members) (name : String) : Prop :=
  ∃ s, members.lookup name = some (.text s) ∧ s ≠ ""

/-- A field that must not be empty asks for a member with something in it. -/
theorem textOf_ne_empty_iff {members : Members} {name : String} :
    textOf members name ≠ "" ↔ Fills members name := by
  rw [textOf, Fills]
  cases members.lookup name with
  | none => simp
  | some v => cases v <;> simp [asText]

/-- A test at the front of a check is passed just if it does not apply. -/
theorem ite_error_eq_ok_iff {ε α : Type} {c : Prop} [Decidable c] {x : ε} {y : Except ε α}
    {a : α} : (if c then .error x else y) = .ok a ↔ ¬ c ∧ y = .ok a := by
  split <;> simp [*]

/-- What the validators of a type ask for, by the names of its required members. -/
theorem Limits.checkDetails_ofPayload_eq_ok_iff {members : Members} {type : EventType} :
    Limits.checkDetails (Details.ofPayload members type) = .ok () ↔
      ∀ name ∈ type.required, Fills members name := by
  cases type <;>
    simp [checkDetails, Details.ofPayload, EventType.required, ← textOf_ne_empty_iff]

/-- The validators on an event: all of them have to pass, and their order does not matter for
that. -/
theorem Limits.check_eq_ok_iff {limits : Limits} {now : Instant} {e : Event} :
    limits.check now e = .ok () ↔ limits.allowsTime now e.context.timestamp = true ∧
      e.context.appVersion ≠ "" ∧ e.context.platform ≠ "" ∧ e.context.deviceId ≠ "" ∧
      e.context.sessionId ≠ "" ∧ Limits.checkDetails e.details = .ok () := by
  simp [check, ite_error_eq_ok_iff]

/-- A platform is there if its name shows anything. -/
theorem platformLabel_textOf_ne_empty_iff {members : Members} {name : String} :
    platformLabel (textOf members name) ≠ "" ↔
      ∃ s, members.lookup name = some (.text s) ∧ ∃ c ∈ s.toList, Text.isBlank c = false := by
  rw [Ne, platformLabel_eq_empty_iff, Text.isBlankText, textOf]
  cases members.lookup name with
  | none => simp
  | some v => cases v <;> simp [asText]

/-! ## Judging -/

/-- A payload of a type that stands for an event at an instant which is accepted. -/
structure Acceptable (limits : Limits) (now : Instant) (members : Members) (type : EventType)
    (time : Instant) : Prop where
  declares : members.lookup "type" = some (.text type.name)
  denotes : Denotes now (members.lookup "timestamp") time
  holds : ∀ f ∈ type.fields ++ Context.fields, Holds members f
  allows : limits.allowsTime now time = true
  fills : ∀ name ∈ ["app_version", "device_id", "session_id"] ++ type.required,
    Fills members name
  platform : ∃ s, members.lookup "platform" = some (.text s) ∧
    ∃ c ∈ s.toList, Text.isBlank c = false

/-- The event that a payload of a type stands for at an instant. -/
def Event.ofPayload (members : Members) (type : EventType) (time : Instant) : Event where
  context := { Context.ofPayload members with
    timestamp := time
    platform := platformLabel (textOf members "platform")
    deviceModel := deviceModelLabel (textOf members "device_model") }
  details := Details.ofPayload members type

/-- The same on what a payload stands for, so in terms of its members. -/
theorem Limits.check_ofPayload_eq_ok_iff {limits : Limits} {now time : Instant}
    {members : Members} {type : EventType} :
    limits.check now (Event.ofPayload members type time) = .ok () ↔
      limits.allowsTime now time = true ∧
      (∀ name ∈ ["app_version", "device_id", "session_id"] ++ type.required,
        Fills members name) ∧
      ∃ s, members.lookup "platform" = some (.text s) ∧ ∃ c ∈ s.toList, Text.isBlank c = false := by
  rw [check_eq_ok_iff]
  -- the requirements are those of the context, with the platform among them, and of the details
  simp only [Event.ofPayload, Context.ofPayload, checkDetails_ofPayload_eq_ok_iff,
    textOf_ne_empty_iff, platformLabel_textOf_ne_empty_iff, List.forall_mem_append,
    List.forall_mem_cons, List.not_mem_nil, false_implies, implies_true, and_true]
  tauto

/-- All that an event has to pass. -/
theorem judge_eq_ok_iff_exists {limits : Limits} {now : Instant} {raw : Value} {e : Event} :
    judge limits now raw = .ok e ↔ ∃ envelope type time decoded,
      Envelope.ofValue? raw = some envelope ∧ EventType.ofName? envelope.typeName = some type ∧
      resolveTime now envelope.timestamp = .ok time ∧ Event.decode type raw = .ok decoded ∧
      limits.check now (decoded.settle time) = .ok () ∧ e = decoded.settle time := by
  rw [judge]
  constructor
  · intro h
    split at h
    · cases h
    · next envelope henvelope =>
      split at h
      · cases h
      · next type htype =>
        split at h
        · cases h
        · next time htime =>
          split at h
          · cases h
          · next decoded hdecoded =>
            dsimp only at h
            split at h
            · cases h
            · next hcheck =>
              cases h
              exact ⟨envelope, type, time, decoded, henvelope, htype, htime, hdecoded, hcheck, rfl⟩
  · rintro ⟨envelope, type, time, decoded, henvelope, htype, htime, hdecoded, hcheck, rfl⟩
    simp [henvelope, htype, htime, hdecoded, hcheck]

/-- **An event is accepted just if its payload is acceptable**, and it is what the payload stands
for. -/
theorem judge_eq_ok_iff {limits : Limits} {now : Instant} {raw : Value} {e : Event} :
    judge limits now raw = .ok e ↔ ∃ members type time, raw = .object members ∧
      Acceptable limits now members type time ∧ e = Event.ofPayload members type time := by
  rw [judge_eq_ok_iff_exists]
  constructor
  · rintro ⟨envelope, type, time, decoded, henvelope, htype, htime, hdecoded, hcheck, rfl⟩
    obtain ⟨members, rfl, hholds, rfl⟩ := Event.decode_eq_ok_iff.1 hdecoded
    obtain ⟨hdeclares, hdenotes⟩ := Envelope.exists_ofValue?_iff.1 ⟨_, henvelope, htype, htime⟩
    obtain ⟨hallows, hfills, hplatform⟩ := Limits.check_ofPayload_eq_ok_iff.1 hcheck
    exact ⟨members, type, time, rfl,
      ⟨hdeclares, hdenotes, hholds, hallows, hfills, hplatform⟩, rfl⟩
  · rintro ⟨members, type, time, rfl, h, rfl⟩
    obtain ⟨envelope, henvelope, htype, htime⟩ :=
      Envelope.exists_ofValue?_iff.2 ⟨h.declares, h.denotes⟩
    exact ⟨envelope, type, time, _, henvelope, htype, htime,
      Event.decode_eq_ok_iff.2 ⟨members, rfl, h.holds, rfl⟩,
      Limits.check_ofPayload_eq_ok_iff.2 ⟨h.allows, h.fills, h.platform⟩, rfl⟩

namespace Pipeline

/-- What is accepted of a batch of one is its event, if this is accepted. -/
theorem accepted_singleton_iff {p : Pipeline} {raw : Value} {e : Event} :
    p.accepted [raw] = [e] ↔ judge p.limits p.now raw = .ok e := by
  rw [accepted_eq]
  cases hjudge : judge p.limits p.now raw <;> simp [hjudge, Except.toOption]

/-- The response to a batch of one tells whether its event is accepted. -/
theorem accepted_dispatch_singleton_iff {p : Pipeline} {raw : Value} :
    (p.dispatch [raw]).2.accepted = 1 ↔ ∃ e, judge p.limits p.now raw = .ok e := by
  simp only [dispatch_response, List.length_eq_one_iff, accepted_singleton_iff]

/-- **An event is accepted just if its payload is acceptable**, and then it holds what the payload
says. -/
theorem accepts_iff (p : Pipeline) (raw : Value) :
    ((p.dispatch [raw]).2.accepted = 1 ↔ ∃ members type time, raw = .object members ∧
      Acceptable p.limits p.now members type time) ∧
    ∀ e, p.accepted [raw] = [e] ↔ ∃ members type time, raw = .object members ∧
      Acceptable p.limits p.now members type time ∧ e = Event.ofPayload members type time := by
  constructor
  · rw [accepted_dispatch_singleton_iff]
    constructor
    · rintro ⟨e, he⟩
      obtain ⟨members, type, time, hraw, hacceptable, -⟩ := judge_eq_ok_iff.1 he
      exact ⟨members, type, time, hraw, hacceptable⟩
    · rintro ⟨members, type, time, hraw, hacceptable⟩
      exact ⟨_, judge_eq_ok_iff.2 ⟨members, type, time, hraw, hacceptable, rfl⟩⟩
  · intro e
    rw [accepted_singleton_iff, judge_eq_ok_iff]

end Pipeline

end SpikeWatch
