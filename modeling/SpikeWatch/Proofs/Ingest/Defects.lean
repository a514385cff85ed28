import SpikeWatch.Proofs.Event.Misfits
import SpikeWatch.Proofs.Ingest.OtherValues

/-!
# What is said about an event first

Much may be wrong with an event at once, and its line says one thing.  Each step that may turn an
event away looks for a defect of its own, and the line is about the first step that finds one.

* `Defective` says of each `Defect` when an event has it and what is said then.  It looks at the
  event alone, so an event may have many defects.
* `enforces_judge`: judging an event looks for the defects in the order `Defect.order`.
* `Pipeline.linesAbout_first_defect` says the same of the lines about an event in a batch, and that
  an event without a defect has none.
* The documentation has the instant in front of the type.  The two orders come to the same unless an
  event has both defects (`firstUnmet_documented_iff`).

The proof goes along the order.  Each step of `judge` is a test in front of what is left, so one
lemma for each step says what its test asks for (`defective_envelope_iff` and those that follow),
and the two lemmas on `Enforces` put the test in front of the rest of the list.
-/

set_option autoImplicit false

namespace SpikeWatch

open Json (Value)
open Payload

/-! ## Envelopes -/

/-- The milliseconds that the member for the timestamp gives, if it gives any. -/
inductive GivesMillis : Option Value → Option Int → Prop
  | absent : GivesMillis none none
  | null : GivesMillis (some .null) none
  | whole (n : Int64) : GivesMillis (some (.number (.whole n.toInt))) (some n.toInt)

/-- The envelopes of values. -/
inductive HasEnvelope : Value → Envelope → Prop
  | object {members : Members} {typeName : String} {timestamp : Option Int}
      (hdeclares : members.lookup "type" = some (.text typeName))
      (hgives : GivesMillis (members.lookup "timestamp") timestamp) :
      HasEnvelope (.object members) ⟨typeName, timestamp⟩
  | list {raw : Value} {envelope : Envelope} (h : ListEnvelope raw envelope) :
      HasEnvelope raw envelope

/-- The envelope reads the milliseconds that a timestamp gives. -/
theorem givesMillis_iff {v? : Option Value} {timestamp : Option Int} :
    GivesMillis v? timestamp ↔ v?.elim (some none) Envelope.readTimestamp? = some timestamp := by
  constructor
  · intro h
    cases h with
    | absent => rfl
    | null => rfl
    | whole n => exact Envelope.readTimestamp?_eq_some_iff.2 (.inr ⟨n, rfl, rfl⟩)
  · intro h
    cases v? with
    | none =>
      cases h
      exact .absent
    | some v =>
      rcases Envelope.readTimestamp?_eq_some_iff.1 h with ⟨rfl, rfl⟩ | ⟨n, rfl, rfl⟩
      · exact .null
      · exact .whole n

/-- Reading an envelope finds the one that a value has. -/
theorem hasEnvelope_iff {raw : Value} {envelope : Envelope} :
    HasEnvelope raw envelope ↔ Envelope.ofValue? raw = some envelope := by
  constructor
  · intro h
    cases h with
    | object hdeclares hgives =>
      exact Envelope.ofValue?_object_eq_some_iff.2 ⟨hdeclares, givesMillis_iff.1 hgives⟩
    | list h =>
      refine (ofValue?_eq_some_iff_listEnvelope ?_).2 h
      rintro members rfl
      cases h
  · intro h
    by_cases hraw : ∃ members, raw = .object members
    · obtain ⟨members, rfl⟩ := hraw
      obtain ⟨hdeclares, hread⟩ := Envelope.ofValue?_object_eq_some_iff.1 h
      exact .object hdeclares (givesMillis_iff.2 hread)
    · exact .list ((ofValue?_eq_some_iff_listEnvelope (not_exists.1 hraw)).1 h)

/-- A value has one envelope at most. -/
theorem HasEnvelope.unique {raw : Value} {envelope envelope' : Envelope}
    (h : HasEnvelope raw envelope) (h' : HasEnvelope raw envelope') : envelope = envelope' :=
  Option.some.inj ((hasEnvelope_iff.1 h).symm.trans (hasEnvelope_iff.1 h'))

/-- A timestamp stands for one instant at most. -/
theorem Denotes.unique {now t t' : Instant} {v? : Option Value} (h : Denotes now v? t)
    (h' : Denotes now v? t') : t = t' := by
  obtain ⟨timestamp, hread, htime⟩ := denotes_iff.1 h
  obtain ⟨timestamp', hread', htime'⟩ := denotes_iff.1 h'
  cases hread.symm.trans hread'
  exact Except.ok.inj (htime.symm.trans htime')

/-- Types are told apart by their names. -/
theorem EventType.name_injective : Function.Injective EventType.name := fun type _ h =>
  Option.some.inj ((ofName?_name type).symm.trans (ofName?_eq_some_iff.2 h))

/-- Members declare one type at most. -/
theorem EventType.eq_of_declares {members : Members} {type type' : EventType}
    (h : members.lookup "type" = some (.text type.name))
    (h' : members.lookup "type" = some (.text type'.name)) : type = type' :=
  name_injective (Value.text.inj (Option.some.inj (h.symm.trans h')))

/-- The instant of an event cannot be found just if its milliseconds are no instant.  Zero stands
for no timestamp, so it is never in the way. -/
theorem resolveTime_eq_error_iff {now : Instant} {timestamp : Option Int} {r : Rejection} :
    resolveTime now timestamp = .error r ↔ ∃ millis, timestamp = some millis ∧ millis ≠ 0 ∧
      (∀ t : Instant, t.nanos ≠ millis * 1000000) ∧ r = .unrepresentableTime := by
  cases timestamp with
  | none => simp [resolveTime]
  | some millis =>
    by_cases hzero : millis = 0
    · simp [resolveTime, hzero]
    · have hnone : Instant.ofMillis? millis = none ↔
          ∀ t : Instant, t.nanos ≠ millis * 1000000 := by
        rw [Option.eq_none_iff_forall_ne_some]
        exact forall_congr' fun t => not_congr Instant.ofMillis?_eq_some_iff
      simp only [resolveTime, Option.some.injEq, exists_eq_left', ne_eq, hzero,
        not_false_eq_true, true_and, ← hnone]
      cases Instant.ofMillis? millis <;> simp [eq_comm]

/-! ## Defects -/

/-- What may be wrong with an event, one for each step that may turn it away. -/
inductive Defect where
  /-- There is no envelope. -/
  | envelope
  | type
  /-- The timestamp lies outside the range of instants. -/
  | instant
  | payload
  | violation (v : Violation)
  deriving DecidableEq

/-- The order in which requirements on events are looked at. -/
def Violation.order : List Violation :=
  [timestamp, appVersion, platform, deviceId, sessionId, sceneName, fingerprint]

/-- The order of the steps. -/
def Defect.order : List Defect :=
  [envelope, type, instant, payload] ++ Violation.order.map violation

/-- The order in which the steps are documented. -/
def Defect.documented : List Defect :=
  [envelope, instant, type, payload] ++ Violation.order.map violation

/-- The members of an object do not meet a requirement on events. -/
inductive Violates (limits : Limits) (now : Instant) (members : Members) : Violation → Prop
  | timestamp {time : Instant} (hdenotes : Denotes now (members.lookup "timestamp") time)
      (h : limits.allowsTime now time = false) : Violates limits now members .timestamp
  | appVersion (h : ¬ Fills members "app_version") : Violates limits now members .appVersion
  | platform (h : ¬ ∃ s, members.lookup "platform" = some (.text s) ∧
      ∃ c ∈ s.toList, Text.isBlank c = false) : Violates limits now members .platform
  | deviceId (h : ¬ Fills members "device_id") : Violates limits now members .deviceId
  | sessionId (h : ¬ Fills members "session_id") : Violates limits now members .sessionId
  | sceneName {type : EventType} (htype : type = .sceneLoad)
      (hdeclares : members.lookup "type" = some (.text type.name))
      (h : ¬ Fills members "scene_name") : Violates limits now members .sceneName
  | fingerprint {type : EventType} (htype : type = .exception ∨ type = .crash)
      (hdeclares : members.lookup "type" = some (.text type.name))
      (h : ¬ Fills members "fingerprint") : Violates limits now members .fingerprint

/-- An event has a defect, and what is said about it. -/
inductive Defective (limits : Limits) (now : Instant) (raw : Value) : Defect → Requirement Rejection
  | envelope (h : ∀ envelope, ¬ HasEnvelope raw envelope) :
      Defective limits now raw .envelope .invalidFormat
  | type {envelope : Envelope} (henvelope : HasEnvelope raw envelope)
      (h : ∀ type : EventType, envelope.typeName ≠ type.name) :
      Defective limits now raw .type (.unknownType envelope.typeName)
  | instant {envelope : Envelope} {millis : Int} (henvelope : HasEnvelope raw envelope)
      (hgives : envelope.timestamp = some millis) (hne : millis ≠ 0)
      (h : ∀ t : Instant, t.nanos ≠ millis * 1000000) :
      Defective limits now raw .instant .unrepresentableTime
  | payload {envelope : Envelope} {type : EventType} {m : Mismatch}
      (henvelope : HasEnvelope raw envelope) (htype : envelope.typeName = type.name)
      (h : FirstUnmet (payloadRequirements type raw) m) :
      Defective limits now raw .payload (.malformed type m)
  | violation {members : Members} {v : Violation} (hraw : raw = .object members)
      (h : Violates limits now members v) : Defective limits now raw (.violation v) (.invalid v)

/-! ## Requirements on events -/

section Violates

variable {limits : Limits} {now time : Instant} {members : Members} {type : EventType}

/-- The requirements one by one: what they ask of the members is what the validators look at. -/
theorem violates_timestamp_iff (hdenotes : Denotes now (members.lookup "timestamp") time) :
    Violates limits now members .timestamp ↔ limits.allowsTime now time = false := by
  constructor
  · rintro ⟨hdenotes', h⟩
    rwa [hdenotes.unique hdenotes']
  · exact .timestamp hdenotes

theorem violates_appVersion_iff :
    Violates limits now members .appVersion ↔ ¬ Fills members "app_version" :=
  ⟨fun | .appVersion h => h, .appVersion⟩

/-- A platform is only missing if there is nothing but blanks in it. -/
theorem violates_platform_iff : Violates limits now members .platform ↔
    ¬ ∃ s, members.lookup "platform" = some (.text s) ∧ ∃ c ∈ s.toList, Text.isBlank c = false :=
  ⟨fun | .platform h => h, .platform⟩

theorem violates_deviceId_iff :
    Violates limits now members .deviceId ↔ ¬ Fills members "device_id" :=
  ⟨fun | .deviceId h => h, .deviceId⟩

theorem violates_sessionId_iff :
    Violates limits now members .sessionId ↔ ¬ Fills members "session_id" :=
  ⟨fun | .sessionId h => h, .sessionId⟩

/-- The name of the scene matters for scenes alone. -/
theorem violates_sceneName_iff (hdeclares : members.lookup "type" = some (.text type.name)) :
    Violates limits now members .sceneName ↔ type = .sceneLoad ∧ ¬ Fills members "scene_name" := by
  constructor
  · intro h
    cases h with
    | sceneName htype hdeclares' h =>
      cases EventType.eq_of_declares hdeclares hdeclares'
      exact ⟨htype, h⟩
  · rintro ⟨htype, h⟩
    exact .sceneName htype hdeclares h

/-- The fingerprint matters for exceptions and crashes alone. -/
theorem violates_fingerprint_iff (hdeclares : members.lookup "type" = some (.text type.name)) :
    Violates limits now members .fingerprint ↔
      (type = .exception ∨ type = .crash) ∧ ¬ Fills members "fingerprint" := by
  constructor
  · intro h
    cases h with
    | fingerprint htype hdeclares' h =>
      cases EventType.eq_of_declares hdeclares hdeclares'
      exact ⟨htype, h⟩
  · rintro ⟨htype, h⟩
    exact .fingerprint htype hdeclares h

/-- What is said about a requirement on events is which it is. -/
def Violation.requirement (limits : Limits) (now : Instant) (members : Members) (v : Violation) :
    Requirement Violation := fun v' => Violates limits now members v ∧ v' = v

/-- What is stored is empty just if the member fills nothing. -/
theorem isEmpty_textOf_iff {name : String} :
    (textOf members name).isEmpty = true ↔ ¬ Fills members name := by
  rw [String.isEmpty_iff, ← textOf_ne_empty_iff, not_not]

/-- The label of a platform is empty just if the text is blank, since making a label never leaves
nothing of a text that is not. -/
theorem isEmpty_platform_iff :
    (Event.ofPayload members type time).context.platform.isEmpty = true ↔
      ¬ ∃ s, members.lookup "platform" = some (.text s) ∧
        ∃ c ∈ s.toList, Text.isBlank c = false := by
  simp only [Event.ofPayload]
  rw [String.isEmpty_iff, ← platformLabel_textOf_ne_empty_iff, not_not]

/-- A test at the front of a check that finds a requirement not met. -/
theorem Violation.enforces_ite {v : Violation} {refused : Prop} [Decidable refused]
    {check : Except Violation Unit} {rs : List (Requirement Violation)}
    (hrefused : Violates limits now members v ↔ refused) (h : Enforces check rs) :
    Enforces (if refused then .error v else check) (v.requirement limits now members :: rs) :=
  SpikeWatch.enforces_ite (fun _ => and_congr_left' hrefused) fun _ => h

/-- The validators of the details, for every type: those that the type does not have are met by all
events of that type. -/
theorem Limits.enforces_checkDetails (hdeclares : members.lookup "type" = some (.text type.name)) :
    Enforces (checkDetails (Details.ofPayload members type))
      ([.sceneName, .fingerprint].map (Violation.requirement limits now members)) := by
  have hscene : Violates limits now members .sceneName ↔ _ := violates_sceneName_iff hdeclares
  have hfingerprint : Violates limits now members .fingerprint ↔ _ :=
    violates_fingerprint_iff hdeclares
  have hsceneMet (h : type ≠ .sceneLoad) :
      (Violation.sceneName.requirement limits now members).Met := fun _ hr =>
    h (hscene.1 hr.1).1
  have hfingerprintMet (h : ¬ (type = .exception ∨ type = .crash)) :
      (Violation.fingerprint.requirement limits now members).Met := fun _ hr =>
    h (hfingerprint.1 hr.1).1
  -- Four of the six types have nothing to check here, and both requirements are met for them
  -- because they speak of other types.
  cases type with
  | sceneLoad =>
    rw [and_iff_right rfl, ← isEmpty_textOf_iff] at hscene
    exact Violation.enforces_ite hscene <|
      enforces_of_met (hfingerprintMet (by decide)) (enforces_ok ())
  | exception =>
    rw [and_iff_right (.inl rfl), ← isEmpty_textOf_iff] at hfingerprint
    exact enforces_of_met (hsceneMet nofun) (Violation.enforces_ite hfingerprint (enforces_ok ()))
  | crash =>
    rw [and_iff_right (.inr rfl), ← isEmpty_textOf_iff] at hfingerprint
    exact enforces_of_met (hsceneMet nofun) (Violation.enforces_ite hfingerprint (enforces_ok ()))
  | _ =>
    exact enforces_of_met (hsceneMet nofun) <|
      enforces_of_met (hfingerprintMet nofun) (enforces_ok ())

/-- The validators in their order, on an event whose members and instant are known. -/
theorem Limits.enforces_check (hdeclares : members.lookup "type" = some (.text type.name))
    (hdenotes : Denotes now (members.lookup "timestamp") time) :
    Enforces (limits.check now (Event.ofPayload members type time))
      (Violation.order.map (Violation.requirement limits now members)) := by
  have htime : Violates limits now members .timestamp ↔ (!limits.allowsTime now time) = true := by
    rw [violates_timestamp_iff hdenotes, Bool.not_eq_true']
  exact Violation.enforces_ite htime <|
    Violation.enforces_ite (violates_appVersion_iff.trans isEmpty_textOf_iff.symm) <|
    Violation.enforces_ite (violates_platform_iff.trans isEmpty_platform_iff.symm) <|
    Violation.enforces_ite (violates_deviceId_iff.trans isEmpty_textOf_iff.symm) <|
    Violation.enforces_ite (violates_sessionId_iff.trans isEmpty_textOf_iff.symm) <|
    enforces_checkDetails hdeclares

end Violates

/-! ## The steps -/

section Defective

variable {limits : Limits} {now : Instant} {raw : Value} {r : Rejection}

/-- The steps one by one: when an event has their defect, given that it has none of those in
front. -/
theorem defective_envelope_iff : Defective limits now raw .envelope r ↔
    (∀ envelope, ¬ HasEnvelope raw envelope) ∧ r = .invalidFormat := by
  constructor
  · rintro ⟨⟩
    exact ⟨by assumption, rfl⟩
  · rintro ⟨h, rfl⟩
    exact .envelope h

variable {envelope : Envelope} {type : EventType} (henvelope : HasEnvelope raw envelope)
include henvelope

theorem defective_type_iff : Defective limits now raw .type r ↔
    (∀ type : EventType, envelope.typeName ≠ type.name) ∧ r = .unknownType envelope.typeName := by
  constructor
  · intro h
    cases h with
    | type henvelope' h =>
      cases henvelope.unique henvelope'
      exact ⟨h, rfl⟩
  · rintro ⟨h, rfl⟩
    exact .type henvelope h

theorem defective_instant_iff : Defective limits now raw .instant r ↔
    resolveTime now envelope.timestamp = .error r := by
  rw [resolveTime_eq_error_iff]
  constructor
  · intro h
    cases h with
    | instant henvelope' hgives hne h =>
      cases henvelope.unique henvelope'
      exact ⟨_, hgives, hne, h, rfl⟩
  · rintro ⟨millis, hgives, hne, h, rfl⟩
    exact .instant henvelope hgives hne h

theorem defective_payload_iff (htype : envelope.typeName = type.name) :
    Defective limits now raw .payload r ↔
      ∃ m, Event.decode type raw = .error m ∧ r = .malformed type m := by
  simp only [Event.decode_eq_error_iff]
  constructor
  · intro h
    cases h with
    | payload henvelope' htype' h =>
      cases henvelope.unique henvelope'
      cases EventType.name_injective (htype.symm.trans htype')
      exact ⟨_, h, rfl⟩
  · rintro ⟨m, h, rfl⟩
    exact .payload henvelope htype h

end Defective

/-- What an event violates is reported under one heading. -/
theorem defective_violation_eq (limits : Limits) (now : Instant) (members : Members)
    (v : Violation) : Defective limits now (.object members) (.violation v) =
      (v.requirement limits now members).reworded .invalid := by
  funext r
  refine propext ⟨?_, ?_⟩
  · intro h
    cases h with
    | violation hraw h =>
      cases hraw
      exact ⟨v, ⟨h, rfl⟩, rfl⟩
  · rintro ⟨_, ⟨h, rfl⟩, rfl⟩
    exact .violation rfl h

/-- The last steps, for a payload that was decoded. -/
theorem enforces_check_settled {limits : Limits} {now time : Instant} {members : Members}
    {type : EventType} (hdeclares : members.lookup "type" = some (.text type.name))
    (hdenotes : Denotes now (members.lookup "timestamp") time) :
    Enforces
      (match limits.check now (Event.ofPayload members type time) with
        | .error v => .error (.invalid v)
        | .ok () => .ok (Event.ofPayload members type time))
      ((Violation.order.map .violation).map (Defective limits now (.object members))) := by
  have hsteps : (Violation.order.map .violation).map (Defective limits now (.object members)) =
      (Violation.order.map (Violation.requirement limits now members)).map
        (.reworded .invalid) := by
    rw [List.map_map, List.map_map]
    exact List.map_congr_left fun v _ => defective_violation_eq limits now members v
  intro r
  rw [hsteps, firstUnmet_map_reworded_iff]
  simp only [← Limits.enforces_check hdeclares hdenotes _]
  cases limits.check now (Event.ofPayload members type time) <;> simp

/-- **Judging an event looks for one defect after the other.** -/
theorem enforces_judge (limits : Limits) (now : Instant) (raw : Value) :
    Enforces (judge limits now raw) (Defect.order.map (Defective limits now raw)) := by
  rw [judge]
  cases henvelope : Envelope.ofValue? raw with
  | none =>
    have hnone : ∀ envelope, ¬ HasEnvelope raw envelope := by
      simp [hasEnvelope_iff, henvelope]
    exact enforces_of_unmet (fun r => defective_envelope_iff.trans (and_iff_right hnone)) _
  | some envelope =>
    have hhas : HasEnvelope raw envelope := hasEnvelope_iff.2 henvelope
    -- From here on the envelope is known, and all other defects speak of this envelope.
    refine enforces_of_met (fun r hr => (defective_envelope_iff.1 hr).1 envelope hhas) ?_
    dsimp only
    cases htype : EventType.ofName? envelope.typeName with
    | none =>
      have hunknown : ∀ type : EventType, envelope.typeName ≠ type.name := by
        simp [← EventType.ofName?_eq_some_iff, htype]
      exact enforces_of_unmet (fun r => (defective_type_iff hhas).trans (and_iff_right hunknown)) _
    | some type =>
      have hname : envelope.typeName = type.name := EventType.ofName?_eq_some_iff.1 htype
      refine enforces_of_met (fun r hr => ((defective_type_iff hhas).1 hr).1 type hname) ?_
      dsimp only
      cases htime : resolveTime now envelope.timestamp with
      | error r =>
        refine enforces_of_unmet (fun r' => ?_) _
        rw [defective_instant_iff hhas, htime, Except.error.injEq, eq_comm]
      | ok time =>
        refine enforces_of_met (fun r hr => ?_) ?_
        · rw [defective_instant_iff hhas, htime] at hr
          cases hr
        dsimp only
        cases hdecode : Event.decode type raw with
        | error m =>
          refine enforces_of_unmet (fun r => ?_) _
          simp [defective_payload_iff hhas hname, hdecode]
        | ok decoded =>
          refine enforces_of_met (fun r hr => ?_) ?_
          · simp [defective_payload_iff hhas hname, hdecode] at hr
          obtain ⟨members, rfl, -, rfl⟩ := Event.decode_eq_ok_iff.1 hdecode
          obtain ⟨hdeclares, hdenotes⟩ :=
            Envelope.exists_ofValue?_iff.1 ⟨_, henvelope, htype, htime⟩
          exact enforces_check_settled hdeclares hdenotes

/-- No defect is left out of the order. -/
theorem Defect.mem_order (d : Defect) : d ∈ order := by
  cases d with
  | violation v => cases v <;> decide
  | _ => decide

/-- An event is accepted just if it has no defect at all. -/
theorem exists_judge_eq_ok_iff {limits : Limits} {now : Instant} {raw : Value} :
    (∃ e, judge limits now raw = .ok e) ↔ ∀ d r, ¬ Defective limits now raw d r := by
  rw [(enforces_judge limits now raw).exists_ok_iff, List.forall_mem_map]
  exact ⟨fun h d => h d d.mem_order, fun h d _ => h d⟩

/-- **The documented order** is that of the steps, but for events whose type is unknown and whose
timestamp cannot be represented either. -/
theorem firstUnmet_documented_iff (limits : Limits) (now : Instant) (raw : Value) :
    (∀ r, FirstUnmet (Defect.documented.map (Defective limits now raw)) r ↔
      FirstUnmet (Defect.order.map (Defective limits now raw)) r) ↔
    ¬ ((∃ r, Defective limits now raw .type r) ∧ ∃ r, Defective limits now raw .instant r) := by
  constructor
  · rintro horders ⟨⟨r, htype⟩, r', hinstant⟩
    have henvelope : (Defective limits now raw .envelope).Met := by
      rintro _ ⟨hnone⟩
      cases htype with
      | type h => exact hnone _ h
    have hfirst : FirstUnmet (Defect.order.map (Defective limits now raw)) r :=
      firstUnmet_cons_iff.2 (.inr ⟨henvelope, firstUnmet_cons_iff.2 (.inl htype)⟩)
    rw [← horders] at hfirst
    rcases firstUnmet_cons_iff.1 hfirst with h | ⟨-, h⟩
    · exact henvelope r h
    · rcases firstUnmet_cons_iff.1 h with h | ⟨h, -⟩
      · cases htype
        cases h
      · exact h r' hinstant
  · intro h r
    -- Neighbours in the order may change places if one of them finds nothing.
    have hmet : (Defective limits now raw .instant).Met ∨ (Defective limits now raw .type).Met := by
      rw [Requirement.Met, Requirement.Met, ← not_exists, ← not_exists, ← not_and_or, and_comm]
      exact h
    refine firstUnmet_cons_iff.trans (Iff.trans ?_ firstUnmet_cons_iff.symm)
    exact or_congr_right (and_congr_right' (firstUnmet_swap hmet))

/-- A line tells its reason. -/
theorem errorLine_right_inj {place : Nat} {reason reason' : String} :
    errorLine place reason = errorLine place reason' ↔ reason = reason' := by
  constructor
  · intro h
    rw [← lineReason_errorLine place reason, h, lineReason_errorLine]
  · rintro rfl
    rfl

namespace Pipeline

/-- **A line is about the first defect.**  If an event has defects, then there is one line about it,
which says what is to be said about the first of them in the order of the steps; and if it has none,
then there is no line.  The documented order gives another line just if the type is unknown and the
timestamp cannot be represented. -/
theorem linesAbout_first_defect (p : Pipeline) (raw : Value) (before after : List Value) :
    let lines := linesAbout before.length (p.dispatch (before ++ raw :: after)).2.errors
    let defective := Defective p.limits p.now raw
    (∀ reason, lines = [errorLine before.length reason] ↔
      ∃ r, FirstUnmet (Defect.order.map defective) r ∧ r.message = reason) ∧
    (lines = [] ↔ ∀ d r, ¬ defective d r) ∧
    ((∀ r, FirstUnmet (Defect.documented.map defective) r ↔
        FirstUnmet (Defect.order.map defective) r) ↔
      ¬ ((∃ r, defective .type r) ∧ ∃ r, defective .instant r)) := by
  intro lines defective
  have hlines : lines =
      ((judgeReason? p.limits p.now raw).map (errorLine before.length)).toList := by
    rw [← rejection?_eq]
    exact p.linesAbout_errors before after raw
  refine ⟨fun reason => ?_, ?_, firstUnmet_documented_iff p.limits p.now raw⟩
  · have hfirst (r : Rejection) : judge p.limits p.now raw = .error r ↔
        FirstUnmet (Defect.order.map defective) r := enforces_judge p.limits p.now raw r
    simp only [hlines, ← hfirst, judgeReason?]
    cases judge p.limits p.now raw with
    | ok e => simp
    | error r => simp [errorLine_right_inj]
  · rw [← exists_judge_eq_ok_iff, hlines, judgeReason?]
    cases judge p.limits p.now raw <;> simp

/-- An event of an unknown type with the greatest timestamp of sixty-four bits. -/
theorem not_forall_linesAbout_documented :
    let p : Pipeline := { now := { nanos := 1700000000000000000 } }
    let raw : Value := .object [("timestamp", .number (.whole 9223372036854775807)),
      ("type", .text "bogus")]
    (p.dispatch [raw]).2.errors = ["event 0: unknown event type \"bogus\""] ∧
      ¬ ∀ (p : Pipeline) (raw : Value) (before after : List Value) (r : Rejection),
        FirstUnmet (Defect.documented.map (Defective p.limits p.now raw)) r →
          linesAbout before.length (p.dispatch (before ++ raw :: after)).2.errors =
            [errorLine before.length r.message] := by
  intro p raw
  have herrors : (p.dispatch [raw]).2.errors = ["event 0: unknown event type \"bogus\""] := by
    decide +kernel
  have henvelope : HasEnvelope raw ⟨"bogus", some 9223372036854775807⟩ :=
    hasEnvelope_iff.2 (by decide +kernel)
  have hinstant : Defective p.limits p.now raw .instant .unrepresentableTime := by
    refine .instant henvelope rfl (by decide) fun t ht => ?_
    have := t.le_last
    rw [Instant.lastNanos] at this
    omega
  have hfirst : FirstUnmet (Defect.documented.map (Defective p.limits p.now raw))
      .unrepresentableTime := by
    refine firstUnmet_cons_iff.2 (.inr ⟨?_, firstUnmet_cons_iff.2 (.inl hinstant)⟩)
    rintro _ ⟨hnone⟩
    exact hnone _ henvelope
  refine ⟨herrors, fun h => ?_⟩
  have hline := h p raw [] [] .unrepresentableTime hfirst
  rw [List.nil_append, herrors] at hline
  exact absurd hline (by decide +kernel)

end Pipeline

end SpikeWatch
