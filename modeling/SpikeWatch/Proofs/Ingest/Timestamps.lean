import SpikeWatch.Pipeline.Wiring
import SpikeWatch.Proofs.Ingest.Sound
import SpikeWatch.Proofs.Pipeline.Grouping
import SpikeWatch.Proofs.Settings.Rules

/-!
# Timestamps and the present

A timestamp is held against the present, and an event that gives none takes place at the present.

* `Limits.allowsTime_exact` says that the check is that of exact arithmetic.  Moving an instant
  fails where the result would lie outside the range of instants, and then the limit is dropped.
  Nothing within the range lies beyond such a limit, so it would not have excluded anything.
* `Complete` is all that is asked of a payload but for its timestamp, and `judge_of_complete` says
  that nothing but the timestamp decides about such a payload.
* `Pipeline.dispatch_untimed`: under limits from settings that were checked, an event without a
  timestamp is neither too old nor too new.  At least an hour lies between the present and what is
  too old; what lies ahead may be excluded altogether, but the present does not lie ahead of itself.
-/

set_option autoImplicit false

namespace SpikeWatch

open Json (Value)
open Payload

/-! ## The check of a timestamp -/

/-- **The check of a timestamp is exact.**  Limits that are not negative allow a timestamp just if
it does not lie in the first millisecond of 1970, is younger than the one limit and no farther ahead
than the other, in whole numbers of any size.  A limit that leads out of the range of instants says
nothing. -/
theorem Limits.allowsTime_exact {limits : Limits} (hage : 0 ≤ limits.maxAge.nanos)
    (hskew : 0 ≤ limits.maxSkew.nanos) (now t : Instant) :
    (limits.allowsTime now t = true ↔ t.millis ≠ 0 ∧
      now.nanos - limits.maxAge.nanos < t.nanos ∧ t.nanos ≤ now.nanos + limits.maxSkew.nanos) ∧
    (now.nanos - limits.maxAge.nanos < Instant.firstNanos →
      (limits.allowsTime now t = true ↔
        t.millis ≠ 0 ∧ t.nanos ≤ now.nanos + limits.maxSkew.nanos)) ∧
    (Instant.lastNanos < now.nanos + limits.maxSkew.nanos →
      (limits.allowsTime now t = true ↔
        t.millis ≠ 0 ∧ now.nanos - limits.maxAge.nanos < t.nanos)) := by
  have hexact : limits.allowsTime now t = true ↔ t.millis ≠ 0 ∧
      now.nanos - limits.maxAge.nanos < t.nanos ∧ t.nanos ≤ now.nanos + limits.maxSkew.nanos := by
    rw [allowsTime_eq_true_iff hage hskew, Instant.millis_ne_zero_iff]
  refine ⟨hexact, fun hout => ?_, fun hout => ?_⟩
  · have hyoung : now.nanos - limits.maxAge.nanos < t.nanos := Int.lt_of_lt_of_le hout t.first_le
    rw [hexact, and_iff_right hyoung]
  · have hnotAhead : t.nanos ≤ now.nanos + limits.maxSkew.nanos :=
      Int.le_of_lt (Int.lt_of_le_of_lt t.le_last hout)
    rw [hexact, and_iff_left hnotAhead]

/-- The present is the last instant.  The longest duration leads out of the range and excludes
nothing, and a limit of one nanosecond excludes the instant one nanosecond ago. -/
theorem Limits.allowsTime_exact_at_end :
    let limits : Limits := { maxAge := ⟨1⟩, maxSkew := .ofMillis 9223372036854775807 }
    let now : Instant := { nanos := Instant.lastNanos }
    let before : Instant := { nanos := Instant.lastNanos - 1 }
    0 ≤ limits.maxAge.nanos ∧ 0 ≤ limits.maxSkew.nanos ∧ now.add? limits.maxSkew = none ∧
      limits.allowsTime now now = true ∧ ¬ limits.allowsTime now before = true := by
  intro limits now before
  have hage : 0 ≤ limits.maxAge.nanos := by decide
  have hskew : 0 ≤ limits.maxSkew.nanos := by decide
  refine ⟨hage, hskew, by decide, ?_, ?_⟩
  · rw [(allowsTime_exact hage hskew now now).1]
    decide
  · rw [(allowsTime_exact hage hskew now before).1]
    decide

/-! ## Payloads but for their timestamps -/

/-- A payload of a type of which nothing is left to ask but its timestamp. -/
structure Complete (members : Members) (type : EventType) : Prop where
  declares : members.lookup "type" = some (.text type.name)
  holds : ∀ f ∈ type.fields ++ Context.fields, Holds members f
  fills : ∀ name ∈ ["app_version", "device_id", "session_id"] ++ type.required,
    Fills members name
  platform : ∃ s, members.lookup "platform" = some (.text s) ∧
    ∃ c ∈ s.toList, Text.isBlank c = false

/-- Acceptable payloads are complete, and have a timestamp that is allowed. -/
theorem acceptable_iff {limits : Limits} {now time : Instant} {members : Members}
    {type : EventType} : Acceptable limits now members type time ↔
      Complete members type ∧ Denotes now (members.lookup "timestamp") time ∧
        limits.allowsTime now time = true := by
  constructor
  · intro h
    exact ⟨⟨h.declares, h.holds, h.fills, h.platform⟩, h.denotes, h.allows⟩
  · rintro ⟨h, hdenotes, hallows⟩
    exact ⟨h.declares, hdenotes, h.holds, hallows, h.fills, h.platform⟩

/-- Of a complete payload only the timestamp is left to be checked. -/
theorem judge_of_complete {limits : Limits} {now time : Instant} {members : Members}
    {type : EventType} (h : Complete members type)
    (htime : Denotes now (members.lookup "timestamp") time) :
    judge limits now (.object members) =
      if limits.allowsTime now time then .ok (Event.ofPayload members type time)
      else .error (.invalid .timestamp) := by
  cases hallows : limits.allowsTime now time with
  | true =>
    have hacceptable := acceptable_iff.2 ⟨h, htime, hallows⟩
    exact judge_eq_ok_iff.2 ⟨members, type, time, rfl, hacceptable, rfl⟩
  | false =>
    obtain ⟨envelope, henvelope, htype, hresolve⟩ :=
      Envelope.exists_ofValue?_iff.2 ⟨h.declares, htime⟩
    have hdecode := Event.decode_eq_ok_iff.2 ⟨members, rfl, h.holds, rfl⟩
    have hcheck : limits.check now (Event.ofPayload members type time) = .error .timestamp := by
      simp [Limits.check, Event.ofPayload, hallows]
    have hsettle : Event.settle time ⟨Context.ofPayload members, Details.ofPayload members type⟩ =
        Event.ofPayload members type time := rfl
    simp only [judge, henvelope, htype, hresolve, hdecode, hsettle, hcheck]
    rfl

/-! ## Events without a timestamp -/

/-- The member for the timestamp is not there, or it says that there is none. -/
def Untimed (members : Members) : Prop :=
  members.lookup "timestamp" ∈ [none, some .null, some (.number (.whole 0))]

/-- Without a timestamp, an event takes place at the present. -/
theorem denotes_of_untimed {members : Members} (h : Untimed members) (now : Instant) :
    Denotes now (members.lookup "timestamp") now := by
  rw [Untimed] at h
  generalize members.lookup "timestamp" = v? at h ⊢
  simp only [List.mem_cons, List.not_mem_nil, or_false] at h
  rcases h with rfl | rfl | rfl
  · exact .absent
  · exact .null
  · exact .zero

/-- Under limits from settings that were checked, the present is neither too old nor too new. -/
theorem Settings.allowsTime_self_iff {s : Settings} (h : s.check = .ok ()) (now : Instant) :
    s.ingest.limits.allowsTime now now = true ↔ now.millis ≠ 0 := by
  obtain ⟨hranged, -⟩ := check_eq_ok_iff.1 h
  have hhours : 1 ≤ s.ingest.maxEventAgeHours.toNat :=
    (hranged (.maxEventAgeHours, s.ingest.maxEventAgeHours) List.mem_cons_self).1
  have hage : 0 < s.ingest.limits.maxAge.nanos := by
    simp only [Ingest.limits, Duration.ofHours, Duration.ofSeconds, maxEventAgeHours]
    omega
  have hskew : 0 ≤ s.ingest.limits.maxSkew.nanos := by
    simp only [Ingest.limits, Duration.ofMinutes, Duration.ofSeconds, maxFutureSkewMinutes]
    omega
  rw [Limits.allowsTime_eq_true_iff (Int.le_of_lt hage) hskew, ← Instant.millis_ne_zero_iff]
  refine and_iff_left ⟨?_, ?_⟩ <;> omega

/-- Only the present decides about a complete payload without a timestamp. -/
theorem judge_of_untimed {s : Settings} (hs : s.check = .ok ()) {members : Members}
    {type : EventType} (hcomplete : Complete members type) (huntimed : Untimed members)
    (now : Instant) :
    judge s.ingest.limits now (.object members) =
      if now.millis ≠ 0 then .ok (Event.ofPayload members type now)
      else .error (.invalid .timestamp) := by
  rw [judge_of_complete hcomplete (denotes_of_untimed huntimed now)]
  simp only [Settings.allowsTime_self_iff hs]

namespace Pipeline

/-! What is made of one event does not depend on those around it. -/

section Alone

variable {p : Pipeline} {raw : Value} {event : Event} {r : Rejection} (before after : List Value)

/-- What is accepted of a batch, seen from one of its events. -/
theorem accepted_insert : p.accepted (before ++ raw :: after) =
    p.accepted before ++ (p.accepted [raw] ++ p.accepted after) := by
  rw [← accepted_append, ← accepted_append]
  rfl

/-- An accepted event stands between those in front of it and those behind it. -/
theorem accepted_insert_of_ok (h : judge p.limits p.now raw = .ok event) :
    p.accepted (before ++ raw :: after) = p.accepted before ++ event :: p.accepted after := by
  rw [accepted_insert, accepted_singleton_iff.2 h]
  rfl

theorem accepted_singleton_of_error (h : judge p.limits p.now raw = .error r) :
    p.accepted [raw] = [] := by
  simp [accepted_eq, h, Except.toOption]

/-- A rejected event leaves no trace among them. -/
theorem accepted_insert_of_error (h : judge p.limits p.now raw = .error r) :
    p.accepted (before ++ raw :: after) = p.accepted before ++ p.accepted after := by
  rw [accepted_insert, accepted_singleton_of_error h]
  rfl

theorem rejection?_of_error (h : judge p.limits p.now raw = .error r) :
    p.rejection? raw = some r.message := by
  rw [rejection?_eq, judgeReason?, h]

/-- There is a line about a rejected event, with its place. -/
theorem errorLine_mem_of_error (h : judge p.limits p.now raw = .error r) :
    errorLine before.length r.message ∈ (p.dispatch (before ++ raw :: after)).2.errors := by
  rw [dispatch_response]
  dsimp only
  rw [errorLines_eq, List.mem_filterMap]
  refine ⟨(raw, before.length), ?_, by simp [rejection?_of_error h]⟩
  simp [List.mk_mem_zipIdx_iff_getElem?]

theorem dispatch_singleton_of_ok (h : judge p.limits p.now raw = .ok event) :
    (p.dispatch [raw]).2 = ⟨1, 0, []⟩ := by
  have herrors : p.errorLines [raw] = [] := by
    simp [errorLines_eq, rejection?_eq, judgeReason?, h]
  rw [dispatch_response, accepted_singleton_iff.2 h, herrors]
  rfl

theorem dispatch_singleton_of_error (h : judge p.limits p.now raw = .error r) :
    (p.dispatch [raw]).2 = ⟨0, 1, [errorLine 0 r.message]⟩ := by
  have herrors : p.errorLines [raw] = [errorLine 0 r.message] := by
    simp [errorLines_eq, rejection?_of_error h]
  rw [dispatch_response, accepted_singleton_of_error h, herrors]
  rfl

end Alone

/-- **An event without a timestamp is never too old or too new.**  Settings were checked, and the
limits of a pipeline are theirs.  Then an event that is complete but gives no timestamp is accepted
at the present, wherever it stands in a batch; only if the present itself lies in the first
millisecond of 1970, which no timestamp may, is it rejected for that. -/
theorem dispatch_untimed {s : Settings} (hs : s.check = .ok ()) {p : Pipeline}
    (hp : p.limits = s.ingest.limits) {members : Members} {type : EventType}
    (hcomplete : Complete members type) (huntimed : Untimed members) (before after : List Value) :
    let raw := Value.object members
    let event := Event.ofPayload members type p.now
    let batch := before ++ raw :: after
    event.context.timestamp = p.now ∧
    (p.now.millis ≠ 0 → (p.dispatch [raw]).2 = ⟨1, 0, []⟩ ∧
      p.accepted batch = p.accepted before ++ event :: p.accepted after) ∧
    (p.now.millis = 0 → (p.dispatch [raw]).2 = ⟨0, 1, [errorLine 0 "invalid timestamp"]⟩ ∧
      p.accepted batch = p.accepted before ++ p.accepted after ∧
      errorLine before.length "invalid timestamp" ∈ (p.dispatch batch).2.errors) := by
  intro raw event batch
  have hjudge := judge_of_untimed hs hcomplete huntimed p.now
  rw [← hp] at hjudge
  refine ⟨rfl, fun hnow => ?_, fun hnow => ?_⟩
  · rw [if_pos hnow] at hjudge
    exact ⟨dispatch_singleton_of_ok hjudge, accepted_insert_of_ok before after hjudge⟩
  · rw [if_neg (not_not.2 hnow)] at hjudge
    exact ⟨dispatch_singleton_of_error hjudge, accepted_insert_of_error before after hjudge,
      errorLine_mem_of_error before after hjudge⟩

/-- No skew is allowed.  At the end of time the present is the last instant that is allowed, and at
the beginning of 1970 it is none. -/
theorem dispatch_untimed_at_edges :
    let s : Settings := { ingest := { maxEventAgeHours := 1, maxFutureSkewMinutes := 0 } }
    let p (now : Instant) : Pipeline := ofSettings s now (.memory {})
    let members : Members := [("app_version", .text "1"), ("device_id", .text "d"),
      ("platform", .text "ios"), ("session_id", .text "s"), ("timestamp", .number (.whole 0)),
      ("type", .text "jank")]
    let raw := Value.object members
    let last : Instant := { nanos := Instant.lastNanos }
    s.check = .ok () ∧ Complete members .jank ∧ Untimed members ∧
      ((p last).dispatch [raw]).2 = ⟨1, 0, []⟩ ∧
      ((p .epoch).dispatch [raw]).2 = ⟨0, 1, ["event 0: invalid timestamp"]⟩ := by
  intro s p members raw last
  have hcheck : s.check = .ok () := rfl
  have hdecode : Event.decode .jank raw = .ok {
    context := { appVersion := "1", deviceId := "d", platform := "ios", sessionId := "s" }
    details := .jank {} } := rfl
  have hcomplete : Complete members .jank := by
    obtain ⟨_, hraw, hholds, -⟩ := Event.decode_eq_ok_iff.1 hdecode
    rw [← Value.object.inj hraw] at hholds
    have happVersion : Fills members "app_version" := ⟨"1", rfl, by decide⟩
    have hdeviceId : Fills members "device_id" := ⟨"d", rfl, by decide⟩
    have hsessionId : Fills members "session_id" := ⟨"s", rfl, by decide⟩
    refine ⟨rfl, hholds, ?_, ⟨"ios", rfl, 'i', by decide, by decide⟩⟩
    simp [EventType.required, happVersion, hdeviceId, hsessionId]
  have huntimed : Untimed members := .tail _ (.tail _ (.head _))
  obtain ⟨-, haccepted, -⟩ :=
    dispatch_untimed hcheck (p := p last) rfl hcomplete huntimed [] []
  obtain ⟨-, -, hrejected⟩ :=
    dispatch_untimed hcheck (p := p .epoch) rfl hcomplete huntimed [] []
  exact ⟨hcheck, hcomplete, huntimed, (haccepted (by decide)).1, (hrejected (by decide)).1⟩

end Pipeline

end SpikeWatch
