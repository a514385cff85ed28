import SpikeWatch.Pipeline.Lines
import SpikeWatch.Proofs.Pipeline.Effect

/-!
# A clock that goes on

A pipeline dispatches a batch at one instant.  A clock goes on while that is done, or is even set:
it is looked at when an event without a time of its own comes in, when the time of an event is
checked, and when an occurrence is counted.  `Readings` are what it says each time, and `dispatchAt`
and `takeLinesAt` go by them.

* `Pipeline.dispatchAt_still`: if the clock always says the same, that is `Pipeline.dispatch`.
* `Pipeline.takeLines_eq`: if it says the same throughout each line, that is `Pipeline.takeLines`.
-/

set_option autoImplicit false

namespace SpikeWatch

open Json (Value)

/-! ## Dispatching by readings -/

/-- What the clock says while a batch is dispatched. -/
structure Readings where
  /-- When the event at a place of the batch comes in. -/
  arrival : Nat → Instant
  /-- When the time of the event at a place of the batch is checked. -/
  check : Nat → Instant
  /-- When an occurrence is counted, by its place among those of the batch. -/
  count : Nat → Instant

/-- The clock always says the same. -/
def Readings.still (now : Instant) : Readings := ⟨fun _ => now, fun _ => now, fun _ => now⟩

/-- The accepted event that a raw event stands for, or why it is rejected, if it comes in at one
instant and is checked at another. -/
def judgeAt (limits : Limits) (arrival check : Instant) (raw : Value) : Except Rejection Event :=
  match Envelope.ofValue? raw with
  | none => .error .invalidFormat
  | some envelope =>
    match EventType.ofName? envelope.typeName with
    | none => .error (.unknownType envelope.typeName)
    | some type =>
      match resolveTime arrival envelope.timestamp with
      | .error r => .error r
      | .ok timestamp =>
        match Event.decode type raw with
        | .error m => .error (.malformed type m)
        | .ok decoded =>
          let event := decoded.settle timestamp
          match limits.check check event with
          | .error v => .error (.invalid v)
          | .ok () => .ok event

/-- If both readings are the same, an event is judged as at a frozen clock. -/
theorem judgeAt_still (limits : Limits) (now : Instant) (raw : Value) :
    judgeAt limits now now raw = judge limits now raw := rfl

/-- The accepted events of a batch in their order, and a line for each of the others. -/
def sortBatchAt (limits : Limits) (clock : Readings) : Nat → List Value → List Event × List String
  | _, [] => ([], [])
  | index, raw :: rest =>
    let (accepted, errors) := sortBatchAt limits clock (index + 1) rest
    match judgeAt limits (clock.arrival index) (clock.check index) raw with
    | .ok event => (event :: accepted, errors)
    | .error r =>
      (accepted, ("event " ++ String.ofList (Decimal.digits index) ++ ": " ++ r.message) :: errors)

theorem sortBatchAt_still (limits : Limits) (now : Instant) (index : Nat) (raws : List Value) :
    sortBatchAt limits (.still now) index raws = sortBatch limits now index raws := by
  induction raws generalizing index with
  | nil => rfl
  | cons raw rest ih =>
    have hjudge : judgeAt limits ((Readings.still now).arrival index)
        ((Readings.still now).check index) raw = judge limits now raw := judgeAt_still ..
    rw [sortBatchAt, ih, hjudge]
    rfl

/-- The events that are counted live, with their metrics, in the order in which they are. -/
def liveEvents (accepted : EventsByType) : List (Metric × Event) :=
  accepted.crashes.map (.crash, ·) ++ accepted.exceptions.map (.exception, ·) ++
    accepted.janks.map (.jank, ·)

/-- Counts events live, type by type. -/
def Counts.recordEventsAt (counts : Counts) (clock : Readings) (accepted : EventsByType) :
    Counts :=
  (liveEvents accepted).zipIdx.foldl (fun counts ((metric, e), place) =>
    counts.record (clock.count place) metric e.context.appVersion e.context.sessionId) counts

theorem Counts.recordEventsAt_still (counts : Counts) (now : Instant) (accepted : EventsByType) :
    counts.recordEventsAt (.still now) accepted = counts.recordEvents now accepted := by
  let record (counts : Counts) (live : Metric × Event) : Counts :=
    counts.record now live.1 live.2.context.appVersion live.2.context.sessionId
  have hplace :
      (liveEvents accepted).zipIdx.foldl (fun counts live => record counts live.1) counts =
        (liveEvents accepted).foldl record counts := by
    rw [← List.foldl_map, List.zipIdx_map_fst]
  refine Eq.trans hplace ?_
  simp only [liveEvents, List.foldl_append, List.foldl_map]
  rfl

namespace Pipeline

/-- Judges the events of a batch, counts and stores the accepted ones, and answers.  A batch without
events is counted and nothing else. -/
def dispatchAt (p : Pipeline) (clock : Readings) (raws : List Value) : Pipeline × Response :=
  if raws.isEmpty then ({ p with totals := p.totals.addBatch 0 0 }, ⟨0, 0, []⟩)
  else
    let (events, errors) := sortBatchAt p.limits clock 0 raws
    let accepted := EventsByType.ofList events
    let counts := if p.realtime then p.counts.recordEventsAt clock accepted else p.counts
    let stored := storeEvents { p with counts } accepted
    ({ stored with
        totals := stored.totals.addBatch (.ofNat accepted.len) (.ofNat errors.length) },
      ⟨accepted.len, errors.length, errors⟩)

theorem dispatchAt_still (p : Pipeline) (raws : List Value) :
    p.dispatchAt (.still p.now) raws = p.dispatch raws := by
  simp only [dispatchAt, dispatch, sortBatchAt_still, Counts.recordEventsAt_still]

/-- Dispatches the batch in the body of a request.  A body that is none changes nothing. -/
def dispatchTextAt (p : Pipeline) (clock : Readings) (body : String) :
    Except Json.Failure (Pipeline × Response) :=
  (Batch.eventsOfText body).map (p.dispatchAt clock)

/-! ## Taking lines by readings -/

/-- Dispatches the batch in a body, and writes the answer on one line. -/
def answerAt (p : Pipeline) (clock : Readings) (body : String) : Pipeline × String :=
  match p.dispatchTextAt clock body with
  | .ok (p, response) => (p, response.text)
  | .error failure => (p, refusalLine body failure)

/-- Takes a line, and answers it unless it is blank.  A line that is not text cannot be taken. -/
def takeLineAt (p : Pipeline) (clock : Readings) (line : List UInt8) :
    Option (Pipeline × Option String) :=
  (lineText? line).map fun body =>
    if Text.isBlankText body then (p, none)
    else
      let (p, answer) := p.answerAt clock body
      (p, some answer)

theorem takeLineAt_still (p : Pipeline) (line : List UInt8) :
    p.takeLineAt (.still p.now) line = p.takeLine line := by
  have hanswer (body : String) : p.answerAt (.still p.now) body = p.answer body := by
    have hdispatch : p.dispatchTextAt (.still p.now) body = p.dispatchText body :=
      congrArg (Except.map · (Batch.eventsOfText body)) (funext p.dispatchAt_still)
    cases hbody : p.dispatchText body <;> simp only [answerAt, answer, hdispatch, hbody]
  rw [takeLineAt, takeLine]
  simp only [hanswer]

/-- Takes lines one after the other, each with its own readings, up to the first that is not
text. -/
def takeLinesAt (p : Pipeline) : List (Readings × List UInt8) → Transcript
  | [] => ⟨p, [], true⟩
  | (clock, line) :: rest =>
    match p.takeLineAt clock line with
    | none => ⟨p, [], false⟩
    | some (p, answer) =>
      let transcript := p.takeLinesAt rest
      { transcript with answers := answer.toList ++ transcript.answers }

/-! ## The present of the pipeline

Readings take its place, so it may be anything. -/

/-- The pipeline at another present. -/
def withNow (p : Pipeline) (now : Instant) : Pipeline := { p with now }

end Pipeline

/-- What came of taking lines, with the pipeline at another present. -/
def Transcript.withNow (t : Transcript) (now : Instant) : Transcript :=
  { t with pipeline := t.pipeline.withNow now }

namespace Pipeline

variable (p : Pipeline) (now : Instant)

theorem storeEvents_withNow (accepted : EventsByType) :
    (p.withNow now).storeEvents accepted = (p.storeEvents accepted).withNow now := by
  refine List.foldl_hom (fun p : Pipeline => p.withNow now) fun p type => ?_
  rw [storeType_eq, storeType_eq]
  rfl

theorem dispatchAt_withNow (clock : Readings) (raws : List Value) :
    (p.withNow now).dispatchAt clock raws =
      ((p.dispatchAt clock raws).1.withNow now, (p.dispatchAt clock raws).2) := by
  have hstored (counts : Counts) (accepted : EventsByType) :
      storeEvents { p.withNow now with counts } accepted =
        (storeEvents { p with counts } accepted).withNow now :=
    storeEvents_withNow { p with counts } now accepted
  cases raws with
  | nil => rfl
  | cons raw raws =>
    simp only [dispatchAt, hstored]
    rfl

theorem takeLineAt_withNow (clock : Readings) (line : List UInt8) :
    (p.withNow now).takeLineAt clock line =
      (p.takeLineAt clock line).map fun (p, answer) => (p.withNow now, answer) := by
  have hanswer (body : String) : (p.withNow now).answerAt clock body =
      ((p.answerAt clock body).1.withNow now, (p.answerAt clock body).2) := by
    rw [answerAt, answerAt, dispatchTextAt, dispatchTextAt]
    cases Batch.eventsOfText body with
    | error failure => rfl
    | ok raws => simp only [Except.map, dispatchAt_withNow]
  rw [takeLineAt, takeLineAt, Option.map_map]
  congr 1
  funext body
  simp only [hanswer, Function.comp_apply]
  split <;> rfl

theorem takeLinesAt_withNow (lines : List (Readings × List UInt8)) :
    (p.withNow now).takeLinesAt lines = (p.takeLinesAt lines).withNow now := by
  induction lines generalizing p with
  | nil => rfl
  | cons line lines ih =>
    rw [takeLinesAt, takeLinesAt, takeLineAt_withNow]
    cases p.takeLineAt line.1 line.2 with
    | none => rfl
    | some taken =>
      simp only [Option.map_some, ih]
      rfl

/-- **The same instant throughout each line.** -/
theorem takeLines_eq (lines : List (Instant × List UInt8)) :
    ∃ now, p.takeLines lines =
      (p.takeLinesAt (lines.map fun (now, line) => (.still now, line))).withNow now := by
  induction lines generalizing p with
  | nil => exact ⟨p.now, rfl⟩
  | cons line lines ih =>
    obtain ⟨now, line⟩ := line
    have htake : { p with now }.takeLine line =
        (p.takeLineAt (.still now) line).map fun (p, answer) => (p.withNow now, answer) :=
      (takeLineAt_still (p.withNow now) line).symm.trans (takeLineAt_withNow p now _ line)
    rw [takeLines, List.map_cons, takeLinesAt, htake]
    cases p.takeLineAt (.still now) line with
    | none => exact ⟨p.now, rfl⟩
    | some taken =>
      obtain ⟨later, hrest⟩ := ih (taken.1.withNow now)
      refine ⟨later, ?_⟩
      simp only [Option.map_some, hrest, takeLinesAt_withNow]
      rfl

end Pipeline

end SpikeWatch
