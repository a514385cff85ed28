import SpikeWatch.Proofs.Pipeline.Batch

/-!
# Counting the events of a batch

Which events are counted live is said twice: each type has a metric or none, and a batch counts
three of the types one after the other.  Both come to the same (`Pipeline.counts_dispatch_exact`).

* `Pipeline.recordEvent` counts a single event by the metric of its type, at the present.
* `Event.trace?` is all that live counts see of an event.  What else it holds is not looked at, its
  own count of repetitions included, and of three types nothing is seen at all.
-/

set_option autoImplicit false

namespace SpikeWatch

open Json (Value)

/-! ## One event -/

/-- What the live counts see of an event, if anything. -/
def Event.trace? (e : Event) : Option (EventType × String × String) :=
  match e.type with
  | .perfSample | .startup | .sceneLoad => none
  | type => some (type, e.context.appVersion, e.context.sessionId)

theorem Event.occurrence?_eq (now : Instant) (e : Event) :
    e.occurrence? now = e.trace?.bind fun (type, version, session) =>
      type.metric?.map fun m => ⟨now, m, version, session⟩ := by
  rw [occurrence?, metric?, trace?]
  cases e.type <;> rfl

theorem Counts.rate_fst (counts : Counts) (m : Metric) (v : String) :
    (counts.rate m v).1 = (counts.table m)[v]?.elim 0 Entry.count := by
  rw [rate]
  cases (counts.table m)[v]? <;> rfl

namespace Pipeline

/-- Counts an event live, if its type has a metric. -/
def recordEvent (p : Pipeline) (e : Event) : Pipeline :=
  match e.metric? with
  | some m => p.record m e.context.appVersion e.context.sessionId
  | none => p

theorem foldl_recordEvent (p : Pipeline) (events : List Event) :
    events.foldl recordEvent p = { p with
      counts := (events.filterMap (Event.occurrence? p.now)).foldl Counts.add p.counts } := by
  induction events generalizing p with
  | nil => rfl
  | cons e events ih =>
    rw [List.foldl_cons, ih, recordEvent, List.filterMap_cons, Event.occurrence?]
    cases e.metric? <;> rfl

/-! ## Batches -/

theorem counts_dispatch (p : Pipeline) (hrealtime : p.realtime = true) (raws : List Value) :
    (p.dispatch raws).1.counts = p.counts.recordEvents p.now (.ofList (p.accepted raws)) := by
  obtain ⟨store, insertFailures, h⟩ := p.dispatch_eq raws
  rw [h, if_pos hrealtime]

/-- **A batch counts its events by the metrics of their types.**  The live counts after a batch are
those that come of counting its accepted events one by one, in the order in which they came.  So
each accepted event of a metric adds one to the count of its version, and batches whose accepted
events leave the same traces are counted alike. -/
theorem counts_dispatch_exact (p : Pipeline) (hrealtime : p.realtime = true) (raws : List Value) :
    let q := (p.dispatch raws).1
    let accepted (raws : List Value) :=
      raws.filterMap fun raw => (judge p.limits p.now raw).toOption
    q.counts = ((accepted raws).foldl recordEvent p).counts ∧
    (∀ m v, (q.counts.rate m v).1 = (p.counts.rate m v).1 + .ofNat ((accepted raws).countP
      fun e => e.metric? = some m ∧ e.context.appVersion = v)) ∧
    ∀ raws', (accepted raws').filterMap Event.trace? = (accepted raws).filterMap Event.trace? →
      (p.dispatch raws').1.counts = q.counts := by
  intro q accepted
  have hcounts (raws : List Value) : (p.dispatch raws).1.counts =
      ((accepted raws).filterMap (Event.occurrence? p.now)).foldl Counts.add p.counts := by
    rw [p.counts_dispatch hrealtime, Counts.recordEvents_ofList, accepted_eq]
  refine ⟨?_, fun m v => ?_, fun raws' h => ?_⟩
  · rw [foldl_recordEvent]
    exact hcounts raws
  · have hgains := (p.counts.gains_recordEvents p.now (p.accepted raws) m v).count
    rw [← p.counts_dispatch hrealtime, accepted_eq] at hgains
    rw [Counts.rate_fst, Counts.rate_fst, List.countP_eq_length_filter]
    refine hgains.trans ?_
    rw [sessionsOf, List.length_map]
  · -- An occurrence is what an event leaves behind, at the time when it is counted.
    have hoccurrences (events : List Event) : events.filterMap (Event.occurrence? p.now) =
        (events.filterMap Event.trace?).filterMap fun (type, version, session) =>
          type.metric?.map fun m => ⟨p.now, m, version, session⟩ := by
      rw [List.filterMap_filterMap]
      exact List.filterMap_congr fun e _ => e.occurrence?_eq p.now
    rw [hcounts, hoccurrences, h, ← hoccurrences]
    exact (hcounts raws).symm

/-- The second batch differs from the first one in the repetitions that the exceptions report, and
in the events that have no metric. -/
theorem counts_dispatch_exact_mixed :
    let event (type : String) (repetitions : Int) : Value := .object <|
      [("count", .number (.whole repetitions)), ("scene_name", .text "menu")] ++
        [("type", type), ("app_version", "1"), ("platform", "iOS"), ("device_id", "d"),
          ("session_id", "s"), ("fingerprint", "f")].map fun (name, text) => (name, .text text)
    let p : Pipeline := { now := { nanos := 1700000000000000000 } }
    let raws := [event "exception" 7, event "startup" 2, event "crash" 2, event "perf_sample" 2,
      event "tap" 2, event "jank" 2, event "exception" 0]
    let raws' := [event "exception" 1, event "crash" 3, event "jank" 3, event "exception" 1,
      event "scene_load" 3]
    let q := (p.dispatch raws).1
    let accepted (raws : List Value) :=
      raws.filterMap fun raw => (judge p.limits p.now raw).toOption
    p.realtime = true ∧ (accepted raws).length = 6 ∧
      (accepted raws').filterMap Event.trace? = (accepted raws).filterMap Event.trace? ∧
      (q.counts.rate .exception "1").1 = 2 ∧ (p.dispatch raws').1.counts = q.counts := by
  intro event p raws raws' q accepted
  have htraces :
      (accepted raws').filterMap Event.trace? = (accepted raws).filterMap Event.trace? := by
    decide +kernel
  obtain ⟨-, hrate, halike⟩ := counts_dispatch_exact p rfl raws
  exact ⟨rfl, by decide +kernel, htraces, (hrate .exception "1").trans (by decide +kernel),
    halike raws' htraces⟩

end Pipeline

end SpikeWatch
