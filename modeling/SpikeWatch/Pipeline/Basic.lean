import SpikeWatch.Alert.Evaluation
import SpikeWatch.Alert.Notifier
import SpikeWatch.Ingest.Batch
import SpikeWatch.Ingest.Judgement
import SpikeWatch.Ingest.Response
import SpikeWatch.Store
import SpikeWatch.Totals

/-!
# The pipeline

Everything between a batch of raw events and the alerts about them, as one value: the limits that
events must keep, the live counts, the store, the rules, the notifier, the totals, and the present.

* `Pipeline.dispatch` judges the events of a batch, counts and stores the accepted ones, and
  answers.
* `Pipeline.evaluate` lets the rules look at the live counts, and hands over the alerts.
* `Pipeline.sweep` drops the counts that have gone stale.
-/

set_option autoImplicit false

namespace SpikeWatch

open Json (Value)

/-- The state of a pipeline, with its present. -/
structure Pipeline where
  now : Instant
  limits : Limits := {}
  /-- Whether accepted events are counted live. -/
  realtime : Bool := true
  /-- How long a live count outlasts its last occurrence. -/
  window : Duration := .ofMinutes 1
  /-- The time between two sweeps. -/
  sweepInterval : Duration := .ofSeconds 10
  counts : Counts := {}
  store : Store := .memory {}
  totals : Totals := {}
  rules : List Rule := []
  notifier : Notifier := {}

/-! ## Batches -/

/-- The accepted events of a batch in their order, and a line for each of the others.  Lines name
events by their place, which is `index` for the first. -/
def sortBatch (limits : Limits) (now : Instant) : Nat → List Value → List Event × List String
  | _, [] => ([], [])
  | index, raw :: rest =>
    let (accepted, errors) := sortBatch limits now (index + 1) rest
    match judge limits now raw with
    | .ok event => (event :: accepted, errors)
    | .error r =>
      (accepted, ("event " ++ String.ofList (Decimal.digits index) ++ ": " ++ r.message) :: errors)

/-- Counts events live, all under one metric. -/
def Counts.recordAll (now : Instant) (metric : Metric) (counts : Counts) (events : List Event) :
    Counts :=
  events.foldl (fun counts e =>
    counts.record now metric e.context.appVersion e.context.sessionId) counts

/-- Counts accepted events live, type by type.  Events of other types are not counted. -/
def Counts.recordEvents (counts : Counts) (now : Instant) (accepted : EventsByType) : Counts :=
  let counts := counts.recordAll now .crash accepted.crashes
  let counts := counts.recordAll now .exception accepted.exceptions
  counts.recordAll now .jank accepted.janks

namespace Pipeline

/-- Stores the accepted events of one type, if there are any; a failure is only counted. -/
def storeType (accepted : EventsByType) (p : Pipeline) (type : EventType) : Pipeline :=
  if (accepted.get type).isEmpty then p
  else
    match p.store.insert type (accepted.get type) with
    | (store, .ok ()) => { p with store }
    | (store, .error _) => { p with store, totals := p.totals.addInsertFailure }

/-- Stores accepted events, type by type. -/
def storeEvents (p : Pipeline) (accepted : EventsByType) : Pipeline :=
  EventType.all.foldl (storeType accepted) p

/-- Judges the events of a batch, counts and stores the accepted ones, and answers.  A batch without
events is counted and nothing else. -/
def dispatch (p : Pipeline) (raws : List Value) : Pipeline × Response :=
  if raws.isEmpty then ({ p with totals := p.totals.addBatch 0 0 }, ⟨0, 0, []⟩)
  else
    let (events, errors) := sortBatch p.limits p.now 0 raws
    let accepted := EventsByType.ofList events
    let counts := if p.realtime then p.counts.recordEvents p.now accepted else p.counts
    let stored := storeEvents { p with counts } accepted
    ({ stored with
        totals := stored.totals.addBatch (.ofNat accepted.len) (.ofNat errors.length) },
      ⟨accepted.len, errors.length, errors⟩)

/-- Dispatches the batch in the body of a request.  A body that is none changes nothing. -/
def dispatchText (p : Pipeline) (body : String) : Except Json.Failure (Pipeline × Response) :=
  (Batch.eventsOfText body).map p.dispatch

/-! ## Alerts -/

/-- Hands over an alert and counts it. -/
def deliver (p : Pipeline) (a : Alert) : Pipeline :=
  let (notifier, delivery) := p.notifier.send a
  { p with notifier, totals := p.totals.addAlert delivery.toBool }

/-- Lets every rule look at the live counts, hands over the alerts, and gives them back. -/
def evaluate (p : Pipeline) : Pipeline × List Alert :=
  let alerts := alertsOf p.rules p.counts p.now
  let p := alerts.foldl deliver { p with rules := rulesAfter p.rules p.counts p.now }
  (p, alerts)

/-! ## Other steps -/

/-- Drops the live counts that have gone stale, and counts them. -/
def sweep (p : Pipeline) : Pipeline × Nat :=
  let (counts, evicted) := p.counts.sweep p.window p.now
  ({ p with counts }, evicted)

/-- Counts one occurrence live. -/
def record (p : Pipeline) (metric : Metric) (version session : String) : Pipeline :=
  { p with counts := p.counts.record p.now metric version session }

/-- Adds a rule behind all others. -/
def addRule (p : Pipeline) (r : Rule) : Pipeline := { p with rules := p.rules ++ [r] }

/-- Moves the present.  It cannot leave the range of instants. -/
def advance? (p : Pipeline) (d : Duration) : Option Pipeline :=
  (p.now.add? d).map fun now => { p with now }

end Pipeline

end SpikeWatch
