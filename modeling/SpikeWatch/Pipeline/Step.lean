import SpikeWatch.Pipeline.Basic

/-!
# Steps of a pipeline

What can happen to a pipeline, one thing at a time, and what each thing answers.  `Pipeline.run`
takes a list of steps in their order.  Steps that fail leave the pipeline as it was.
-/

set_option autoImplicit false

namespace SpikeWatch

/-- One thing that happens to a pipeline. -/
inductive Step where
  /-- A request with the given body comes in. -/
  | dispatch (body : String)
  | sweep
  | evaluate
  | addRule (rule : Rule)
  /-- An occurrence is counted that no event reported. -/
  | record (metric : Metric) (version session : String)
  /-- Time goes on, or back. -/
  | advance (d : Duration)
  | setClock (now : Instant)
  /-- The notifier answers in another way from now on. -/
  | answerWith (answer : Delivery)
  /-- The table of a type fails from now on. -/
  | failOn (type : EventType)
  /-- Events are stored that did not come in by a request. -/
  | insert (type : EventType) (events : List Event)
  | countBatch (accepted rejected : UInt64)
  | countInsertFailure
  | countAlert (delivered : Bool)

/-- What a step answers. -/
inductive Outcome where
  | done
  | response (r : Response)
  /-- The body of the request is no batch. -/
  | invalidBody (failure : Json.Failure)
  | swept (evicted : Nat)
  | fired (alerts : List Alert)
  /-- Time would leave the range of instants. -/
  | outOfRange
  | notStored (error : StoreError)

namespace Pipeline

/-- The pipeline after a step, and the answer of the step. -/
def step (p : Pipeline) : Step → Pipeline × Outcome
  | .dispatch body =>
    match p.dispatchText body with
    | .ok (p, response) => (p, .response response)
    | .error failure => (p, .invalidBody failure)
  | .sweep =>
    let (p, evicted) := p.sweep
    (p, .swept evicted)
  | .evaluate =>
    let (p, alerts) := p.evaluate
    (p, .fired alerts)
  | .addRule rule => (p.addRule rule, .done)
  | .record metric version session => (p.record metric version session, .done)
  | .advance d =>
    match p.advance? d with
    | some p => (p, .done)
    | none => (p, .outOfRange)
  | .setClock now => ({ p with now }, .done)
  | .answerWith answer => ({ p with notifier := p.notifier.answerWith answer }, .done)
  | .failOn type => ({ p with store := p.store.failOn type }, .done)
  | .insert type events =>
    match p.store.insert type events with
    | (store, .ok ()) => ({ p with store }, .done)
    | (store, .error e) => ({ p with store }, .notStored e)
  | .countBatch accepted rejected =>
    ({ p with totals := p.totals.addBatch accepted rejected }, .done)
  | .countInsertFailure => ({ p with totals := p.totals.addInsertFailure }, .done)
  | .countAlert delivered => ({ p with totals := p.totals.addAlert delivered }, .done)

/-- The pipeline after a list of steps, and their answers. -/
def run (p : Pipeline) : List Step → Pipeline × List Outcome
  | [] => (p, [])
  | s :: steps =>
    let (p, outcome) := p.step s
    let (p, outcomes) := p.run steps
    (p, outcome :: outcomes)

end Pipeline

end SpikeWatch
