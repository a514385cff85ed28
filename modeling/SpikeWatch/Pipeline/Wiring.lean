import SpikeWatch.Pipeline.Step
import SpikeWatch.Settings.Basic
import SpikeWatch.Task

/-!
# From settings to a pipeline

Which pipeline settings describe, and which tasks go on beside it.  Without alerts there are no
rules, and nothing that would look at them.
-/

set_option autoImplicit false

namespace SpikeWatch

/-- The pipeline that settings describe, before anything has happened to it. -/
def Pipeline.ofSettings (s : Settings) (now : Instant) (store : Store) : Pipeline where
  now
  limits := s.ingest.limits
  realtime := s.ingest.recordRealtime
  window := s.aggregator.window
  sweepInterval := s.aggregator.sweepInterval
  store
  rules := if s.alerts.enabled then s.rules else []

/-- The tasks that go on beside a pipeline, each with the step that its ticks take. -/
def Settings.chores (s : Settings) : List (Task × Step) :=
  (.sweeper s.aggregator.sweepInterval, .sweep) ::
    if s.alerts.enabled then [(.evaluator s.alerts.evaluationInterval, .evaluate)] else []

/-- The tasks that go on beside a pipeline. -/
def Settings.tasks (s : Settings) : List Task := s.chores.map Prod.fst

end SpikeWatch
