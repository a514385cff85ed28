import SpikeWatch.Pipeline.Basic
import SpikeWatch.Task

/-!
# Evaluation in the background

A task evaluates the rules of a pipeline again and again: each of its ticks is a pass.  It does not
keep the pipeline alive, and the first tick that finds it gone ends the loop.
-/

set_option autoImplicit false

namespace SpikeWatch

/-- A pipeline and the task that evaluates its rules. -/
structure Background where
  pipeline : Pipeline
  task : Task
  /-- The alerts of all passes so far. -/
  alerts : List Alert := []

namespace Background

/-- What happens to the task. -/
inductive Step where
  /-- A period is over, and the pipeline is there or gone. -/
  | periodOver (present : Bool)
  | stop

/-- The task begins its work with the pipeline as it is, and has no alerts yet. -/
def start (p : Pipeline) (period : Duration) : Background where
  pipeline := p
  task := .evaluator period

/-- A tick that finds the pipeline is a pass through its rules.  One that does not asks for the end
of the loop, and it is the last one. -/
def step (b : Background) : Step → Background
  | .periodOver true =>
    if b.task.looping then
      let (pipeline, alerts) := b.pipeline.evaluate
      { pipeline, task := b.task.step (.periodOver .goesOn), alerts := b.alerts ++ alerts }
    else b
  | .periodOver false => { b with task := b.task.step (.periodOver .breaks) }
  | .stop => { b with task := b.task.step .stop }

/-- What has become of the pipeline and its task after several such things. -/
def run (b : Background) (steps : List Step) : Background := steps.foldl step b

end Background

end SpikeWatch
