import SpikeWatch.Time.Instant

/-!
# Tasks that run again and again

A task makes a tick whenever its period is over, until a tick ends its loop or the task is stopped.
Whether it was stopped and whether its loop still turns are two things: a loop that ended by itself
belongs to a task that is still running, in the sense that nobody has stopped it.
-/

set_option autoImplicit false

namespace SpikeWatch

/-- How a tick ends. -/
inductive TickEnd where
  /-- The loop waits for the next period. -/
  | goesOn
  /-- The tick asks for the end of the loop. -/
  | breaks
  /-- The tick fails, and the loop with it. -/
  | panics
  /-- The tick stops its own task, and ends itself without waiting for anything. -/
  | stopsTask
  deriving DecidableEq

/-- A task. -/
structure Task where
  name : String
  period : Duration
  /-- The loop waits for its next tick. -/
  looping : Bool := true
  /-- The task was stopped. -/
  stopped : Bool := false
  /-- The ticks made so far. -/
  ticks : Nat := 0
  deriving DecidableEq

namespace Task

/-- What happens to a task. -/
inductive Step where
  /-- A period is over; if there is a tick, it ends in this way. -/
  | periodOver (tick : TickEnd)
  | stop

/-- Nobody has stopped the task. -/
def isRunning (t : Task) : Bool := !t.stopped

/-- The tick of a loop that waits for one. -/
def tick (t : Task) : TickEnd → Task
  | .goesOn => { t with ticks := t.ticks + 1 }
  | .breaks | .panics => { t with ticks := t.ticks + 1, looping := false }
  | .stopsTask => { t with ticks := t.ticks + 1, looping := false, stopped := true }

/-- Stops the task and its loop.  A second time changes nothing. -/
def stop (t : Task) : Task := if t.stopped then t else { t with stopped := true, looping := false }

/-- The task after something happened to it.  A period that is over means nothing to a task whose
loop has ended. -/
def step (t : Task) : Step → Task
  | .periodOver e => if t.looping then t.tick e else t
  | .stop => t.stop

/-- The task after several such things, one after the other. -/
def run (t : Task) (steps : List Step) : Task := steps.foldl step t

/-- The task that sweeps the live counts. -/
def sweeper (period : Duration) : Task where
  name := "aggregator-sweep"
  period

/-- The task that evaluates the rules. -/
def evaluator (period : Duration) : Task where
  name := "alert-evaluator"
  period

end Task

end SpikeWatch
