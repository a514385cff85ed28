import SpikeWatch.Proofs.Pipeline.Effect

/-!
# Runs and their histories

The history of a run is what was counted live in it, in order.  It says nothing of sweeps: what
sweeps leave of it is the business of the live counts.

* `Pipeline.history` is that list.
* `Pipeline.Forward` says that time does not go back in a run.  It is about each step on its own, so
  a clock may be moved in such a run, and stand still.
-/

set_option autoImplicit false

namespace SpikeWatch

namespace Pipeline

/-! ## Histories -/

/-- What is counted live in a run, in order. -/
def history (p : Pipeline) : List Step → List Occurrence
  | [] => []
  | s :: steps => p.occurrences s ++ (p.step s).1.history steps

theorem run_append (p : Pipeline) (steps more : List Step) :
    (p.run (steps ++ more)).1 = ((p.run steps).1.run more).1 := by
  induction steps generalizing p with
  | nil => rfl
  | cons s steps ih => exact ih (p.step s).1

@[simp]
theorem run_window (p : Pipeline) (steps : List Step) : (p.run steps).1.window = p.window := by
  induction steps generalizing p with
  | nil => rfl
  | cons s steps ih => exact (ih (p.step s).1).trans (p.step_window s)

/-! ## Time -/

/-- Time does not go back in a run. -/
def Forward (p : Pipeline) : List Step → Prop
  | [] => True
  | s :: steps => p.now ≤ (p.step s).1.now ∧ (p.step s).1.Forward steps

instance decidableForward (p : Pipeline) : (steps : List Step) → Decidable (p.Forward steps)
  | [] => .isTrue trivial
  | s :: steps =>
    have := (p.step s).1.decidableForward steps
    inferInstanceAs (Decidable (p.now ≤ (p.step s).1.now ∧ (p.step s).1.Forward steps))

end Pipeline

end SpikeWatch
