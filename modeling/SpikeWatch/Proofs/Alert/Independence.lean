import SpikeWatch.Proofs.Alert.Firing
import SpikeWatch.Proofs.Pipeline.History

/-!
# Rules do not matter to each other

A rule reads the live counts and its own last firing, and no rule writes to the counts.  So a run
without the other rules has the same live counts at every step, and the rule finds in it what it
finds in the full run.  Its place in the list is another one in each of the two runs.

* `Pipeline.CountsAlike` relates two pipelines that will count the same from now on, whatever their
  rules, stores and notifiers are.  Every step keeps it (`CountsAlike.step`), and so does a rule
  that only one of them gets.
* `Pipeline.firings_withoutRules` follows one rule, known by a place in each of two such pipelines,
  through a run and through the same run without the rules that are added in it.
* `Pipeline.firings_alone` is about a rule from before it is added.
-/

set_option autoImplicit false

namespace SpikeWatch

/-! ## Runs without new rules -/

namespace Step

theorem newRule?_eq_some_iff {s : Step} {r : Rule} : s.newRule? = some r ↔ s = .addRule r := by
  cases s <;> simp [newRule?]

/-- A run without the rules that are added in it. -/
def withoutRules (steps : List Step) : List Step := steps.filter (·.newRule?.isNone)

theorem withoutRules_cons_of_newRule?_eq_none {s : Step} (hs : s.newRule? = none)
    (steps : List Step) : withoutRules (s :: steps) = s :: withoutRules steps := by
  rw [withoutRules, List.filter_cons, hs]
  rfl

end Step

namespace Pipeline

/-! ## Counting alike -/

/-- Two pipelines agree in all that decides what they count live. -/
structure CountsAlike (p q : Pipeline) : Prop where
  now : p.now = q.now
  limits : p.limits = q.limits
  realtime : p.realtime = q.realtime
  window : p.window = q.window
  counts : p.counts = q.counts

theorem CountsAlike.refl (p : Pipeline) : p.CountsAlike p := ⟨rfl, rfl, rfl, rfl, rfl⟩

variable {p q : Pipeline}

theorem CountsAlike.step (h : p.CountsAlike q) (s : Step) :
    (p.step s).1.CountsAlike (q.step s).1 := by
  obtain ⟨store, totals, notifier, hp⟩ := p.step_eq s
  obtain ⟨store', totals', notifier', hq⟩ := q.step_eq s
  rw [hp, hq]
  -- the two pipelines are made of the same parts now, but for those that do not count
  obtain ⟨now, limits, realtime, window, _, counts, _, _, _, _⟩ := p
  obtain ⟨rfl, rfl, rfl, rfl, rfl⟩ := h
  exact ⟨by cases s <;> rfl, rfl, rfl, rfl, by cases s <;> rfl⟩

theorem CountsAlike.addRule (h : p.CountsAlike q) (r : Rule) : (p.addRule r).CountsAlike q :=
  ⟨h.now, h.limits, h.realtime, h.window, h.counts⟩

theorem CountsAlike.run_withoutRules (h : p.CountsAlike q) (steps : List Step) :
    (p.run steps).1.CountsAlike (q.run (Step.withoutRules steps)).1 := by
  induction steps generalizing p q with
  | nil => exact h
  | cons s steps ih =>
    cases hs : s.newRule? with
    | none =>
      rw [Step.withoutRules_cons_of_newRule?_eq_none hs]
      exact ih (h.step s)
    | some new =>
      obtain rfl := Step.newRule?_eq_some_iff.1 hs
      exact ih (h.addRule new)

/-! ## One rule in two runs -/

theorem CountsAlike.firing (h : p.CountsAlike q) {i j : Nat} (hrule : p.rules[i]? = q.rules[j]?)
    (s : Step) : p.firing i s = q.firing j s := by
  cases s with
  | evaluate => rw [Pipeline.firing, Pipeline.firing, hrule, h.counts, h.now]
  | _ => rfl

/-- Nothing about a rule changes in a step but its last firing. -/
theorem getElem?_rules_step {i : Nat} {r : Rule} (h : p.rules[i]? = some r) (s : Step) :
    (p.step s).1.rules[i]? =
      some { r with lastFired := ((p.firing i s).map Alert.timestamp).or r.lastFired } := by
  simpa [registered] using p.registered_step s [] (getElem?_registered [s] h)

theorem firings_withoutRules (h : p.CountsAlike q) {i j : Nat} {r : Rule}
    (hp : p.rules[i]? = some r) (hq : q.rules[j]? = some r) (steps : List Step) :
    p.firings i steps = q.firings j (Step.withoutRules steps) ∧
      ∃ lastFired, (p.run steps).1.rules[i]? = some { r with lastFired } ∧
        (q.run (Step.withoutRules steps)).1.rules[j]? = some { r with lastFired } := by
  induction steps generalizing p q r with
  | nil => exact ⟨rfl, r.lastFired, hp, hq⟩
  | cons s steps ih =>
    have hp' := getElem?_rules_step hp s
    cases hs : s.newRule? with
    | none =>
      have hfiring : p.firing i s = q.firing j s := h.firing (hp.trans hq.symm) s
      have hq' := getElem?_rules_step hq s
      rw [← hfiring] at hq'
      obtain ⟨hfirings, hlast⟩ := ih (h.step s) hp' hq'
      rw [Step.withoutRules_cons_of_newRule?_eq_none hs]
      refine ⟨?_, hlast⟩
      rw [firings, firings, hfiring, hfirings]
    | some new =>
      -- the rule that is left out does not fire, and stands behind the one that is followed
      obtain rfl := Step.newRule?_eq_some_iff.1 hs
      exact ih (h.addRule new) hp' hq

/-! ## A rule from before it is added -/

theorem firings_append (i : Nat) (p : Pipeline) (steps more : List Step) :
    p.firings i (steps ++ more) = p.firings i steps ++ (p.run steps).1.firings i more := by
  induction steps generalizing p with
  | nil => rfl
  | cons s steps ih =>
    rw [List.cons_append, firings, firings, ih, List.append_assoc]
    rfl

/-- No rule is ever taken from the list. -/
theorem length_rules_le_step (p : Pipeline) (s : Step) :
    p.rules.length ≤ (p.step s).1.rules.length := by
  rw [step_rules]
  cases s <;> simp [ruleListAfter, rulesAfter]

theorem length_rules_le_run (p : Pipeline) (steps : List Step) :
    p.rules.length ≤ (p.run steps).1.rules.length := by
  induction steps generalizing p with
  | nil => exact Nat.le_refl _
  | cons s steps ih => exact Nat.le_trans (p.length_rules_le_step s) (ih _)

/-- A place that no rule has yet does not fire. -/
theorem firings_eq_nil_of_length_le {i : Nat} {steps : List Step}
    (hi : (p.run steps).1.rules.length ≤ i) : p.firings i steps = [] := by
  induction steps generalizing p with
  | nil => rfl
  | cons s steps ih =>
    have hnone : p.firing i s = none :=
      firing_of_length_le (Nat.le_trans (p.length_rules_le_run (s :: steps)) hi) s
    have hrest : (p.step s).1.firings i steps = [] := ih hi
    rw [firings, hnone, hrest]
    rfl

/-- The place of a rule that is added after some steps. -/
def placeAfter (p : Pipeline) (steps : List Step) : Nat := (p.run steps).1.rules.length

theorem firings_placeAfter (p : Pipeline) (before after : List Step) (r : Rule) :
    p.firings (p.placeAfter before) (before ++ .addRule r :: after) =
      ((p.run before).1.addRule r).firings (p.placeAfter before) after := by
  have hbefore : p.firings (p.placeAfter before) before = [] :=
    firings_eq_nil_of_length_le (Nat.le_refl _)
  rw [firings_append, hbefore]
  rfl

/-- **A rule does not notice the others.**  Its alerts in a run, and the rule that is there in the
end, are those of the run in which no other rule is added.  In both runs its alerts are among those
that the passes gave back, and the rest of them belong to the other places. -/
theorem firings_alone (p : Pipeline) (before after : List Step) (r : Rule) :
    let before' := Step.withoutRules before
    let steps := before ++ .addRule r :: after
    let steps' := before' ++ .addRule r :: Step.withoutRules after
    p.firings (p.placeAfter before) steps = p.firings (p.placeAfter before') steps' ∧
      (∃ lastFired,
        (p.run steps).1.rules[p.placeAfter before]? = some { r with lastFired } ∧
        (p.run steps').1.rules[p.placeAfter before']? = some { r with lastFired }) ∧
      p.AlertsByPlace steps ∧ p.AlertsByPlace steps' := by
  intro before' steps steps'
  have halike : ((p.run before).1.addRule r).CountsAlike ((p.run before').1.addRule r) := by
    obtain ⟨hnow, hlimits, hrealtime, hwindow, hcounts⟩ :=
      (CountsAlike.refl p).run_withoutRules before
    exact ⟨hnow, hlimits, hrealtime, hwindow, hcounts⟩
  have hadded (steps : List Step) :
      ((p.run steps).1.addRule r).rules[p.placeAfter steps]? = some r := by
    simp [addRule, placeAfter]
  obtain ⟨hfirings, hlast⟩ :=
    firings_withoutRules halike (hadded before) (hadded before') after
  refine ⟨?_, ?_, p.alertsByPlace steps, p.alertsByPlace steps'⟩
  · rw [firings_placeAfter, firings_placeAfter, hfirings]
  · rw [run_append, run_append]
    exact hlast

end Pipeline

end SpikeWatch
