import SpikeWatch.Proofs.Alert.Delivery
import Mathlib.Data.List.Perm.Basic

/-!
# Firings of a rule

A rule is known by its place in the list, since neither its name nor anything else about it need be
its own.

* `Pipeline.firing` is the alert that the rule at a place raises in a step, if it does.  All that a
  pass hands over are such alerts (`evaluate_alerts`).
* `Pipeline.firings` are the alerts of that rule in a run, and `Pipeline.registered` the rules as
  they were when the run got them.
* `Pipeline.registered_step` carries a rule through a step: nothing about it changes but its last
  firing, and that only when it fires.
* `Pipeline.AlertsByPlace` hands out what the passes of a run gave back to the places that raised
  it.  This can be done for every run (`alertsByPlace`), and the alerts of a place show the rule
  that was added there (`rule_of_mem_firings`).  So what is said of firings is said of alerts.
-/

set_option autoImplicit false

namespace SpikeWatch

/-- The rule that a step adds. -/
def Step.newRule? : Step → Option Rule
  | .addRule r => some r
  | _ => none

namespace Pipeline

/-- The alert that the rule at a place raises in a step. -/
def firing (i : Nat) (p : Pipeline) : Step → Option Alert
  | .evaluate => p.rules[i]?.bind (Rule.fire? p.counts p.now)
  | _ => none

/-- The alerts that the rule at a place raises in a run, in order. -/
def firings (i : Nat) (p : Pipeline) : List Step → List Alert
  | [] => []
  | s :: steps => (p.firing i s).toList ++ firings i (p.step s).1 steps

/-- The rules of a run, each as it was when the run got it. -/
def registered (p : Pipeline) (steps : List Step) : List Rule :=
  p.rules ++ steps.filterMap Step.newRule?

/-- A rule fires in a pass, and only then. -/
theorem firing_eq_some_iff {i : Nat} {p : Pipeline} {s : Step} {a : Alert} :
    p.firing i s = some a ↔
      s = .evaluate ∧ ∃ r, p.rules[i]? = some r ∧ r.fire? p.counts p.now = some a := by
  cases s <;> simp [firing, Option.bind_eq_some_iff]

/-- **What a pass hands over are the alerts of the places that fire, in their order.** -/
theorem evaluate_alerts (p : Pipeline) :
    p.evaluate.2 = (List.range p.rules.length).filterMap fun i => p.firing i .evaluate := by
  change p.rules.filterMap (Rule.fire? p.counts p.now) = _
  simp only [firing]
  induction p.rules with
  | nil => rfl
  | cons r rules ih =>
    rw [List.length_cons, List.range_succ_eq_map, List.filterMap_cons, List.filterMap_cons,
      List.filterMap_map, ih]
    rfl

/-- The alerts of a pass are what the rules at its places raise. -/
theorem mem_evaluate_iff {p : Pipeline} {a : Alert} :
    a ∈ p.evaluate.2 ↔ ∃ i, p.firing i .evaluate = some a := by
  rw [evaluate_alerts, List.mem_filterMap]
  constructor
  · rintro ⟨i, -, ha⟩
    exact ⟨i, ha⟩
  · rintro ⟨i, ha⟩
    obtain ⟨-, r, hr, -⟩ := firing_eq_some_iff.1 ha
    exact ⟨i, List.mem_range.2 (List.getElem?_eq_some_iff.1 hr).1, ha⟩

/-- A rule keeps its place among those that are registered in a run. -/
theorem getElem?_registered {i : Nat} {r : Rule} {p : Pipeline} (steps : List Step)
    (h : p.rules[i]? = some r) : (p.registered steps)[i]? = some r := by
  rw [registered, List.getElem?_append_left (List.getElem?_eq_some_iff.1 h).1, h]

/-- A step changes nothing about a rule but its last firing. -/
theorem registered_step {i : Nat} {r : Rule} (p : Pipeline) (s : Step) (steps : List Step)
    (h : (p.registered (s :: steps))[i]? = some r) :
    ((p.step s).1.registered steps)[i]? =
      some { r with lastFired := ((p.firing i s).map Alert.timestamp).or r.lastFired } := by
  rw [registered] at h ⊢
  rw [step_rules]
  cases s with
  | addRule new => simpa [ruleListAfter, firing, Step.newRule?] using h
  | evaluate =>
    simp only [List.filterMap_cons, Step.newRule?] at h
    simp only [ruleListAfter, rulesAfter, firing]
    rw [List.getElem?_append] at h ⊢
    rw [List.length_map]
    split at h
    · next hi =>
      rw [if_pos hi, List.getElem?_map, h, Option.map_some, Rule.afterPass_eq]
      rfl
    · next hi =>
      rw [if_neg hi, h, List.getElem?_eq_none (Nat.le_of_not_lt hi)]
      rfl
  | _ => exact h

/-- A step that adds a rule moves it from the steps to the list. -/
theorem length_registered_step (p : Pipeline) (s : Step) (steps : List Step) :
    ((p.step s).1.registered steps).length = (p.registered (s :: steps)).length := by
  rw [registered, registered, step_rules, List.length_append, List.length_append]
  cases s with
  | addRule r =>
    rw [ruleListAfter, List.length_append, Nat.add_assoc]
    exact congrArg _ (Nat.add_comm ..)
  | evaluate =>
    rw [ruleListAfter, rulesAfter, List.length_map]
    rfl
  | _ => rfl

/-! ## Alerts and their places -/

/-- Each alert of a run was raised at one place, and those of a place come in their order. -/
structure AlertsByPlace (p : Pipeline) (steps : List Step) : Prop where
  perm : ((p.run steps).2.flatMap Outcome.alerts).Perm
    ((List.range (p.registered steps).length).flatMap fun i => p.firings i steps)
  sublist : ∀ i, (p.firings i steps).Sublist ((p.run steps).2.flatMap Outcome.alerts)

theorem firing_of_ne {s : Step} (hs : s ≠ .evaluate) (i : Nat) (p : Pipeline) :
    p.firing i s = none := by
  rw [Option.eq_none_iff_forall_ne_some]
  intro a ha
  exact hs (firing_eq_some_iff.1 ha).1

/-- A place that no rule has yet raises nothing. -/
theorem firing_of_length_le {p : Pipeline} {i : Nat} (hi : p.rules.length ≤ i) (s : Step) :
    p.firing i s = none := by
  rw [Option.eq_none_iff_forall_ne_some]
  intro a ha
  obtain ⟨-, r, hr, -⟩ := firing_eq_some_iff.1 ha
  rw [List.getElem?_eq_none hi] at hr
  cases hr

/-- The alerts of a step are those of the places, and any places may be added that are free yet. -/
theorem alerts_step (p : Pipeline) (s : Step) {n : Nat} (hn : p.rules.length ≤ n) :
    (p.step s).2.alerts = (List.range n).filterMap fun i => p.firing i s := by
  by_cases hs : s = .evaluate
  · subst hs
    obtain ⟨k, rfl⟩ := Nat.exists_eq_add_of_le hn
    have hnone (j : Nat) : p.firing (p.rules.length + j) .evaluate = none :=
      firing_of_length_le (Nat.le_add_right ..) _
    have hfree : (List.range k).filterMap
        ((fun i => p.firing i .evaluate) ∘ fun j => p.rules.length + j) = [] :=
      List.filterMap_eq_nil_iff.2 fun j _ => hnone j
    rw [List.range_add, List.filterMap_append, ← evaluate_alerts, List.filterMap_map, hfree,
      List.append_nil]
    rfl
  · rw [alerts_step_of_ne p hs, List.filterMap_eq_nil_iff.2 fun i _ => firing_of_ne hs i p]

/-- **All alerts of a run, place by place.**  The order is lost, since a pass goes through all
places and a place through all passes. -/
theorem alerts_run_perm (p : Pipeline) (steps : List Step) :
    ((p.run steps).2.flatMap Outcome.alerts).Perm
      ((List.range (p.registered steps).length).flatMap fun i => p.firings i steps) := by
  induction steps generalizing p with
  | nil => simp [run, firings]
  | cons s steps ih =>
    have hle : p.rules.length ≤ (p.registered (s :: steps)).length := by
      rw [registered, List.length_append]
      exact Nat.le_add_right ..
    have hrest := ih (p.step s).1
    rw [length_registered_step] at hrest
    rw [run, List.flatMap_cons, p.alerts_step s hle, List.filterMap_eq_flatMap_toList]
    exact (hrest.append_left _).trans (List.flatMap_append_perm ..)

/-- What a place raises in a step is among the alerts of this step. -/
theorem firing_sublist (p : Pipeline) (i : Nat) (s : Step) :
    (p.firing i s).toList.Sublist (p.step s).2.alerts := by
  -- the step is looked at with so many places that this one is among them
  have hi : i < max p.rules.length (i + 1) := by omega
  have hplace : [i].Sublist (List.range (max p.rules.length (i + 1))) :=
    List.singleton_sublist.2 (List.mem_range.2 hi)
  have hraised := hplace.filterMap fun i => p.firing i s
  rw [← p.alerts_step s (Nat.le_max_left ..), List.filterMap_eq_flatMap_toList,
    List.flatMap_singleton] at hraised
  exact hraised

/-- What a place raises in a run is among the alerts of the run, in the same order. -/
theorem firings_sublist (i : Nat) (p : Pipeline) (steps : List Step) :
    (p.firings i steps).Sublist ((p.run steps).2.flatMap Outcome.alerts) := by
  induction steps generalizing p with
  | nil => exact List.nil_sublist _
  | cons s steps ih => exact (p.firing_sublist i s).append (ih (p.step s).1)

/-- **Alerts can be handed out to places.** -/
theorem alertsByPlace (p : Pipeline) (steps : List Step) : p.AlertsByPlace steps where
  perm := p.alerts_run_perm steps
  sublist := fun i => p.firings_sublist i steps

/-- An alert of a run was raised at a place that has a rule. -/
theorem exists_place_of_mem_alerts {p : Pipeline} {steps : List Step} {a : Alert}
    (ha : a ∈ (p.run steps).2.flatMap Outcome.alerts) :
    ∃ i r, (p.registered steps)[i]? = some r ∧ a ∈ p.firings i steps := by
  obtain ⟨i, hi, hfiring⟩ := List.mem_flatMap.1 ((p.alerts_run_perm steps).mem_iff.1 ha)
  exact ⟨i, _, List.getElem?_eq_getElem (List.mem_range.1 hi), hfiring⟩

/-- The alerts of a place show the rule that was added there, whenever they were raised. -/
theorem rule_of_mem_firings {i : Nat} {r : Rule} {p : Pipeline} {steps : List Step}
    (h : (p.registered steps)[i]? = some r) {a : Alert} (ha : a ∈ p.firings i steps) :
    a.rule = { r with lastFired := a.rule.lastFired } := by
  induction steps generalizing p r with
  | nil => cases ha
  | cons s steps ih =>
    rw [firings, List.mem_append, Option.mem_toList] at ha
    rcases ha with hfire | hrest
    · obtain ⟨-, r', hr', hraised⟩ := firing_eq_some_iff.1 hfire
      obtain rfl : r' = r := Option.some.inj ((getElem?_registered _ hr').symm.trans h)
      obtain ⟨-, -, rfl⟩ := Rule.fire?_eq_some_iff.1 hraised
      rfl
    · have hrule := ih (p.registered_step s steps h) hrest
      exact hrule

end Pipeline

end SpikeWatch
