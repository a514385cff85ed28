import SpikeWatch.Pipeline.Background
import SpikeWatch.Proofs.Alert.Firing
import SpikeWatch.Proofs.Alert.Pass

/-!
# Passes at one instant

While the clock stands still and nothing is counted, a second pass sees what the first one saw, but
for the rules that have just fired.  These see the same count, but no time has gone since their last
firing: those whose cooldown is not positive fire again, and all others rest.

* `Alert.again?` is the alert that a rule raises once more, if its cooldown lets it.
  `Rule.fire?_afterPass` and `Rule.afterPass_afterPass` say what a second pass makes of one rule,
  `firing_evaluate`, `alertsOf_rulesAfter` and `rulesAfter_rulesAfter` what it makes of all.
* A pass that raises nothing leaves everything as it is (`evaluate_of_quiet`), and so do as many as
  one likes (`run_replicate_of_quiet`), be they made by a task in the background
  (`Background.run_of_quiet`).
* `Pipeline.evaluate_again` puts this together.
-/

set_option autoImplicit false

namespace SpikeWatch

/-! ## One rule -/

/-- The alert that the rule raises once more at the same instant.  It does so if its cooldown is
over as soon as it begins. -/
def Alert.again? (a : Alert) : Option Alert :=
  if a.rule.cooldown.nanos ≤ 0 then some { a with rule := a.rule.fired a.timestamp } else none

theorem Alert.again?_eq_none_iff {a : Alert} : a.again? = none ↔ 0 < a.rule.cooldown.nanos := by
  rw [again?]
  by_cases hcool : a.rule.cooldown.nanos ≤ 0
  · simp [hcool]
  · simpa [hcool] using Int.not_le.1 hcool

namespace Rule

variable {counts : Counts} {now : Instant} {r : Rule}

/-- A rule that has just fired rests, if it rests at all. -/
theorem inCooldown_fired (now : Instant) (r : Rule) :
    (r.fired now).inCooldown now = decide (0 < r.cooldown.nanos) := by
  change decide (now.nanos - now.nanos < r.cooldown.nanos) = _
  rw [Int.sub_self]

/-- A rule that has just fired would fire once more but for its cooldown. -/
theorem fire?_fired {a : Alert} (h : r.fire? counts now = some a) :
    (r.fired now).fire? counts now = a.again? := by
  obtain ⟨-, hnotLess, rfl⟩ := fire?_eq_some_iff.1 h
  rw [Alert.again?, Alert.ofRule]
  by_cases hcool : r.cooldown.nanos ≤ 0
  · have hrested : (r.fired now).inCooldown now = false := by
      rw [inCooldown_fired, decide_eq_false_iff_not]
      exact Int.not_lt.2 hcool
    rw [if_pos hcool]
    exact fire?_eq_some_iff.2 ⟨hrested, hnotLess, rfl⟩
  · have hrests : (r.fired now).inCooldown now = true := by
      rw [inCooldown_fired, decide_eq_true_iff]
      exact Int.not_le.1 hcool
    rw [if_neg hcool, fire?, if_pos hrests]

/-- A rule that rested or saw too little still does. -/
theorem fire?_afterPass (counts : Counts) (now : Instant) (r : Rule) :
    (r.afterPass counts now).fire? counts now = (r.fire? counts now).bind Alert.again? := by
  rcases hfire : r.fire? counts now with _ | a
  · rw [afterPass_of_fire?_eq_none hfire, hfire]
    rfl
  · rw [afterPass_of_fire?_eq_some hfire, fire?_fired hfire]
    rfl

/-- A second pass at the same instant leaves a rule as it is. -/
theorem afterPass_afterPass (counts : Counts) (now : Instant) (r : Rule) :
    (r.afterPass counts now).afterPass counts now = r.afterPass counts now := by
  rcases hfire : r.fire? counts now with _ | a
  · rw [afterPass_of_fire?_eq_none hfire, afterPass_of_fire?_eq_none hfire]
  · rw [afterPass_of_fire?_eq_some hfire, afterPass]
    split
    · rfl
    · rfl

end Rule

/-! ## All rules -/

/-- The alerts of a second pass are those of the first that come from rules without a rest. -/
theorem alertsOf_rulesAfter (rules : List Rule) (counts : Counts) (now : Instant) :
    alertsOf (rulesAfter rules counts now) counts now =
      (alertsOf rules counts now).filterMap Alert.again? := by
  rw [alertsOf, alertsOf, rulesAfter, List.filterMap_map, List.filterMap_filterMap]
  exact List.filterMap_congr fun r _ => r.fire?_afterPass counts now

theorem rulesAfter_rulesAfter (rules : List Rule) (counts : Counts) (now : Instant) :
    rulesAfter (rulesAfter rules counts now) counts now = rulesAfter rules counts now := by
  rw [rulesAfter, rulesAfter, List.map_map]
  exact List.map_congr_left fun r _ => r.afterPass_afterPass counts now

/-- A pass in which no rule fires leaves the rules as they are. -/
theorem rulesAfter_of_alertsOf_eq_nil {rules : List Rule} {counts : Counts} {now : Instant}
    (h : alertsOf rules counts now = []) : rulesAfter rules counts now = rules := by
  have hnone : ∀ r ∈ rules, r.fire? counts now = none := List.filterMap_eq_nil_iff.1 h
  calc rulesAfter rules counts now = rules.map id :=
        List.map_congr_left fun r hr => Rule.afterPass_of_fire?_eq_none (hnone r hr)
    _ = rules := List.map_id rules

namespace Pipeline

theorem firing_evaluate (i : Nat) (p : Pipeline) :
    p.evaluate.1.firing i .evaluate = (p.firing i .evaluate).bind Alert.again? := by
  obtain ⟨notifier, totals, h⟩ := p.evaluate_eq
  simp only [h, firing, rulesAfter, List.getElem?_map]
  rcases p.rules[i]? with _ | r
  · rfl
  · exact r.fire?_afterPass p.counts p.now

/-- **Two passes at once.** -/
theorem evaluate_evaluate (p : Pipeline) :
    p.evaluate.1.evaluate.2 = p.evaluate.2.filterMap Alert.again? ∧
      p.evaluate.1.evaluate.1.rules = p.evaluate.1.rules := by
  obtain ⟨notifier, totals, h⟩ := p.evaluate_eq
  have hrules := p.evaluate.1.step_rules .evaluate
  constructor
  · rw [h]
    exact alertsOf_rulesAfter p.rules p.counts p.now
  · refine hrules.trans ?_
    rw [h]
    exact rulesAfter_rulesAfter p.rules p.counts p.now

/-! ## Quiet passes -/

/-- If no rule fires, a pass does nothing at all. -/
theorem evaluate_of_quiet {p : Pipeline} (h : p.evaluate.2 = []) : p.evaluate = (p, []) := by
  have halerts : alertsOf p.rules p.counts p.now = [] := h
  rw [evaluate, halerts, rulesAfter_of_alertsOf_eq_nil halerts]
  rfl

/-- If a pass raises nothing, then no number of passes does. -/
theorem run_replicate_of_quiet {p : Pipeline} (h : p.evaluate.2 = []) (n : Nat) :
    p.run (List.replicate n .evaluate) = (p, List.replicate n (.fired [])) := by
  induction n with
  | zero => rfl
  | succ n ih =>
    have hstep : p.step .evaluate = (p, .fired []) := by
      rw [step, evaluate_of_quiet h]
    rw [List.replicate_succ, run, hstep]
    dsimp only
    rw [ih, List.replicate_succ]

/-- Rules that have just fired are quiet if their cooldowns are positive. -/
theorem quiet_evaluate {p : Pipeline} (h : ∀ a ∈ p.evaluate.2, 0 < a.rule.cooldown.nanos) :
    p.evaluate.1.evaluate.2 = [] := by
  rw [p.evaluate_evaluate.1, List.filterMap_eq_nil_iff]
  intro a ha
  exact Alert.again?_eq_none_iff.2 (h a ha)

end Pipeline

namespace Background

variable {b : Background}

theorem step_of_quiet (h : b.pipeline.evaluate.2 = []) (s : Step) :
    (b.step s).pipeline = b.pipeline ∧ (b.step s).alerts = b.alerts := by
  cases s with
  | stop => exact ⟨rfl, rfl⟩
  | periodOver present =>
    cases present with
    | false => exact ⟨rfl, rfl⟩
    | true =>
      rw [step]
      by_cases hloop : b.task.looping = true
      · rw [if_pos hloop]
        simp [Pipeline.evaluate_of_quiet h]
      · rw [if_neg hloop]
        exact ⟨rfl, rfl⟩

theorem run_of_quiet (h : b.pipeline.evaluate.2 = []) (steps : List Step) :
    (b.run steps).pipeline = b.pipeline ∧ (b.run steps).alerts = b.alerts := by
  induction steps generalizing b with
  | nil => exact ⟨rfl, rfl⟩
  | cons s steps ih =>
    obtain ⟨hpipeline, halerts⟩ := step_of_quiet h s
    obtain ⟨hpipeline', halerts'⟩ := ih (b := b.step s) (by rw [hpipeline]; exact h)
    exact ⟨hpipeline'.trans hpipeline, halerts'.trans halerts⟩

end Background

/-! ## The whole of it -/

/-- **A second pass at the same instant** is made by the rules that fired in the first and whose
cooldown is not positive, and it leaves the rules as they are.  If every rule that fired has a
positive cooldown, then however many passes follow, they raise nothing and change nothing; so a task
that evaluates the rules while the clock stands still does what its first tick does, be it stopped
or not. -/
theorem Pipeline.evaluate_again (p : Pipeline) :
    let q := p.evaluate.1
    (∀ i, q.firing i .evaluate = (p.firing i .evaluate).bind Alert.again?) ∧
      q.evaluate.2 = p.evaluate.2.filterMap Alert.again? ∧
      q.evaluate.1.rules = q.rules ∧
      ((∀ a ∈ p.evaluate.2, 0 < a.rule.cooldown.nanos) →
        (∀ n, q.run (List.replicate n .evaluate) = (q, List.replicate n (.fired []))) ∧
        ∀ period steps,
          let b := (Background.start p period).run (.periodOver true :: steps)
          b.pipeline = q ∧ b.alerts = p.evaluate.2) := by
  intro q
  obtain ⟨halerts, hrules⟩ := p.evaluate_evaluate
  refine ⟨fun i => firing_evaluate i p, halerts, hrules, ?_⟩
  intro hcooldowns
  have hquiet : q.evaluate.2 = [] := quiet_evaluate hcooldowns
  refine ⟨run_replicate_of_quiet hquiet, ?_⟩
  intro period steps b
  let first := (Background.start p period).step (.periodOver true)
  have hpipeline : first.pipeline = q := rfl
  have halerts : first.alerts = p.evaluate.2 := rfl
  rw [← hpipeline] at hquiet
  rw [← hpipeline, ← halerts]
  exact Background.run_of_quiet hquiet steps

/-- Two rules fire on one crash, and one of them has no cooldown: it alone fires again.  Without it,
a task makes four ticks before it is stopped, and raises one alert. -/
theorem Pipeline.evaluate_again_crash :
    let rule : Rule := { id := "r", name := "R", metric := .crash, threshold := .ofNat 1 }
    let restless : Rule := { rule with id := "z", cooldown := .ofMinutes 0 }
    let counts := ({} : Counts).record .epoch .crash "" "a"
    let p : Pipeline := { now := .epoch, counts, rules := [rule, restless] }
    let q : Pipeline := { p with rules := [rule] }
    let steps : List Background.Step :=
      [.periodOver true, .periodOver true, .periodOver true, .stop, .periodOver true]
    let b := (Background.start q (.ofSeconds 1)).run (.periodOver true :: steps)
    p.evaluate.2.map (·.rule.id) = ["r", "z"] ∧
      p.evaluate.1.evaluate.2.map (·.rule.id) = ["z"] ∧
      (∀ a ∈ q.evaluate.2, 0 < a.rule.cooldown.nanos) ∧
      q.evaluate.1.run (List.replicate 3 .evaluate) =
        (q.evaluate.1, List.replicate 3 (.fired [])) ∧
      b.pipeline = q.evaluate.1 ∧ b.task.ticks = 4 ∧ b.alerts.map (·.rule.id) = ["r"] := by
  intro rule restless counts p q steps b
  obtain ⟨-, hagain, -⟩ := evaluate_again p
  obtain ⟨-, -, -, hquiet⟩ := evaluate_again q
  have hcooldowns : ∀ a ∈ q.evaluate.2, 0 < a.rule.cooldown.nanos := by decide +kernel
  obtain ⟨hrun, htask⟩ := hquiet hcooldowns
  obtain ⟨hpipeline, halerts⟩ := htask (.ofSeconds 1) steps
  refine ⟨by decide +kernel, ?_, hcooldowns, hrun 3, hpipeline, by decide +kernel, ?_⟩
  · rw [hagain]
    decide +kernel
  · rw [halerts]
    decide +kernel

end SpikeWatch
