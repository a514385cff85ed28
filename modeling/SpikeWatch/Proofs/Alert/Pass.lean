import SpikeWatch.Proofs.Alert.Delivery
import SpikeWatch.Proofs.Binary.Order

/-!
# One pass

A pass walks through the rules as they were when it began.  Where one fires, its alert is handed
over and the rule is marked at its place in the list, while the walk goes on: by then the list is no
longer the one that the walk goes by.

* `Rule.IsDue` says when a rule has to fire, without a word about how that is found out.  If its
  threshold is a number, the rule fires just then (`Rule.fire?_eq`).
* `Pipeline.passInTurn` is the walk, and `Pipeline.visit` one step of it.  What is marked lies
  behind the walk and what it looks at lies ahead, so it comes to the same as looking at every rule
  at once (`foldl_visit`, `passInTurn_eq`).
* `Pipeline.exists_pass_of_mem_alerts` finds the pass that an alert of a run comes from.
* `Pipeline.evaluate_exactly` is all that a pass does.
-/

set_option autoImplicit false

namespace SpikeWatch

/-! ## Rules that are due -/

namespace Rule

/-- What a rule sees of the live counts. -/
def value (counts : Counts) (r : Rule) : Double :=
  .ofNat (counts.rate r.metric r.version).1.toNat

/-- The rule has rested for as long as it must, and its threshold is reached. -/
structure IsDue (counts : Counts) (now : Instant) (r : Rule) : Prop where
  rested : ∀ t ∈ r.lastFired, r.cooldown ≤ now.since t
  reached : r.threshold ≤ r.value counts

/-- The rule after it has fired. -/
def fired (now : Instant) (r : Rule) : Rule := { r with lastFired := some now }

variable {counts : Counts} {now : Instant} {r : Rule}

theorem isDue_iff : r.IsDue counts now ↔
    r.inCooldown now = false ∧ r.threshold ≤ r.value counts := by
  rw [inCooldown_eq_false_iff]
  constructor
  · intro h
    exact ⟨h.rested, h.reached⟩
  · intro h
    exact ⟨h.1, h.2⟩

instance decidableIsDue (counts : Counts) (now : Instant) (r : Rule) :
    Decidable (r.IsDue counts now) :=
  decidable_of_iff _ isDue_iff.symm

/-- A rule whose threshold is a number fires when it is due, and at no other time. -/
theorem fire?_eq (counts : Counts) (now : Instant) (hnumber : r.threshold ≠ .nan) :
    r.fire? counts now =
      if r.IsDue counts now then some (.ofRule r (r.value counts) now) else none := by
  have hreached : ¬ r.value counts < r.threshold ↔ r.threshold ≤ r.value counts :=
    Binary.not_lt_iff (Binary.ofNat_ne_nan _) hnumber
  by_cases hdue : r.IsDue counts now
  · rw [if_pos hdue]
    obtain ⟨hcool, hle⟩ := isDue_iff.1 hdue
    exact fire?_eq_some_iff.2 ⟨hcool, hreached.2 hle, rfl⟩
  · rw [if_neg hdue, Option.eq_none_iff_forall_ne_some]
    intro a ha
    obtain ⟨hcool, hlow, -⟩ := fire?_eq_some_iff.1 ha
    exact hdue (isDue_iff.2 ⟨hcool, hreached.1 hlow⟩)

theorem afterPass_of_fire?_eq_none (h : r.fire? counts now = none) :
    r.afterPass counts now = r := by
  rw [afterPass, h]
  rfl

theorem afterPass_of_fire?_eq_some {a : Alert} (h : r.fire? counts now = some a) :
    r.afterPass counts now = r.fired now := by
  rw [afterPass, h]
  rfl

theorem afterPass_eq_ite (hnumber : r.threshold ≠ .nan) :
    r.afterPass counts now = if r.IsDue counts now then r.fired now else r := by
  have hfire := fire?_eq counts now hnumber
  by_cases hdue : r.IsDue counts now
  · rw [if_pos hdue] at hfire ⊢
    exact afterPass_of_fire?_eq_some hfire
  · rw [if_neg hdue] at hfire ⊢
    exact afterPass_of_fire?_eq_none hfire

end Rule

theorem alertsOf_eq {rules : List Rule} (counts : Counts) (now : Instant)
    (hnumbers : ∀ r ∈ rules, r.threshold ≠ .nan) :
    alertsOf rules counts now =
      (rules.filter fun r => r.IsDue counts now).map fun r => .ofRule r (r.value counts) now := by
  induction rules with
  | nil => rfl
  | cons r rules ih =>
    obtain ⟨hr, hrules⟩ := List.forall_mem_cons.1 hnumbers
    have hrest := ih hrules
    rw [alertsOf] at hrest ⊢
    rw [List.filterMap_cons, Rule.fire?_eq counts now hr, hrest]
    by_cases hdue : r.IsDue counts now
    · simp [hdue]
    · simp [hdue]

theorem rulesAfter_eq {rules : List Rule} (counts : Counts) (now : Instant)
    (hnumbers : ∀ r ∈ rules, r.threshold ≠ .nan) :
    rulesAfter rules counts now =
      rules.map fun r => if r.IsDue counts now then r.fired now else r :=
  List.map_congr_left fun r hr => Rule.afterPass_eq_ite (hnumbers r hr)

namespace Pipeline

/-! ## The walk -/

/-- Looks at a rule, with its place, as the list had it when the walk began.  If it fires, its alert
is handed over, and the rule that has that place by now is marked. -/
def visit (now : Instant) (state : Pipeline × List Alert) (entry : Rule × Nat) :
    Pipeline × List Alert :=
  let (p, alerts) := state
  let (r, i) := entry
  match r.fire? p.counts now with
  | none => (p, alerts)
  | some a =>
    let p := p.deliver a
    ({ p with rules := p.rules.modify i (Rule.fired now) }, alerts ++ [a])

/-- Visits the rules one after the other, all at the instant at which the walk begins. -/
def passInTurn (p : Pipeline) : Pipeline × List Alert :=
  p.rules.zipIdx.foldl (visit p.now) (p, [])

variable {p : Pipeline} {now : Instant} {r : Rule}

theorem visit_of_fire?_eq_none (h : r.fire? p.counts now = none) (i : Nat) (alerts : List Alert) :
    visit now (p, alerts) (r, i) = (p, alerts) := by
  simp only [visit, h]

theorem visit_of_fire?_eq_some {a : Alert} (h : r.fire? p.counts now = some a)
    {seen rest : List Rule} (hrules : p.rules = seen ++ r :: rest) (alerts : List Alert) :
    visit now (p, alerts) (r, seen.length) =
      ({ p.deliver a with rules := seen ++ r.fired now :: rest }, alerts ++ [a]) := by
  have hmark : (p.deliver a).rules.modify seen.length (Rule.fired now) =
      seen ++ r.fired now :: rest := by
    change p.rules.modify seen.length (Rule.fired now) = _
    simp [hrules, List.modify_eq_take_cons_drop]
  simp only [visit, h, hmark]

/-- The rest of a walk.  Rules of `seen` may have been marked, and those of `rest` have not. -/
theorem foldl_visit (p : Pipeline) (seen rest : List Rule) (hrules : p.rules = seen ++ rest)
    (alerts : List Alert) :
    (rest.zipIdx seen.length).foldl (visit now) (p, alerts) =
      ((alertsOf rest p.counts now).foldl deliver
          { p with rules := seen ++ rulesAfter rest p.counts now },
        alerts ++ alertsOf rest p.counts now) := by
  induction rest generalizing p seen alerts with
  | nil => simp [alertsOf, rulesAfter, ← hrules]
  | cons r rest ih =>
    rw [List.zipIdx_cons, List.foldl_cons, alertsOf, rulesAfter, List.filterMap_cons, List.map_cons]
    rcases hfire : r.fire? p.counts now with _ | a
    · have hrest := ih p (seen ++ [r]) (by simp [hrules]) alerts
      rw [List.length_append, List.append_assoc] at hrest
      rw [visit_of_fire?_eq_none hfire, Rule.afterPass_of_fire?_eq_none hfire]
      exact hrest
    · -- neither the alert nor the mark changes what the rules ahead look at
      have hrest := ih { p.deliver a with rules := seen ++ r.fired now :: rest }
        (seen ++ [r.fired now]) (by simp) (alerts ++ [a])
      rw [List.length_append, List.append_assoc, List.append_assoc] at hrest
      rw [visit_of_fire?_eq_some hfire hrules, Rule.afterPass_of_fire?_eq_some hfire]
      exact hrest

/-- **A walk through the list as it was, which marks the list as it is**, comes to the same as
looking at every rule at once. -/
theorem passInTurn_eq (p : Pipeline) : p.passInTurn = p.evaluate :=
  p.foldl_visit [] p.rules rfl []

/-! ## Passes of a run -/

/-- The alerts of a run come from its passes. -/
theorem exists_pass_of_mem_alerts {p : Pipeline} {steps : List Step} {a : Alert}
    (h : a ∈ (p.run steps).2.flatMap Outcome.alerts) :
    ∃ before after, steps = before ++ .evaluate :: after ∧ a ∈ (p.run before).1.evaluate.2 := by
  induction steps generalizing p with
  | nil => cases h
  | cons s steps ih =>
    rw [run, List.flatMap_cons, List.mem_append] at h
    by_cases hs : s = .evaluate
    · subst hs
      rcases h with hpass | hrest
      · exact ⟨[], steps, rfl, hpass⟩
      · obtain ⟨before, after, rfl, hpass⟩ := ih hrest
        exact ⟨.evaluate :: before, after, rfl, hpass⟩
    · rw [alerts_step_of_ne p hs] at h
      obtain ⟨before, after, rfl, hpass⟩ := ih (h.resolve_left List.not_mem_nil)
      exact ⟨s :: before, after, rfl, hpass⟩

/-! ## The whole of it -/

/-- **One pass, exactly.**  Each rule that is due raises one alert, in the order of the list, and no
other does; rules that are alike count one by one.  The alert shows what the rule saw, and the rule
as it was.  After the pass the rules that fired have the present as their last firing and the others
the one they had, the alerts are handed over and counted, and nothing else has changed.  All this
comes of a walk that marks the list on its way. -/
theorem evaluate_exactly (p : Pipeline) (hnumbers : ∀ r ∈ p.rules, r.threshold ≠ .nan) :
    let due := p.rules.filter fun r => r.IsDue p.counts p.now
    p.passInTurn = p.evaluate ∧
      (p.evaluate.2.map fun a =>
          (a.rule, a.value, a.threshold, a.version, a.timestamp, a.message)) =
        due.map (fun r =>
          (r, r.value p.counts, r.threshold, r.version, p.now, r.name ++ " threshold exceeded")) ∧
      p.evaluate.1 = { p with
        rules := p.rules.map fun r =>
          if r.IsDue p.counts p.now then { r with lastFired := some p.now } else r
        notifier := { p.notifier with sent := p.notifier.sent ++ p.evaluate.2 }
        totals := { p.totals with
          alertsFired := p.totals.alertsFired + .ofNat p.evaluate.2.length
          notificationFailures := p.totals.notificationFailures +
            .ofNat (undelivered (p.notifier.deliveries p.evaluate.2)) } } := by
  intro due
  have halerts : p.evaluate.2 = due.map fun r => .ofRule r (r.value p.counts) p.now :=
    alertsOf_eq p.counts p.now hnumbers
  refine ⟨p.passInTurn_eq, ?_, ?_⟩
  · rw [halerts, List.map_map]
    rfl
  · have hrules := rulesAfter_eq p.counts p.now hnumbers
    simp only [evaluate, foldl_deliver, hrules]
    rfl

/-- A rule stands in the list twice, once more with a higher threshold, and once more at rest since
the same instant; the last one fires on nothing.  Two crashes set off both copies of the first. -/
theorem evaluate_exactly_copies :
    let rule : Rule :=
      { id := "r", name := "R", metric := .crash, version := "1.0", threshold := .ofNat 2 }
    let idle : Rule := { id := "i", name := "I", metric := .jank, threshold := .zero true }
    let counts := (({} : Counts).record .epoch .crash "1.0" "a").record .epoch .crash "1.0" "b"
    let p : Pipeline :=
      { now := .epoch
        counts
        rules := [rule, { rule with threshold := .ofNat 3 }, rule,
          { rule with lastFired := some .epoch }, idle] }
    (∀ r ∈ p.rules, r.threshold ≠ .nan) ∧ p.passInTurn = p.evaluate ∧
      (p.evaluate.2.map fun a =>
          (a.rule, a.value, a.threshold, a.version, a.timestamp, a.message)) =
        [(rule, .ofNat 2, .ofNat 2, "1.0", .epoch, "R threshold exceeded"),
          (rule, .ofNat 2, .ofNat 2, "1.0", .epoch, "R threshold exceeded"),
          (idle, .ofNat 0, .zero true, "", .epoch, "I threshold exceeded")] ∧
      p.evaluate.1.rules.map Rule.lastFired =
        [some .epoch, none, some .epoch, some .epoch, some .epoch] ∧
      p.evaluate.1.totals.alertsFired = 3 := by
  intro rule idle counts p
  have hnumbers : ∀ r ∈ p.rules, r.threshold ≠ .nan := by decide +kernel
  obtain ⟨hwalk, halerts, hstate⟩ := evaluate_exactly p hnumbers
  refine ⟨hnumbers, hwalk, halerts.trans ?_, ?_, ?_⟩
  · decide +kernel
  · rw [hstate]
    decide +kernel
  · rw [hstate]
    decide +kernel

end Pipeline

end SpikeWatch
