import SpikeWatch.Proofs.Alert.Cooldown

/-!
# Last firings

A rule keeps its place from the moment it is added, and all that ever changes about it is its last
firing.  So the list of the rules is told by what was added and by the alerts of each place, and a
place names the same rule for good.

* `length_rules_run` and `getElem?_rules_run` follow the list through a run.
* `timestamp_le_of_mem_firings` says which alert of a place is the latest.
* `Pipeline.rules_run` is the list after a run, with the alerts that it comes from.
-/

set_option autoImplicit false

namespace SpikeWatch.Pipeline

theorem length_rules_run (p : Pipeline) (steps : List Step) :
    (p.run steps).1.rules.length = (p.registered steps).length := by
  induction steps generalizing p with
  | nil => simp [registered, run]
  | cons s steps ih => exact (ih (p.step s).1).trans (p.length_registered_step s steps)

/-- The last firing of a rule is that of the last alert of its place, and the one it came with as
long as there is none. -/
def lastFiring (i : Nat) (r : Rule) (p : Pipeline) (steps : List Step) : Option Instant :=
  ((p.firings i steps).getLast?.map Alert.timestamp).or r.lastFired

theorem getElem?_rules_run {i : Nat} {r : Rule} (p : Pipeline) (steps : List Step)
    (h : (p.registered steps)[i]? = some r) :
    (p.run steps).1.rules[i]? = some { r with lastFired := p.lastFiring i r steps } := by
  induction steps generalizing p r with
  | nil => simpa [registered, run, lastFiring, firings] using h
  | cons s steps ih =>
    have hlast : (p.step s).1.lastFiring i
          { r with lastFired := ((p.firing i s).map Alert.timestamp).or r.lastFired } steps =
        p.lastFiring i r (s :: steps) := by
      rw [lastFiring, lastFiring, firings, List.getLast?_append, Option.map_or, Option.or_assoc]
      rcases p.firing i s with _ | a
      · rfl
      · rfl
    have hrest := ih (p.step s).1 (p.registered_step s steps h)
    rw [hlast] at hrest
    exact hrest

/-- With a cooldown that is not negative, no alert of a place is later than its last one. -/
theorem timestamp_le_of_mem_firings {i : Nat} {r : Rule} {p : Pipeline} {steps : List Step}
    (h : (p.registered steps)[i]? = some r) (hc : 0 ≤ r.cooldown.nanos) {a b : Alert}
    (ha : a ∈ p.firings i steps) (hb : b ∈ (p.firings i steps).getLast?) :
    a.timestamp ≤ b.timestamp := by
  have hpairwise := (List.pairwise_append.1 (p.firings_pairwise steps h hc)).2.1
  obtain ⟨earlier, hlast⟩ := List.getLast?_eq_some_iff.1 hb
  rw [List.pairwise_map, hlast] at hpairwise
  rw [hlast, List.mem_append, List.mem_singleton] at ha
  rcases ha with hearlier | rfl
  · have hapart := (List.pairwise_append.1 hpairwise).2.2 a hearlier b (List.mem_singleton_self b)
    change r.cooldown.nanos ≤ b.timestamp.nanos - a.timestamp.nanos at hapart
    change a.timestamp.nanos ≤ b.timestamp.nanos
    omega
  · exact Instant.le_refl _

/-- **The list of the rules** after a run holds those that were there and those that were added, in
their order, and nothing about any of them has changed but its last firing.  That is the instant of
the last alert that this very rule raised, or what the rule came with as long as it raised none.
The alerts of the run are those of the places, and each shows the rule of its place; unless the
cooldown of that rule is negative, its last alert is the latest by the clock as well. -/
theorem rules_run (p : Pipeline) (steps : List Step) :
    (p.run steps).1.rules = (p.registered steps).mapIdx (fun i r => { r with
      lastFired := ((p.firings i steps).getLast?.map Alert.timestamp).or r.lastFired }) ∧
    ((p.run steps).2.flatMap Outcome.alerts).Perm
      ((List.range (p.registered steps).length).flatMap fun i => p.firings i steps) ∧
    ∀ i r, (p.registered steps)[i]? = some r → ∀ a ∈ p.firings i steps,
      a.rule = { r with lastFired := a.rule.lastFired } ∧
      (0 ≤ r.cooldown.nanos → ∀ b ∈ (p.firings i steps).getLast?, a.timestamp ≤ b.timestamp) := by
  refine ⟨?_, p.alerts_run_perm steps, ?_⟩
  · apply List.ext_getElem?
    intro i
    rw [List.getElem?_mapIdx]
    rcases h : (p.registered steps)[i]? with _ | r
    · have hlength := List.getElem?_eq_none_iff.1 h
      rw [← length_rules_run] at hlength
      exact List.getElem?_eq_none hlength
    · exact p.getElem?_rules_run steps h
  · intro i r h a ha
    exact ⟨rule_of_mem_firings h ha, fun hc b hb => timestamp_le_of_mem_firings h hc ha hb⟩

/-- Two rules of one id are added, the second one behind a pass, with a last firing of its own.  The
first has fired when the clock is set back, and then the second does. -/
theorem rules_run_two :
    let rule : Rule := { id := "r", name := "R", metric := .crash, threshold := .ofNat 1 }
    let other : Rule := { rule with threshold := .ofNat 2, lastFired := some .epoch }
    let p : Pipeline := { now := { nanos := 600000000000 } }
    let steps : List Step :=
      [.addRule rule, .record .crash "" "a", .evaluate, .addRule other, .record .crash "" "a",
        .advance (.ofMinutes (-3)), .evaluate]
    p.registered steps = [rule, other] ∧
      (p.run steps).1.rules =
        [{ rule with lastFired := some { nanos := 600000000000 } },
          { other with lastFired := some { nanos := 420000000000 } }] ∧
      ∀ a ∈ p.firings 1 steps, a.rule = { other with lastFired := a.rule.lastFired } := by
  intro rule other p steps
  have hregistered : p.registered steps = [rule, other] := rfl
  obtain ⟨hrules, -, halerts⟩ := rules_run p steps
  refine ⟨hregistered, ?_, ?_⟩
  · rw [hrules, hregistered]
    decide +kernel
  · intro a ha
    exact (halerts 1 other rfl a ha).1

end SpikeWatch.Pipeline
