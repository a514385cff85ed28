import SpikeWatch.Proofs.Alert.Firing
import Mathlib.Data.List.Chain

/-!
# Cooldowns

A rule that has fired rests for its cooldown, whatever else happens and wherever the clock is set.
The reason is that a rule carries the instant of its last firing with it, and only a firing
changes that.  So each firing is held against the one before it, and the first one against the last
firing that the rule came with (`firings_chain`).

Over a clock that is set back, the firings of a rule still come in the order of their instants,
as long as the cooldown is not negative; then any two of them, and not just neighbours, lie a
cooldown apart.
-/

set_option autoImplicit false

namespace SpikeWatch

theorem Instant.cooldown_trans {c : Duration} (hc : 0 ≤ c.nanos) {s t u : Instant}
    (hst : c ≤ t.since s) (htu : c ≤ u.since t) : c ≤ u.since s := by
  change c.nanos ≤ t.nanos - s.nanos at hst
  change c.nanos ≤ u.nanos - t.nanos at htu
  change c.nanos ≤ u.nanos - s.nanos
  omega

namespace Pipeline

/-- When the rule at a place fires in a run, after the instant at which it last fired before. -/
def firingTimes (i : Nat) (r : Rule) (p : Pipeline) (steps : List Step) : List Instant :=
  r.lastFired.toList ++ (p.firings i steps).map Alert.timestamp

theorem firings_chain {i : Nat} {r : Rule} (p : Pipeline) (steps : List Step)
    (h : (p.registered steps)[i]? = some r) :
    (p.firingTimes i r steps).IsChain fun s t => r.cooldown ≤ t.since s := by
  rw [firingTimes]
  -- along the run the rule changes in its last firing, which is the head of the list
  induction steps generalizing p r with
  | nil =>
    cases r.lastFired with
    | none => exact .nil
    | some t => exact .singleton t
  | cons s steps ih =>
    have hrest := ih (p.step s).1 (p.registered_step s steps h)
    cases hfire : p.firing i s with
    | none => simpa [firings, hfire] using hrest
    | some a =>
      obtain ⟨-, r', hr', ha⟩ := firing_eq_some_iff.1 hfire
      obtain rfl : r' = r := Option.some.inj ((getElem?_registered _ hr').symm.trans h)
      obtain ⟨hrested, -, rfl⟩ := Rule.fire?_eq_some_iff.1 ha
      simp only [firings, hfire, Option.map_some, Option.some_or, Option.toList_some,
        List.cons_append, List.nil_append, List.map_cons] at hrest ⊢
      cases hlast : r'.lastFired with
      | none => simpa using hrest
      | some t => simpa using ⟨Rule.inCooldown_eq_false_iff.1 hrested t hlast, hrest⟩

theorem firings_pairwise {i : Nat} {r : Rule} (p : Pipeline) (steps : List Step)
    (h : (p.registered steps)[i]? = some r) (hc : 0 ≤ r.cooldown.nanos) :
    (p.firingTimes i r steps).Pairwise fun s t => r.cooldown ≤ t.since s := by
  have : Trans (fun s t : Instant => r.cooldown ≤ t.since s)
      (fun s t : Instant => r.cooldown ≤ t.since s)
      (fun s t : Instant => r.cooldown ≤ t.since s) := ⟨Instant.cooldown_trans hc⟩
  exact (p.firings_chain steps h).pairwise

/-- **A rule never fires twice within its cooldown.**  Each firing comes at least the cooldown
after the one before it, and the first one after the firing that the rule came with; unless the
cooldown is negative, any two of them lie that far apart.  The firings of all places are the alerts
that the passes of the run gave back. -/
theorem firings_keep_cooldown {i : Nat} {r : Rule} (p : Pipeline) (steps : List Step)
    (h : (p.registered steps)[i]? = some r) :
    ((p.firingTimes i r steps).IsChain fun s t => r.cooldown ≤ t.since s) ∧
      (0 ≤ r.cooldown.nanos →
        (p.firingTimes i r steps).Pairwise fun s t => r.cooldown ≤ t.since s) ∧
      p.AlertsByPlace steps :=
  ⟨p.firings_chain steps h, p.firings_pairwise steps h, p.alertsByPlace steps⟩

/-- The clock is set back after the second pass, and the last alert is not delivered. -/
theorem firings_keep_cooldown_set_back :
    let rule : Rule :=
      { id := "r", name := "R", metric := .crash, threshold := .zero false,
        lastFired := some .epoch }
    let p : Pipeline := { now := .epoch }
    let steps : List Step :=
      [.addRule rule, .evaluate, .advance (.ofMinutes 5), .evaluate, .setClock .epoch, .evaluate,
        .answerWith (.error (.status 500)), .advance (.ofMinutes 11), .evaluate]
    (p.registered steps)[0]? = some rule ∧ 0 ≤ rule.cooldown.nanos ∧
      (p.firingTimes 0 rule steps).map Instant.seconds = [0, 300, 660] ∧
      ((p.firingTimes 0 rule steps).IsChain fun s t => rule.cooldown ≤ t.since s) ∧
      ((p.firingTimes 0 rule steps).Pairwise fun s t => rule.cooldown ≤ t.since s) ∧
      p.AlertsByPlace steps := by
  intro rule p steps
  have h : (p.registered steps)[0]? = some rule := rfl
  have hc : 0 ≤ rule.cooldown.nanos := by decide
  obtain ⟨hchain, hpairwise, halerts⟩ := firings_keep_cooldown p steps h
  exact ⟨h, hc, by decide +kernel, hchain, hpairwise hc, halerts⟩

end Pipeline

end SpikeWatch
