import SpikeWatch.Pipeline.Wiring
import SpikeWatch.Proofs.Alert.Firing
import SpikeWatch.Proofs.Ingest.Acceptance
import SpikeWatch.Proofs.Pipeline.History

/-!
# Rules without a version

A rule that names no version does not watch all versions together.  It watches the events whose
version is the empty text, to the letter, and no such event is ever accepted
(`Pipeline.appVersion_ne_empty_of_mem_accepted`).

* `Counts.Versioned` says that nothing is counted under the empty version.  Every step keeps it but
  the recording of an occurrence that no event reported (`Pipeline.versioned_step`).
* So a rule without a version stays silent unless its threshold is reached by nothing at all
  (`Pipeline.firings_eq_nil`), and no alert shows such a rule (`Pipeline.versioned_of_mem_alerts`).
  The built-in rules are of this sort.
-/

set_option autoImplicit false

namespace SpikeWatch

/-- Nothing is counted under the empty version. -/
def Counts.Versioned (counts : Counts) : Prop := ∀ m, (counts.table m)[""]? = none

/-- Nothing is counted at first. -/
theorem Counts.versioned_empty : Counts.Versioned {} := fun m => by cases m <;> rfl

/-- Recording occurrences with a version keeps the empty one free. -/
theorem Counts.Versioned.foldl_add {counts : Counts} (h : counts.Versioned)
    {os : List Occurrence} (hos : ∀ o ∈ os, o.version ≠ "") :
    (os.foldl Counts.add counts).Versioned := by
  induction os generalizing counts with
  | nil => exact h
  | cons o os ih =>
    obtain ⟨ho, hos⟩ := List.forall_mem_cons.1 hos
    refine ih (fun m => ?_) hos
    rw [Counts.getElem?_add, Occurrence.isOf, if_neg (by simp [ho]), h m]

/-- A sweep brings nothing in. -/
theorem Counts.Versioned.sweep {counts : Counts} (h : counts.Versioned) (window : Duration)
    (now : Instant) : (counts.sweep window now).1.Versioned := fun m => by
  rw [getElem?_sweep, h m]
  rfl

/-- A count that is not there is zero. -/
theorem Counts.Versioned.rate {counts : Counts} (h : counts.Versioned) (m : Metric) :
    counts.rate m "" = (0, 0) := by
  rw [Counts.rate, h m]

namespace Pipeline

/-- The check of an event sees to it that its version is not empty. -/
theorem appVersion_ne_empty_of_mem_accepted {p : Pipeline} {raws : List Json.Value} {e : Event}
    (he : e ∈ p.accepted raws) : e.context.appVersion ≠ "" := by
  obtain ⟨raw, -, hjudge⟩ := mem_accepted_iff.1 he
  obtain ⟨_, _, _, _, -, -, -, -, hcheck, rfl⟩ := judge_eq_ok_iff_exists.1 hjudge
  exact (Limits.check_eq_ok_iff.1 hcheck).2.1

/-- So all that is recorded of events has a version. -/
theorem version_ne_empty_of_mem_occurrences {p : Pipeline} {s : Step}
    (hs : ∀ m v session, s ≠ .record m v session) {o : Occurrence} (ho : o ∈ p.occurrences s) :
    o.version ≠ "" := by
  obtain ⟨m, v, session, rfl, -⟩ | ⟨raws, e, he, m, rfl⟩ := eq_of_mem_occurrences ho
  · exact absurd rfl (hs m v session)
  · exact appVersion_ne_empty_of_mem_accepted he

/-- Only an occurrence that no event reported can be counted under the empty version. -/
theorem versioned_step {p : Pipeline} (h : p.counts.Versioned) {s : Step}
    (hs : ∀ m v session, s ≠ .record m v session) : (p.step s).1.counts.Versioned := by
  rw [step_counts]
  by_cases hsweep : s = .sweep
  · subst hsweep
    exact h.sweep p.window p.now
  · rw [countsAfter_of_ne_sweep hsweep]
    exact h.foldl_add fun o => version_ne_empty_of_mem_occurrences hs

/-- A rule without a version finds nothing, and nothing does not reach a positive threshold. -/
theorem firing_eq_none {p : Pipeline} (h : p.counts.Versioned) {i : Nat}
    (hrule : ∀ r, p.rules[i]? = some r → r.version = "" ∧ (.zero false : Double) < r.threshold)
    (s : Step) : p.firing i s = none := by
  cases hfire : p.firing i s with
  | none => rfl
  | some a =>
    obtain ⟨-, r, hr, ha⟩ := firing_eq_some_iff.1 hfire
    obtain ⟨hversion, hpos⟩ := hrule r hr
    obtain ⟨-, hreached, -⟩ := Rule.fire?_eq_some_iff.1 ha
    rw [hversion, h.rate] at hreached
    change ¬ (.ofNat 0 : Double) < r.threshold at hreached
    rw [Binary.ofNat_zero] at hreached
    exact absurd hpos hreached

/-- The same for a run.  The induction is on its steps, with the place of the rule fixed: rules may
be added in the meantime, and stand behind it. -/
theorem firings_eq_nil {p : Pipeline} (h : p.counts.Versioned) {steps : List Step}
    (hfed : ∀ s ∈ steps, ∀ m v session, s ≠ .record m v session) {i : Nat} {r : Rule}
    (hrule : (p.registered steps)[i]? = some r) (hversion : r.version = "")
    (hpos : (.zero false : Double) < r.threshold) : p.firings i steps = [] := by
  -- a step may change the last firing of the rule, but neither its version nor its threshold
  induction steps generalizing p r with
  | nil => rfl
  | cons s steps ih =>
    obtain ⟨hs, hfed⟩ := List.forall_mem_cons.1 hfed
    have hnone : p.firing i s = none := by
      refine firing_eq_none h (fun r' hr' => ?_) s
      obtain rfl : r' = r := Option.some.inj ((getElem?_registered _ hr').symm.trans hrule)
      exact ⟨hversion, hpos⟩
    have hrest := ih (versioned_step h hs) hfed (p.registered_step s steps hrule) hversion hpos
    rw [firings, hnone, hrest]
    rfl

theorem versioned_of_mem_alerts {p : Pipeline} (h : p.counts.Versioned) {steps : List Step}
    (hfed : ∀ s ∈ steps, ∀ m v session, s ≠ .record m v session) {a : Alert}
    (ha : a ∈ (p.run steps).2.flatMap Outcome.alerts) (hversion : a.rule.version = "") :
    ¬ (.zero false : Double) < a.rule.threshold := by
  intro hpos
  obtain ⟨i, r, hrule, hfiring⟩ := exists_place_of_mem_alerts ha
  rw [rule_of_mem_firings hrule hfiring] at hversion hpos
  rw [firings_eq_nil h hfed hrule hversion hpos] at hfiring
  exact List.not_mem_nil hfiring

/-- The built-in rules name no version, and ask for something. -/
theorem builtIn_unversioned : ∀ r ∈ Rule.builtIn,
    r.version = "" ∧ (.zero false : Double) < r.threshold := by
  decide +kernel

/-- **Requests alone never set off a rule without a version**, unless its threshold is reached by
nothing.  So the built-in rules stay silent with any settings, however many events come in: they do
not fire at any place, and none of the alerts of the run shows one of them. -/
theorem unversioned_never_fires (steps : List Step)
    (hfed : ∀ m v session, Step.record m v session ∉ steps) :
    (∀ p : Pipeline, p.counts = {} →
      (∀ i r, (p.registered steps)[i]? = some r →
        r.version = "" → (.zero false : Double) < r.threshold → p.firings i steps = []) ∧
      ∀ a ∈ (p.run steps).2.flatMap Outcome.alerts,
        a.rule.version = "" → ¬ (.zero false : Double) < a.rule.threshold) ∧
    ∀ (s : Settings) (now : Instant) (store : Store), ∀ r ∈ Rule.builtIn,
      (∀ i, ((ofSettings s now store).registered steps)[i]? = some r →
        (ofSettings s now store).firings i steps = []) ∧
      ∀ a ∈ ((ofSettings s now store).run steps).2.flatMap Outcome.alerts,
        a.rule ≠ { r with lastFired := a.rule.lastFired } := by
  have hsteps : ∀ s ∈ steps, ∀ m v session, s ≠ .record m v session := by
    rintro s hs m v session rfl
    exact hfed m v session hs
  refine ⟨fun p hempty => ?_, fun s now store r hr => ?_⟩
  · have hstart : p.counts.Versioned := by
      rw [hempty]
      exact Counts.versioned_empty
    refine ⟨fun i r hrule hversion hpos => ?_, fun a ha hversion => ?_⟩
    · exact firings_eq_nil hstart hsteps hrule hversion hpos
    · exact versioned_of_mem_alerts hstart hsteps ha hversion
  · obtain ⟨hversion, hpos⟩ := builtIn_unversioned r hr
    refine ⟨fun i hrule => ?_, fun a ha hshown => ?_⟩
    · exact firings_eq_nil Counts.versioned_empty hsteps hrule hversion hpos
    · refine versioned_of_mem_alerts Counts.versioned_empty hsteps ha ?_ ?_
      · rw [hshown]
        exact hversion
      · rw [hshown]
        exact hpos

/-- Ten crashes come in one by one, which is as many as the built-in rule asks for; then a rule
is added that a single one would set off. -/
theorem unversioned_never_fires_ten_crashes :
    let crash := Json.writeObject <| [("type", "crash"), ("app_version", "1"), ("platform", "iOS"),
      ("device_id", "d"), ("session_id", "s"), ("fingerprint", "f")].map fun (name, text) =>
        (name, Json.writeText text)
    let body := String.ofList (Json.writeObject [("events", Json.writeList [crash])])
    let rule : Rule := { id := "r", name := "R", metric := .crash, threshold := .ofNat 1 }
    let p := ofSettings { alerts := { enabled := true } } { nanos := 1700000000000000000 } .log
    let steps : List Step := List.replicate 10 (.dispatch body) ++
      [.evaluate, .addRule rule, .advance (.ofSeconds 30), .sweep, .evaluate]
    (∀ m v session, Step.record m v session ∉ steps) ∧
      p.registered steps = Rule.builtIn ++ [rule] ∧
      (p.run steps).1.counts.rate .crash "1" = (10, 1) ∧
      (.zero false : Double) < rule.threshold ∧
      p.firings 0 steps = [] ∧ p.firings 3 steps = [] ∧
      ∀ a ∈ (p.run steps).2.flatMap Outcome.alerts,
        a.rule.version = "" → ¬ (.zero false : Double) < a.rule.threshold := by
  intro crash body rule p steps
  have hfed : ∀ m v session, Step.record m v session ∉ steps := by
    intro m v session
    simp [steps]
  have hrules : p.registered steps = Rule.builtIn ++ [rule] := by decide +kernel
  have hpos : (.zero false : Double) < rule.threshold := by decide +kernel
  obtain ⟨hany, hbuiltIn⟩ := unversioned_never_fires steps hfed
  obtain ⟨hplaces, halerts⟩ := hany p rfl
  refine ⟨hfed, hrules, by decide +kernel, hpos, ?_, ?_, halerts⟩
  · refine (hbuiltIn _ _ _ Rule.builtIn[0] (List.getElem_mem _)).1 0 ?_
    change (p.registered steps)[0]? = _
    rw [hrules]
    rfl
  · refine hplaces 3 rule ?_ rfl hpos
    rw [hrules]
    rfl

end Pipeline

end SpikeWatch
