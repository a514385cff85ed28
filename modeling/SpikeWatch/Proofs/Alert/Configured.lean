import SpikeWatch.Pipeline.Wiring
import SpikeWatch.Proofs.Settings.Rules
import SpikeWatch.Proofs.Window.Tally

/-!
# Alerts of a configured pipeline

A rule may ask for nothing, and then it fires on nothing; two rules may have the same id, and then
one pass raises two alerts under it.  Settings that were checked allow neither.

* `Rules.Sound` is what the check leaves of all that: ids of their own, and positive thresholds.
  The rules of a pipeline begin so (`sound_ofSettings`), and no step but adding another rule can
  change it (`sound_step`, `sound_run`).
* A sound rule fires on a positive count only (`rate_pos_of_fire?`), so there is a live occurrence
  behind each alert.  And a pass raises one alert for a rule at most (`ids_alertsOf_sublist`).
* `Pipeline.configured_alerts` is both of a whole run, from the text of the settings on.
-/

set_option autoImplicit false

namespace SpikeWatch

/-! ## Rules -/

/-- Rules with ids of their own, that do not fire on nothing. -/
structure Rules.Sound (rules : List Rule) : Prop where
  nodup_ids : (rules.map Rule.id).Nodup
  threshold_pos : ∀ r ∈ rules, .zero false < r.threshold

@[simp]
theorem Rule.id_afterPass (counts : Counts) (now : Instant) (r : Rule) :
    (r.afterPass counts now).id = r.id := by
  rw [afterPass_eq]

@[simp]
theorem Rule.threshold_afterPass (counts : Counts) (now : Instant) (r : Rule) :
    (r.afterPass counts now).threshold = r.threshold := by
  rw [afterPass_eq]

theorem Rules.Sound.rulesAfter {rules : List Rule} (h : Rules.Sound rules) (counts : Counts)
    (now : Instant) : Rules.Sound (rulesAfter rules counts now) where
  nodup_ids := by
    have hids : (SpikeWatch.rulesAfter rules counts now).map Rule.id = rules.map Rule.id := by
      simp [SpikeWatch.rulesAfter]
    rw [hids]
    exact h.nodup_ids
  threshold_pos r hr := by
    obtain ⟨r', hr', rfl⟩ := List.mem_map.1 hr
    rw [Rule.threshold_afterPass]
    exact h.threshold_pos r' hr'

/-- A rule with a positive threshold fires on a positive count. -/
theorem Rule.rate_pos_of_fire? {r : Rule} {counts : Counts} {now : Instant} {a : Alert}
    (hpos : .zero false < r.threshold) (h : r.fire? counts now = some a) :
    a.threshold ≤ a.value ∧ .zero false < a.threshold ∧
      0 < (counts.rate a.rule.metric a.version).1.toNat := by
  obtain ⟨-, hreached, rfl⟩ := fire?_eq_some_iff.1 h
  refine ⟨?_, hpos, Nat.pos_of_ne_zero fun hzero => hreached ?_⟩
  · exact (Binary.not_lt_iff (Binary.ofNat_ne_nan _) (Binary.ne_nan_of_lt hpos)).1 hreached
  · change (counts.rate r.metric r.version).1.toNat = 0 at hzero
    rw [hzero, Binary.ofNat_zero]
    exact hpos

/-- A pass raises at most one alert for a rule. -/
theorem ids_alertsOf_sublist (rules : List Rule) (counts : Counts) (now : Instant) :
    ((alertsOf rules counts now).map (·.rule.id)).Sublist (rules.map Rule.id) := by
  induction rules with
  | nil => exact .slnil
  | cons r rest ih =>
    rw [alertsOf, List.filterMap_cons]
    cases hfire : r.fire? counts now with
    | none => exact ih.cons r.id
    | some a =>
      obtain ⟨-, -, rfl⟩ := Rule.fire?_eq_some_iff.1 hfire
      exact ih.cons_cons r.id

/-! ## Runs -/

namespace Pipeline

theorem sound_ofSettings {s : Settings} (h : s.check = .ok ()) (now : Instant) (store : Store) :
    Rules.Sound (ofSettings s now store).rules := by
  rw [ofSettings]
  dsimp only
  split
  · exact ⟨Settings.nodup_ids_rules h, fun r => Settings.threshold_pos_of_mem_rules h⟩
  · exact ⟨List.nodup_nil, List.forall_mem_nil _⟩

variable {p : Pipeline}

theorem sound_step (h : Rules.Sound p.rules) {s : Step} (hs : ∀ r, s ≠ .addRule r) :
    Rules.Sound (p.step s).1.rules := by
  rw [step_rules]
  cases s with
  | evaluate => exact h.rulesAfter p.counts p.now
  | addRule r => exact absurd rfl (hs r)
  | _ => exact h

theorem sound_run (h : Rules.Sound p.rules) {steps : List Step}
    (hnew : ∀ s ∈ steps, ∀ r, s ≠ .addRule r) : Rules.Sound (p.run steps).1.rules := by
  induction steps generalizing p with
  | nil => exact h
  | cons s steps ih =>
    obtain ⟨hs, hrest⟩ := List.forall_mem_cons.1 hnew
    exact ih (sound_step h hs) hrest

/-- There are live occurrences behind each alert. -/
theorem live_ne_nil_of_mem_evaluate (hempty : p.counts = {}) {steps : List Step}
    (h : Rules.Sound (p.run steps).1.rules) {a : Alert} (ha : a ∈ (p.run steps).1.evaluate.2) :
    a.threshold ≤ a.value ∧ .zero false < a.threshold ∧
      p.live a.rule.metric a.version steps ≠ [] := by
  obtain ⟨r, hr, hfire⟩ := List.mem_filterMap.1 ha
  obtain ⟨hle, hpos, hrate⟩ := Rule.rate_pos_of_fire? (h.threshold_pos r hr) hfire
  refine ⟨hle, hpos, List.ne_nil_of_length_pos ?_⟩
  exact Nat.lt_of_lt_of_le hrate (toNat_rate_le hempty a.rule.metric a.version)

/-- **A configured pipeline is silent about nothing, and says nothing twice at once.**  Settings are
read from a text, and a run of their pipeline adds no rules.  Then each alert that a pass raises has
a value that reaches its threshold, which is positive, and there is an occurrence of its metric and
version since the last sweep that dropped their entry; and no two alerts of one pass are about rules
with the same id. -/
theorem configured_alerts {text : String} {s : Settings}
    (h : Settings.ofCheckedToml text = .ok s) (now : Instant) (store : Store) {steps : List Step}
    (hnew : ∀ r, .addRule r ∉ steps) {before after : List Step}
    (hpass : steps = before ++ .evaluate :: after) :
    let p := ofSettings s now store
    let alerts := (p.run before).1.evaluate.2
    (∀ a ∈ alerts, a.threshold ≤ a.value ∧ .zero false < a.threshold ∧
      p.live a.rule.metric a.version before ≠ []) ∧ (alerts.map (·.rule.id)).Nodup := by
  intro p alerts
  have hbefore : ∀ s ∈ before, ∀ r, s ≠ .addRule r := by
    rintro s hs r rfl
    exact hnew r (hpass ▸ List.mem_append_left _ hs)
  have hcheck := Settings.check_of_ofCheckedToml h
  have hsound : Rules.Sound (p.run before).1.rules :=
    sound_run (sound_ofSettings hcheck now store) hbefore
  refine ⟨fun a ha => live_ne_nil_of_mem_evaluate rfl hsound ha, ?_⟩
  exact (ids_alertsOf_sublist _ _ _).nodup hsound.nodup_ids

/-- A rule is set in the place of a built-in one, with a lower threshold.  The first pass raises
nothing, and the second an alert about the jank between them. -/
theorem configured_alerts_jank :
    let text := "[alerts]\nenabled = true\n[[alerts.rules]]\nid = \"jank_spike\"\n" ++
      "name = \"J\"\nmetric = \"jank\"\nthreshold = 1\n"
    let s : Settings := { alerts := {
      enabled := true
      rules := [{ id := "jank_spike", name := "J", metric := .jank, threshold := .ofNat 1 }] } }
    let p := ofSettings s .epoch (.memory {})
    let before : List Step := [.evaluate, .record .jank "" "a"]
    let alerts := (p.run before).1.evaluate.2
    Settings.ofCheckedToml text = .ok s ∧ (∀ r, .addRule r ∉ before ++ [.evaluate]) ∧
      alerts.map (·.rule.id) = ["jank_spike"] ∧
      (∀ a ∈ alerts, a.threshold ≤ a.value ∧ .zero false < a.threshold ∧
        p.live a.rule.metric a.version before ≠ []) ∧ (alerts.map (·.rule.id)).Nodup := by
  intro text s p before alerts
  have hread : (Settings.ofCheckedToml text).toOption = some s := by decide +kernel
  have htext : Settings.ofCheckedToml text = .ok s := by
    cases hchecked : Settings.ofCheckedToml text with
    | error e =>
      rw [hchecked] at hread
      cases hread
    | ok t =>
      rw [hchecked] at hread
      exact congrArg Except.ok (Option.some.inj hread)
  have hnew : ∀ r, .addRule r ∉ before ++ [.evaluate] := by
    intro r
    simp [before]
  obtain ⟨hjustified, honce⟩ := configured_alerts htext .epoch (.memory {}) hnew rfl
  exact ⟨htext, hnew, by decide +kernel, hjustified, honce⟩

end Pipeline

end SpikeWatch
