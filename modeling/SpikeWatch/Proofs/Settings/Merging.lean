import SpikeWatch.Proofs.Settings.Rules

/-!
# Built-in rules and set ones

A set rule takes the place of the built-in one with its id, if there is one, but not its position:
it stands behind all built-in rules that are left, where it was set.

* `RuleSetting.asSet` is the rule that a setting asks for to the letter.  Rules are made with
  durations up to a bound, and the check asks for no others, so of settings that can be used the two
  are the same (`RuleSetting.Usable.rule_eq`).
* `rules_exact` puts the rules together: what is left of the built-in ones in their order, and all
  set ones in theirs.  No two of them have the same id, so each set rule is there once.
-/

set_option autoImplicit false

namespace SpikeWatch.Settings

/-- The rule that a setting asks for, with durations of just so many seconds. -/
def RuleSetting.asSet (t : RuleSetting) : Rule where
  id := t.id
  name := t.name
  metric := t.metric
  version := t.appVersion
  threshold := t.threshold
  window := .ofSeconds t.windowSeconds.toNat
  cooldown := .ofSeconds t.cooldownSeconds.toNat
  lastFired := none

theorem RuleSetting.Usable.rule_eq {t : RuleSetting} (h : t.Usable) : t.rule = t.asSet := by
  rw [rule, asSet, Int.min_eq_left (Int.ofNat_le.2 h.window.2),
    Int.min_eq_left (Int.ofNat_le.2 h.cooldown)]

/-- Of rules with ids of their own, just one has the id of a given one. -/
theorem filter_id_eq_singleton {rules : List Rule} (h : (rules.map Rule.id).Nodup) {r : Rule}
    (hr : r ∈ rules) : rules.filter (·.id = r.id) = [r] := by
  obtain ⟨before, after, rfl⟩ := List.append_of_mem hr
  rw [List.map_append, List.map_cons, List.nodup_middle, List.nodup_cons, ← List.map_append,
    List.mem_map] at h
  have hothers : ∀ t ∈ before ++ after, ¬ t.id = r.id := fun t ht hid => h.1 ⟨t, ht, hid⟩
  obtain ⟨hbefore, hafter⟩ := List.forall_mem_append.1 hothers
  have hnone (l : List Rule) (hl : ∀ t ∈ l, ¬ t.id = r.id) : l.filter (·.id = r.id) = [] :=
    List.filter_eq_nil_iff.2 fun t ht => by simpa using hl t ht
  rw [List.filter_append, List.filter_cons_of_pos (by simp), hnone before hbefore,
    hnone after hafter, List.nil_append]

/-- **Rules are neither lost nor doubled.**  Under settings that can be used no two rules have the
same id.  In front stand the built-in rules, if they are wanted, whose ids no set rule has, in their
order, and behind them all set rules in theirs, each as it was set and fired at no time.  Each of
these is the one rule with its id. -/
theorem rules_exact {s : Settings} (h : s.check = .ok ()) :
    (s.rules.map Rule.id).Nodup ∧
      (∃ kept : List Rule, kept.Sublist Rule.builtIn ∧
        (∀ r, r ∈ kept ↔ s.alerts.useDefaultRules = true ∧ r ∈ Rule.builtIn ∧
          ∀ t ∈ s.alerts.rules, t.id ≠ r.id) ∧
        s.rules = kept ++ s.alerts.rules.map RuleSetting.asSet) ∧
      ∀ t ∈ s.alerts.rules, s.rules.filter (·.id = t.id) = [t.asSet] := by
  have hids := nodup_ids_rules h
  obtain ⟨-, -, husable, -⟩ := check_eq_ok_iff.1 h
  have hasSet : s.alerts.rules.map RuleSetting.rule = s.alerts.rules.map RuleSetting.asSet :=
    List.map_congr_left fun t ht => (husable t ht).rule_eq
  obtain ⟨kept, hsublist, hkept, hrules⟩ := exists_rules_eq_append s
  rw [hasSet] at hrules
  refine ⟨hids, ⟨kept, hsublist, hkept, hrules⟩, fun t ht => ?_⟩
  have hmem : t.asSet ∈ s.rules := by
    rw [hrules]
    exact List.mem_append_right kept (List.mem_map_of_mem ht)
  exact filter_id_eq_singleton hids hmem

/-- One set rule takes the place of the last built-in one, and another has an id of its own. -/
theorem rules_exact_replaced :
    let jank : RuleSetting :=
      { id := "jank_spike", name := "Janks", metric := .jank, threshold := .ofNat 20 }
    let beta : RuleSetting :=
      { id := "beta", name := "Beta", metric := .exception, appVersion := "3.0.0-beta",
        threshold := .ofNat 25, windowSeconds := 86400, cooldownSeconds := 0 }
    let s : Settings := { alerts := { rules := [jank, beta] } }
    s.check = .ok () ∧
      s.rules.map Rule.id = ["crash_spike", "exception_spike", "jank_spike", "beta"] ∧
      s.rules.filter (·.id = "jank_spike") = [jank.asSet] ∧
      s.rules.filter (·.id = "beta") = [beta.asSet] := by
  intro jank beta s
  have hcheck : s.check = .ok () := by decide +kernel
  obtain ⟨-, -, hset⟩ := rules_exact hcheck
  refine ⟨hcheck, by decide +kernel, ?_, ?_⟩
  · exact hset jank (.head _)
  · exact hset beta (.tail _ (.head _))

end SpikeWatch.Settings
