import SpikeWatch.Proofs.Binary.Order
import SpikeWatch.Proofs.Settings.Loading
import Mathlib.Data.List.Nodup

/-!
# Rules that were checked

A check goes through the settings one after the other and stops at the first that cannot be used, so
what passes it meets all conditions at once (`check_eq_ok_iff`).

* `RuleSetting.Usable` is what a rule has to meet on its own.  Beside that no two rules may have the
  same id (`checkRules_eq_ok_iff`).
* The rules of settings that can be used are those that were set and built-in ones with other ids.
  So they have ids of their own (`nodup_ids_rules`) and positive thresholds
  (`threshold_pos_of_mem_rules`), whichever of the two they come from.
-/

set_option autoImplicit false

namespace SpikeWatch.Settings

/-! ## The check -/

/-- A rule that can be used by itself. -/
structure RuleSetting.Usable (r : RuleSetting) : Prop where
  id : Text.isBlankText r.id = false
  finite : r.threshold.isFinite = true
  positive : .zero false < r.threshold
  window : 1 ≤ r.windowSeconds.toNat ∧ r.windowSeconds.toNat ≤ maxWindowSeconds
  cooldown : r.cooldownSeconds.toNat ≤ maxCooldownSeconds

/-- The settings of the sections that have to lie in a range, with their values. -/
def ranged (s : Settings) : List (Ranged × UInt64) :=
  [(.maxEventAgeHours, s.ingest.maxEventAgeHours),
    (.maxFutureSkewMinutes, s.ingest.maxFutureSkewMinutes),
    (.windowSeconds, s.aggregator.windowSeconds),
    (.sweepIntervalSeconds, s.aggregator.sweepIntervalSeconds),
    (.evaluationIntervalSeconds, s.alerts.evaluationIntervalSeconds),
    (.webhookTimeoutSeconds, s.alerts.webhookTimeoutSeconds)]

/-- Two checks one after the other pass just if both do. -/
theorem bind_eq_ok_iff {x y : Except Invalid Unit} :
    (x >>= fun _ => y) = .ok () ↔ x = .ok () ∧ y = .ok () := by
  cases x with
  | error e => exact iff_of_false nofun nofun
  | ok u => exact (and_iff_right rfl).symm

/-- A number is checked against both its bounds. -/
theorem checkRange_eq_ok_iff {setting : Ranged} {value : UInt64} :
    checkRange setting value = .ok () ↔
      setting.least ≤ value.toNat ∧ value.toNat ≤ setting.greatest := by
  rw [checkRange]
  split <;> simp [*]

/-- A finite number is positive unless it is at most zero. -/
theorem threshold_ok_iff {threshold : Double} :
    (!threshold.isFinite || decide (threshold ≤ .zero false)) = false ↔
      threshold.isFinite = true ∧ .zero false < threshold := by
  rw [Bool.or_eq_false_iff, Bool.not_eq_false', decide_eq_false_iff_not]
  refine and_congr_right fun hfinite => ?_
  exact Binary.not_le_iff (Binary.ne_nan_of_isFinite hfinite) (Binary.zero_ne_nan false)

/-- A rule is checked on its own, and against the ids in front of it. -/
theorem checkRules_cons_eq_ok_iff {seen : List String} {r : RuleSetting}
    {rest : List RuleSetting} :
    checkRules seen (r :: rest) = .ok () ↔
      r.Usable ∧ r.id ∉ seen ∧ checkRules (r.id :: seen) rest = .ok () := by
  rw [checkRules]
  -- The tests in their order; a rule that fails one of them is not usable, or its id was seen.
  by_cases hblank : Text.isBlankText r.id = true
  · rw [if_pos hblank]
    exact iff_of_false nofun fun h => by simp [h.1.id] at hblank
  by_cases hseen : seen.contains r.id = true
  · rw [if_neg hblank, if_pos hseen]
    exact iff_of_false nofun fun h => h.2.1 (List.contains_iff_mem.1 hseen)
  cases hthreshold : !r.threshold.isFinite || decide (r.threshold ≤ .zero false) with
  | true =>
    rw [if_neg hblank, if_neg hseen, if_pos rfl]
    refine iff_of_false nofun fun h => ?_
    rw [threshold_ok_iff.2 ⟨h.1.finite, h.1.positive⟩] at hthreshold
    cases hthreshold
  | false =>
    obtain ⟨hfinite, hpositive⟩ := threshold_ok_iff.1 hthreshold
    rw [if_neg hblank, if_neg hseen, if_neg Bool.false_ne_true, bind_eq_ok_iff, bind_eq_ok_iff,
      checkRange_eq_ok_iff, checkRange_eq_ok_iff]
    constructor
    · rintro ⟨hwindow, ⟨-, hcooldown⟩, hrest⟩
      refine ⟨⟨by simpa using hblank, hfinite, hpositive, hwindow, hcooldown⟩, ?_, hrest⟩
      exact fun h => hseen (List.contains_iff_mem.2 h)
    · rintro ⟨hr, -, hrest⟩
      exact ⟨hr.window, ⟨Nat.zero_le _, hr.cooldown⟩, hrest⟩

/-- All rules together: each is usable, and no two of them share an id. -/
theorem checkRules_eq_ok_iff {seen : List String} {rules : List RuleSetting} :
    checkRules seen rules = .ok () ↔ (∀ r ∈ rules, r.Usable) ∧
      (rules.map RuleSetting.id).Nodup ∧ ∀ r ∈ rules, r.id ∉ seen := by
  induction rules generalizing seen with
  | nil => simp [checkRules]
  | cons r rest ih =>
    rw [checkRules_cons_eq_ok_iff, ih]
    have hids : (∀ t ∈ rest, t.id ∉ r.id :: seen) ↔
        r.id ∉ rest.map RuleSetting.id ∧ ∀ t ∈ rest, t.id ∉ seen := by
      simp only [List.mem_cons, not_or, List.mem_map, not_exists, not_and]
      exact forall₂_and
    rw [hids, List.forall_mem_cons, List.forall_mem_cons, List.map_cons, List.nodup_cons]
    tauto

/-- **What a check asks of settings**, all at once. -/
theorem check_eq_ok_iff {s : Settings} :
    s.check = .ok () ↔
      (∀ p ∈ s.ranged, p.1.least ≤ p.2.toNat ∧ p.2.toNat ≤ p.1.greatest) ∧
      isWebUrl s.alerts.webhookUrl = true ∧
      (∀ r ∈ s.alerts.rules, r.Usable) ∧ (s.alerts.rules.map RuleSetting.id).Nodup := by
  have hweb : (if isWebUrl s.alerts.webhookUrl then checkRules [] s.alerts.rules
      else .error (.notWebUrl s.alerts.webhookUrl)) = .ok () ↔
        isWebUrl s.alerts.webhookUrl = true ∧ checkRules [] s.alerts.rules = .ok () := by
    cases isWebUrl s.alerts.webhookUrl <;> simp
  rw [check]
  simp only [bind_eq_ok_iff, checkRange_eq_ok_iff, hweb, checkRules_eq_ok_iff, ranged,
    List.forall_mem_cons, List.not_mem_nil, not_false_iff, false_implies, implies_true, and_true,
    and_assoc]

/-! ## The rules of settings -/

variable {s : Settings}

/-- Behind built-in rules with ids that no set rule has stand the set ones. -/
theorem exists_rules_eq_append (s : Settings) : ∃ kept : List Rule, kept.Sublist Rule.builtIn ∧
    (∀ r, r ∈ kept ↔ s.alerts.useDefaultRules = true ∧ r ∈ Rule.builtIn ∧
      ∀ t ∈ s.alerts.rules, t.id ≠ r.id) ∧
    s.rules = kept ++ s.alerts.rules.map RuleSetting.rule := by
  rw [rules]
  cases s.alerts.useDefaultRules with
  | true =>
    rw [if_pos rfl]
    refine ⟨_, List.filter_sublist, fun r => ?_, rfl⟩
    rw [List.mem_filter, List.all_eq_true, List.forall_mem_map, and_iff_right rfl]
    exact and_congr_right fun _ => forall₂_congr fun t _ => decide_eq_true_iff
  | false =>
    refine ⟨[], List.nil_sublist _, fun r => ?_, rfl⟩
    simp

/-- A rule is built in, with an id that no set rule has, or it is a set one. -/
theorem mem_rules_iff {r : Rule} :
    r ∈ s.rules ↔ (s.alerts.useDefaultRules = true ∧ r ∈ Rule.builtIn ∧
      ∀ t ∈ s.alerts.rules, t.id ≠ r.id) ∨ ∃ t ∈ s.alerts.rules, t.rule = r := by
  obtain ⟨kept, -, hkept, hrules⟩ := exists_rules_eq_append s
  rw [hrules, List.mem_append, hkept, List.mem_map]

/-- **The rules of usable settings have ids of their own.** -/
theorem nodup_ids_rules (h : s.check = .ok ()) : (s.rules.map Rule.id).Nodup := by
  obtain ⟨-, -, -, hset⟩ := check_eq_ok_iff.1 h
  have hset : ((s.alerts.rules.map RuleSetting.rule).map Rule.id).Nodup := by
    rwa [List.map_map]
  obtain ⟨kept, hsublist, hkept, hrules⟩ := exists_rules_eq_append s
  rw [hrules, List.map_append]
  refine List.Nodup.append ((show (Rule.builtIn.map Rule.id).Nodup by decide).sublist
    (hsublist.map _)) hset ?_
  -- built-in rules whose ids are taken are left out
  intro id hbuiltIn hconfigured
  rw [List.map_map] at hconfigured
  obtain ⟨r, hr, rfl⟩ := List.mem_map.1 hbuiltIn
  obtain ⟨t, ht, hid⟩ := List.mem_map.1 hconfigured
  exact ((hkept r).1 hr).2.2 t ht hid

theorem threshold_pos_of_mem_builtIn : ∀ r ∈ Rule.builtIn, .zero false < r.threshold := by
  decide +kernel

/-- **No rule of usable settings fires for nothing.** -/
theorem threshold_pos_of_mem_rules (h : s.check = .ok ()) {r : Rule} (hr : r ∈ s.rules) :
    .zero false < r.threshold := by
  obtain ⟨-, -, husable, -⟩ := check_eq_ok_iff.1 h
  rcases mem_rules_iff.1 hr with ⟨-, hbuiltIn, -⟩ | ⟨t, ht, rfl⟩
  · exact threshold_pos_of_mem_builtIn r hbuiltIn
  · exact (husable t ht).positive

/-- What comes of a text was checked. -/
theorem check_of_ofCheckedToml {text : String} (h : ofCheckedToml text = .ok s) :
    s.check = .ok () := by
  rw [ofCheckedToml] at h
  cases htoml : ofToml text with
  | error e => rw [htoml] at h; cases h
  | ok t =>
    rw [htoml] at h
    obtain ⟨hcheck, rfl⟩ := checked_eq_ok_iff.1 h
    exact hcheck

end SpikeWatch.Settings
