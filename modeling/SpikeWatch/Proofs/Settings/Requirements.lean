import SpikeWatch.Proofs.Requirements
import SpikeWatch.Proofs.Settings.Rules

/-!
# What is said about settings first

Settings may be wrong in several places, and the check names one of them.  It is the first in the
order in which settings are written down: the numbers of the sections, the address of the webhook,
and then one rule after the other.

* `Usable` is what settings have to meet, field by field and bound by bound.
* `requirements` are the same requirements in their order, each with what is said if it is not met.
  Which ids are taken already is a matter of the rules in front, and not of what a check remembers.
* `check_exact`: the check passes what is usable, and otherwise reports the first requirement that
  is not met.  The ids that it remembers on its way through the rules are those of the rules in
  front (`enforces_checkRules`).
-/

set_option autoImplicit false

namespace SpikeWatch.Settings

/-! ## What settings have to meet -/

/-- An address that nothing is posted to, or one of the web. -/
def IsWebAddress (url : String) : Prop :=
  url = "" ∨ "http://".toList <+: url.toList ∨ "https://".toList <+: url.toList

/-- Settings that can be used. -/
structure Usable (s : Settings) : Prop where
  eventAge : 1 ≤ s.ingest.maxEventAgeHours.toNat ∧
    s.ingest.maxEventAgeHours.toNat ≤ maxEventAgeHours
  futureSkew : s.ingest.maxFutureSkewMinutes.toNat ≤ maxFutureSkewMinutes
  window : 1 ≤ s.aggregator.windowSeconds.toNat ∧
    s.aggregator.windowSeconds.toNat ≤ maxWindowSeconds
  sweepInterval : 1 ≤ s.aggregator.sweepIntervalSeconds.toNat ∧
    s.aggregator.sweepIntervalSeconds.toNat ≤ maxIntervalSeconds
  evaluationInterval : 1 ≤ s.alerts.evaluationIntervalSeconds.toNat ∧
    s.alerts.evaluationIntervalSeconds.toNat ≤ maxIntervalSeconds
  webhookTimeout : 1 ≤ s.alerts.webhookTimeoutSeconds.toNat ∧
    s.alerts.webhookTimeoutSeconds.toNat ≤ maxWebhookTimeoutSeconds
  webhookUrl : IsWebAddress s.alerts.webhookUrl
  ruleId : ∀ r ∈ s.alerts.rules, ∃ c ∈ r.id.toList, Text.isBlank c = false
  nodup_ruleIds : (s.alerts.rules.map RuleSetting.id).Nodup
  threshold : ∀ r ∈ s.alerts.rules, r.threshold.isFinite = true ∧ .zero false < r.threshold
  ruleWindow : ∀ r ∈ s.alerts.rules,
    1 ≤ r.windowSeconds.toNat ∧ r.windowSeconds.toNat ≤ maxWindowSeconds
  ruleCooldown : ∀ r ∈ s.alerts.rules, r.cooldownSeconds.toNat ≤ maxCooldownSeconds

/-- The test for an address, by what the address is. -/
theorem isWebUrl_iff {url : String} : isWebUrl url = true ↔ IsWebAddress url := by
  rw [isWebUrl, Bool.or_eq_true, Bool.or_eq_true, List.isPrefixOf_iff_prefix,
    List.isPrefixOf_iff_prefix, String.isEmpty_iff, IsWebAddress, or_assoc]

theorem isBlankText_eq_false_iff {s : String} :
    Text.isBlankText s = false ↔ ∃ c ∈ s.toList, Text.isBlank c = false := by
  simp [Text.isBlankText]

/-- **A check passes what is usable.** -/
theorem check_eq_ok_iff_usable {s : Settings} : s.check = .ok () ↔ s.Usable := by
  rw [check_eq_ok_iff, isWebUrl_iff]
  simp only [ranged, List.forall_mem_cons, List.not_mem_nil, false_implies, implies_true, and_true,
    Ranged.least, Ranged.greatest]
  constructor
  · rintro ⟨⟨hage, ⟨-, hskew⟩, hwindow, hsweep, hevaluation, htimeout⟩, hurl, hrules, hids⟩
    exact ⟨hage, hskew, hwindow, hsweep, hevaluation, htimeout, hurl,
      fun r hr => isBlankText_eq_false_iff.1 (hrules r hr).id, hids,
      fun r hr => ⟨(hrules r hr).finite, (hrules r hr).positive⟩,
      fun r hr => (hrules r hr).window, fun r hr => (hrules r hr).cooldown⟩
  · intro h
    refine ⟨⟨h.eventAge, ⟨Nat.zero_le _, h.futureSkew⟩, h.window, h.sweepInterval,
      h.evaluationInterval, h.webhookTimeout⟩, h.webhookUrl, fun r hr => ?_, h.nodup_ruleIds⟩
    obtain ⟨hfinite, hpositive⟩ := h.threshold r hr
    exact ⟨isBlankText_eq_false_iff.2 (h.ruleId r hr), hfinite, hpositive, h.ruleWindow r hr,
      h.ruleCooldown r hr⟩

/-! ## Requirements in their order -/

/-- A setting has to lie in its range. -/
def Ranged.requirement (setting : Ranged) (value : UInt64) : Requirement Invalid :=
  .of (setting.least ≤ value.toNat ∧ value.toNat ≤ setting.greatest) (.outOfRange setting value)

/-- What a rule has to meet behind earlier ones. -/
def RuleSetting.requirements (earlier : List RuleSetting) (r : RuleSetting) :
    List (Requirement Invalid) :=
  [.of (∃ c ∈ r.id.toList, Text.isBlank c = false) .blankRuleId,
    .of (∀ t ∈ earlier, t.id ≠ r.id) (.duplicateRuleId r.id),
    .of (r.threshold.isFinite = true ∧ .zero false < r.threshold) (.badThreshold r.id r.threshold),
    (Ranged.ruleWindow r.id).requirement r.windowSeconds,
    (Ranged.ruleCooldown r.id).requirement r.cooldownSeconds]

/-- What rules have to meet, each behind those in front of it. -/
def ruleRequirements (rules : List RuleSetting) : List (Requirement Invalid) :=
  rules.zipIdx.flatMap fun p => p.1.requirements (rules.take p.2)

/-- What settings have to meet, in the order in which it is looked at. -/
def requirements (s : Settings) : List (Requirement Invalid) :=
  s.ranged.map (fun p => p.1.requirement p.2) ++
    .of (IsWebAddress s.alerts.webhookUrl) (.notWebUrl s.alerts.webhookUrl) ::
      ruleRequirements s.alerts.rules

/-! ## The check -/

/-- A number is checked against its bounds, and the message names it. -/
theorem enforces_checkRange (setting : Ranged) (value : UInt64) :
    Enforces (checkRange setting value) [setting.requirement value] := by
  rw [checkRange]
  split
  · next hrange => exact enforces_of_met (Requirement.met_of_iff.2 hrange) (enforces_ok ())
  · next hrange => exact enforces_of_unmet (fun e => and_iff_right hrange) []

/-- Behind rules whose ids are those that were seen. -/
theorem enforces_checkRules {seen : List String} {before : List RuleSetting}
    (hseen : ∀ id, id ∈ seen ↔ ∃ t ∈ before, t.id = id) (rest : List RuleSetting) :
    Enforces (checkRules seen rest) ((rest.zipIdx before.length).flatMap fun p =>
      p.1.requirements ((before ++ rest).take p.2)) := by
  induction rest generalizing seen before with
  | nil => exact enforces_ok ()
  | cons r rest ih =>
    have hblank : Text.isBlankText r.id = true ↔ ¬ ∃ c ∈ r.id.toList, Text.isBlank c = false := by
      rw [← isBlankText_eq_false_iff, Bool.not_eq_false]
    have hduplicate : seen.contains r.id = true ↔ ¬ ∀ t ∈ before, t.id ≠ r.id := by
      rw [List.contains_iff_mem, hseen]
      push Not
      rfl
    have hthreshold : (!r.threshold.isFinite || decide (r.threshold ≤ .zero false)) = true ↔
        ¬ (r.threshold.isFinite = true ∧ .zero false < r.threshold) := by
      rw [← threshold_ok_iff, Bool.not_eq_false]
    have hnext : ∀ id, id ∈ r.id :: seen ↔ ∃ t ∈ before ++ [r], t.id = id := by
      intro id
      rw [List.mem_cons, hseen]
      simp [or_comm, eq_comm]
    have hrest := ih hnext
    rw [List.length_append, List.length_singleton, List.append_assoc, List.singleton_append]
      at hrest
    rw [List.zipIdx_cons, List.flatMap_cons, List.take_left, checkRules]
    refine enforces_ite (fun _ => and_congr_left' hblank.symm) fun _ =>
      enforces_ite (fun _ => and_congr_left' hduplicate.symm) fun _ =>
      enforces_ite (fun _ => and_congr_left' hthreshold.symm) fun _ => ?_
    exact (enforces_checkRange _ _).bind fun _ => (enforces_checkRange _ _).bind fun _ => hrest

/-- **A check reports the first requirement that is not met.** -/
theorem enforces_check (s : Settings) : Enforces s.check s.requirements := by
  have hseen : ∀ id, id ∈ ([] : List String) ↔ ∃ t ∈ ([] : List RuleSetting), t.id = id := by simp
  have hrules : Enforces (checkRules [] s.alerts.rules) (ruleRequirements s.alerts.rules) :=
    enforces_checkRules hseen s.alerts.rules
  have hurl : Enforces (if isWebUrl s.alerts.webhookUrl then checkRules [] s.alerts.rules
      else .error (.notWebUrl s.alerts.webhookUrl))
      (.of (IsWebAddress s.alerts.webhookUrl) (.notWebUrl s.alerts.webhookUrl) ::
        ruleRequirements s.alerts.rules) := by
    split
    · next hweb => exact enforces_of_met (Requirement.met_of_iff.2 (isWebUrl_iff.1 hweb)) hrules
    · next hweb =>
      exact enforces_of_unmet (fun e => and_iff_right (mt isWebUrl_iff.2 hweb)) _
  exact (enforces_checkRange _ _).bind fun _ => (enforces_checkRange _ _).bind fun _ =>
    (enforces_checkRange _ _).bind fun _ => (enforces_checkRange _ _).bind fun _ =>
    (enforces_checkRange _ _).bind fun _ => (enforces_checkRange _ _).bind fun _ => hurl

/-- The setting that is wrong, as messages name it. -/
def Invalid.subject : Invalid → String
  | outOfRange setting _ => setting.name
  | notWebUrl _ => "alerts.webhook_url"
  | blankRuleId => "alerts.rules"
  | duplicateRuleId id => id
  | badThreshold id _ => "alert rule " ++ id ++ " threshold"

/-- Each message names what it is about. -/
theorem Invalid.subject_infix_message (e : Invalid) : e.subject.toList <:+: e.message.toList := by
  rw [message.eq_def]
  cases e with
  | outOfRange setting value =>
    simp only [subject, String.toList_append, List.append_assoc]
    exact (List.prefix_append _ _).isInfix
  | notWebUrl url =>
    have hwords : "alerts.webhook_url".toList <+:
        "alerts.webhook_url must be an http(s) URL, got ".toList := by decide
    rw [String.toList_append]
    exact (hwords.trans (List.prefix_append _ _)).isInfix
  | blankRuleId =>
    have hwords : "alerts.rules".toList <+:
        "alerts.rules entries need a non-empty id".toList := by decide
    exact hwords.isInfix
  | duplicateRuleId id =>
    rw [String.toList_append]
    exact (List.suffix_append _ _).isInfix
  | badThreshold id threshold =>
    have hwords : " threshold".toList <+:
        " threshold must be a positive number, got ".toList := by decide
    simp only [subject, String.toList_append, List.append_assoc]
    refine (List.IsPrefix.isInfix ?_)
    rw [List.prefix_append_right_inj, List.prefix_append_right_inj]
    exact hwords.trans (List.prefix_append _ _)

/-- **The check is exact.**  It passes the settings that are usable and no others.  Of all that is
wrong with others it reports what comes first, in the order of the fields and of the rules, and it
names the setting. -/
theorem check_exact (s : Settings) :
    (s.check = .ok () ↔ s.Usable) ∧
      (∀ e, s.check = .error e ↔ FirstUnmet s.requirements e) ∧
      ∀ e : Invalid, e.subject.toList <:+: e.message.toList :=
  ⟨check_eq_ok_iff_usable, enforces_check s, Invalid.subject_infix_message⟩

/-- The window comes first, and the address of the webhook is wrong as well. -/
example : check { aggregator := { windowSeconds := 0 }, alerts := { webhookUrl := "ftp://a" } } =
    .error (.outOfRange .windowSeconds 0) := rfl

end SpikeWatch.Settings
