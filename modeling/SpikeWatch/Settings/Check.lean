import SpikeWatch.Settings.Basic
import SpikeWatch.Decimal.Layout
import SpikeWatch.Text.Blank

/-!
# Checking settings

`Settings.check` finds the first setting that cannot be used: the numbers of the sections in their
order, the address of the webhook, and then the rules one after the other.
-/

set_option autoImplicit false

namespace SpikeWatch

namespace Settings

/-- A setting that has to lie in a range. -/
inductive Ranged where
  | maxEventAgeHours
  | maxFutureSkewMinutes
  | windowSeconds
  | sweepIntervalSeconds
  | evaluationIntervalSeconds
  | webhookTimeoutSeconds
  | ruleWindow (id : String)
  | ruleCooldown (id : String)
  deriving DecidableEq

namespace Ranged

/-- How the setting is named in messages: by its section and key, or by the rule that it belongs
to. -/
def name : Ranged → String
  | maxEventAgeHours => "ingest.max_event_age_hours"
  | maxFutureSkewMinutes => "ingest.max_future_skew_minutes"
  | windowSeconds => "aggregator.window_seconds"
  | sweepIntervalSeconds => "aggregator.sweep_interval_seconds"
  | evaluationIntervalSeconds => "alerts.evaluation_interval_seconds"
  | webhookTimeoutSeconds => "alerts.webhook_timeout_seconds"
  | ruleWindow id => "alert rule " ++ id ++ " window_seconds"
  | ruleCooldown id => "alert rule " ++ id ++ " cooldown_seconds"

/-- The least value.  Only the skew and the cooldown may be zero. -/
def least : Ranged → Nat
  | maxFutureSkewMinutes | ruleCooldown _ => 0
  | _ => 1

/-- The greatest value. -/
def greatest : Ranged → Nat
  | maxEventAgeHours => Settings.maxEventAgeHours
  | maxFutureSkewMinutes => Settings.maxFutureSkewMinutes
  | windowSeconds | ruleWindow _ => maxWindowSeconds
  | sweepIntervalSeconds | evaluationIntervalSeconds => maxIntervalSeconds
  | webhookTimeoutSeconds => maxWebhookTimeoutSeconds
  | ruleCooldown _ => maxCooldownSeconds

end Ranged

/-- Why settings cannot be used. -/
inductive Invalid where
  | outOfRange (setting : Ranged) (value : UInt64)
  /-- The address of the webhook is neither empty nor of the web. -/
  | notWebUrl (url : String)
  | blankRuleId
  | duplicateRuleId (id : String)
  | badThreshold (id : String) (threshold : Double)
  deriving DecidableEq

/-- What is said about the first setting that cannot be used. -/
def Invalid.message : Invalid → String
  | outOfRange setting value =>
    let shown (n : Nat) : String := String.ofList (Decimal.digits n)
    setting.name ++ " must be between " ++ shown setting.least ++ " and " ++
      shown setting.greatest ++ ", got " ++ shown value.toNat
  | notWebUrl url => "alerts.webhook_url must be an http(s) URL, got " ++ url
  | blankRuleId => "alerts.rules entries need a non-empty id"
  | duplicateRuleId id => "duplicate alert rule id " ++ id
  | badThreshold id threshold =>
    "alert rule " ++ id ++ " threshold must be a positive number, got " ++
      String.ofList (threshold.layOut .plain)

/-- Whether a value lies in the range of its setting. -/
def checkRange (setting : Ranged) (value : UInt64) : Except Invalid Unit :=
  if setting.least ≤ value.toNat ∧ value.toNat ≤ setting.greatest then .ok ()
  else .error (.outOfRange setting value)

/-- Whether alerts can be posted to an address, or are not to be posted. -/
def isWebUrl (url : String) : Bool :=
  url.isEmpty || "http://".toList.isPrefixOf url.toList || "https://".toList.isPrefixOf url.toList

/-- Checks the rules, behind rules with the given ids. -/
def checkRules : List String → List RuleSetting → Except Invalid Unit
  | _, [] => .ok ()
  | seen, r :: rest => do
    -- the id is looked at first, since all other complaints about a rule name it
    if Text.isBlankText r.id then .error .blankRuleId
    else if seen.contains r.id then .error (.duplicateRuleId r.id)
    else if !r.threshold.isFinite || decide (r.threshold ≤ .zero false) then
      .error (.badThreshold r.id r.threshold)
    else
      checkRange (.ruleWindow r.id) r.windowSeconds
      checkRange (.ruleCooldown r.id) r.cooldownSeconds
      checkRules (r.id :: seen) rest

/-- The first setting that cannot be used, if there is one. -/
def check (s : Settings) : Except Invalid Unit := do
  checkRange .maxEventAgeHours s.ingest.maxEventAgeHours
  checkRange .maxFutureSkewMinutes s.ingest.maxFutureSkewMinutes
  checkRange .windowSeconds s.aggregator.windowSeconds
  checkRange .sweepIntervalSeconds s.aggregator.sweepIntervalSeconds
  checkRange .evaluationIntervalSeconds s.alerts.evaluationIntervalSeconds
  checkRange .webhookTimeoutSeconds s.alerts.webhookTimeoutSeconds
  if isWebUrl s.alerts.webhookUrl then checkRules [] s.alerts.rules
  else .error (.notWebUrl s.alerts.webhookUrl)

end Settings

end SpikeWatch
