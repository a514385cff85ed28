import SpikeWatch.Alert.Rule
import SpikeWatch.Ingest.Limits

/-!
# Settings

What can be set about the pipeline.  Everything has a default.  Durations are whole numbers of
hours, minutes or seconds with an upper bound; what lies above the bound is taken for the bound when
a duration is made of it.
-/

set_option autoImplicit false

namespace SpikeWatch

namespace Settings

/-! ## Bounds -/

/-- A year of hours. -/
def maxEventAgeHours : Nat := 365 * 24

/-- A day of minutes. -/
def maxFutureSkewMinutes : Nat := 24 * 60

/-- A day of seconds. -/
def maxWindowSeconds : Nat := 24 * 60 * 60

/-- A day of seconds. -/
def maxIntervalSeconds : Nat := 24 * 60 * 60

/-- A week of seconds. -/
def maxCooldownSeconds : Nat := 7 * 24 * 60 * 60

/-- Five minutes of seconds. -/
def maxWebhookTimeoutSeconds : Nat := 5 * 60

/-! ## Sections -/

/-- Which events are accepted, and what is done with them. -/
structure Ingest where
  /-- The age from which on events are too old. -/
  maxEventAgeHours : UInt64 := 168
  /-- How far ahead of the present an event may lie. -/
  maxFutureSkewMinutes : UInt64 := 60
  /-- Whether accepted events are counted live. -/
  recordRealtime : Bool := true
  deriving DecidableEq

/-- How long live counts last. -/
structure Aggregator where
  windowSeconds : UInt64 := 60
  sweepIntervalSeconds : UInt64 := 10
  deriving DecidableEq

/-- A rule as it is set. -/
structure RuleSetting where
  id : String
  name : String
  metric : Metric
  appVersion : String := ""
  threshold : Double
  windowSeconds : UInt64 := 60
  cooldownSeconds : UInt64 := 300
  deriving DecidableEq

/-- Whether and how alerts are raised and delivered. -/
structure Alerts where
  enabled : Bool := false
  /-- Where alerts are posted; nothing is posted to the empty address. -/
  webhookUrl : String := ""
  evaluationIntervalSeconds : UInt64 := 10
  webhookTimeoutSeconds : UInt64 := 10
  /-- Whether the built-in rules stand in front of the set ones. -/
  useDefaultRules : Bool := true
  rules : List RuleSetting := []
  deriving DecidableEq

end Settings

/-- All settings. -/
structure Settings where
  ingest : Settings.Ingest := {}
  aggregator : Settings.Aggregator := {}
  alerts : Settings.Alerts := {}
  deriving DecidableEq

namespace Settings

/-! ## What the settings mean -/

/-- The limits that events must keep. -/
def Ingest.limits (s : Ingest) : Limits where
  maxAge := .ofHours (min s.maxEventAgeHours.toNat Settings.maxEventAgeHours)
  maxSkew := .ofMinutes (min s.maxFutureSkewMinutes.toNat Settings.maxFutureSkewMinutes)

/-- How long a live count outlasts its last occurrence. -/
def Aggregator.window (s : Aggregator) : Duration :=
  .ofSeconds (min s.windowSeconds.toNat maxWindowSeconds)

/-- The time between two sweeps. -/
def Aggregator.sweepInterval (s : Aggregator) : Duration := .ofSeconds s.sweepIntervalSeconds.toNat

/-- The time between two evaluations. -/
def Alerts.evaluationInterval (s : Alerts) : Duration :=
  .ofSeconds s.evaluationIntervalSeconds.toNat

/-- The time that posting an alert may take. -/
def Alerts.webhookTimeout (s : Alerts) : Duration := .ofSeconds s.webhookTimeoutSeconds.toNat

/-- The rule that is set. -/
def RuleSetting.rule (s : RuleSetting) : Rule where
  id := s.id
  name := s.name
  metric := s.metric
  version := s.appVersion
  threshold := s.threshold
  window := .ofSeconds (min s.windowSeconds.toNat maxWindowSeconds)
  cooldown := .ofSeconds (min s.cooldownSeconds.toNat maxCooldownSeconds)

/-- The rules: built-in ones, unless a set rule has the same id, and then the set ones. -/
def rules (s : Settings) : List Rule :=
  let configured := s.alerts.rules.map RuleSetting.rule
  let builtIn :=
    if s.alerts.useDefaultRules then
      Rule.builtIn.filter fun r => configured.all (·.id ≠ r.id)
    else []
  builtIn ++ configured

end Settings

end SpikeWatch
