import SpikeWatch.Binary.Number
import SpikeWatch.Event.Kind
import SpikeWatch.Time.Instant

/-!
# Rules and alerts

A rule watches the live count of one metric in one version, and fires when the count reaches its
threshold.  Then it rests for its cooldown, which is reckoned from its last firing.
-/

set_option autoImplicit false

namespace SpikeWatch

/-- A rule over the live count of a metric. -/
structure Rule where
  id : String
  name : String
  metric : Metric
  /-- The version whose count is watched, to the letter; the empty text is a version as well. -/
  version : String := ""
  /-- The count at which the rule fires. -/
  threshold : Double
  /-- The window that the threshold is meant for. -/
  window : Duration := .ofMinutes 1
  /-- The least time between two firings. -/
  cooldown : Duration := .ofMinutes 5
  lastFired : Option Instant := none
  deriving DecidableEq

/-- A rule that has fired, with what it saw. -/
structure Alert where
  /-- The rule as it was before it fired. -/
  rule : Rule
  /-- The version whose count reached the threshold. -/
  version : String
  /-- The count when the rule fired. -/
  value : Double
  threshold : Double
  timestamp : Instant
  message : String
  deriving DecidableEq

/-- The alert about a rule that fires. -/
def Alert.ofRule (r : Rule) (value : Double) (timestamp : Instant) : Alert where
  rule := r
  version := r.version
  value
  threshold := r.threshold
  timestamp
  message := r.name ++ " threshold exceeded"

namespace Rule

/-- Whether the rule still rests. -/
def inCooldown (r : Rule) (now : Instant) : Bool :=
  match r.lastFired with
  | none => false
  | some t => decide (now.since t < r.cooldown)

/-- A rule is at rest no longer once its cooldown has gone since it last fired. -/
theorem inCooldown_eq_false_iff {r : Rule} {now : Instant} :
    r.inCooldown now = false ↔ ∀ t ∈ r.lastFired, r.cooldown ≤ now.since t := by
  rw [inCooldown]
  cases r.lastFired with
  | none => simp
  | some t => simp [Duration.not_lt]

/-- The rules that are there if no others are wanted. -/
def builtIn : List Rule :=
  [{ id := "crash_spike", name := "Crash Rate Spike", metric := .crash, threshold := .ofNat 10 },
    { id := "exception_spike", name := "Exception Rate Spike", metric := .exception,
      threshold := .ofNat 100 },
    { id := "jank_spike", name := "Jank Rate Spike", metric := .jank, threshold := .ofNat 50 }]

end Rule

end SpikeWatch
