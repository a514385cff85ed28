import SpikeWatch.Proofs.Alert.Pass

/-!
# Thresholds that are no numbers

A pass leaves a rule alone when the count is less than its threshold.  That is the same as letting
it fire when the count reaches the threshold, as long as the threshold is a number.  Nothing is less
than what is no number, and nothing reaches it either: such a rule is never left alone, whatever is
counted, until it rests.  Settings with such a threshold are refused, but a rule that is added by
hand is not looked at.

* `Rule.le_value_iff_of_fire?` says which alerts are justified by what they show, and
  `Rule.fire?_of_threshold_eq_nan` what becomes of the rules that raise the others.
* `Pipeline.justified_iff` says both of whole runs.
-/

set_option autoImplicit false

namespace SpikeWatch

/-! ## One rule -/

namespace Rule

variable {counts : Counts} {now : Instant} {r : Rule}

/-- An alert has a value that reaches its threshold, unless that is no number. -/
theorem le_value_iff_of_fire? {a : Alert} (h : r.fire? counts now = some a) :
    a.threshold ≤ a.value ↔ a.threshold ≠ .nan := by
  obtain ⟨-, hnotLess, rfl⟩ := fire?_eq_some_iff.1 h
  constructor
  · intro hle
    exact Binary.ne_nan_of_le hle
  · intro hnumber
    exact (Binary.not_lt_iff (Binary.ofNat_ne_nan _) hnumber).1 hnotLess

/-- A rule whose threshold is no number fires whenever it does not rest. -/
theorem fire?_of_threshold_eq_nan (counts : Counts) (now : Instant) (h : r.threshold = .nan) :
    r.fire? counts now =
      if r.inCooldown now then none else some (.ofRule r (r.value counts) now) := by
  rw [fire?, h]
  dsimp only
  rw [if_neg (Binary.not_lt_nan _)]
  rfl

end Rule

namespace Pipeline

/-! ## Runs -/

/-- **Which alerts are justified.**  In every run, an alert has a value that reaches its threshold
just if the threshold is a number.  A rule for which it is none raises an alert in every pass in
which it does not rest, and it takes nothing to do so. -/
theorem justified_iff (p : Pipeline) (steps : List Step) :
    (∀ a ∈ (p.run steps).2.flatMap Outcome.alerts,
      a.threshold ≤ a.value ↔ a.threshold ≠ .nan) ∧
    let q := (p.run steps).1
    ∀ r ∈ q.rules, r.threshold = .nan →
      (.ofRule r (r.value q.counts) q.now ∈ q.evaluate.2 ↔
        ∀ t ∈ r.lastFired, r.cooldown ≤ q.now.since t) := by
  refine ⟨?_, ?_⟩
  · intro a ha
    obtain ⟨before, after, -, hpass⟩ := exists_pass_of_mem_alerts ha
    obtain ⟨r, -, hfire⟩ := List.mem_filterMap.1 hpass
    exact Rule.le_value_iff_of_fire? hfire
  · intro q r hr hnan
    have hfire := Rule.fire?_of_threshold_eq_nan q.counts q.now hnan
    rw [← Rule.inCooldown_eq_false_iff]
    constructor
    · intro hraised
      obtain ⟨r', -, hfire'⟩ := List.mem_filterMap.1 hraised
      obtain ⟨hcool, -, halert⟩ := Rule.fire?_eq_some_iff.1 hfire'
      obtain rfl : r = r' := congrArg Alert.rule halert
      exact hcool
    · intro hcool
      rw [hcool] at hfire
      exact List.mem_filterMap.2 ⟨r, hr, hfire⟩

/-- Nothing has been counted, and a rule raises an alert the value of which does not reach its
threshold. -/
theorem not_justified :
    let rule : Rule := { id := "r", name := "R", metric := .crash, threshold := .nan }
    let p : Pipeline := { now := .epoch }
    let alerts := (p.run [.addRule rule, .evaluate]).2.flatMap Outcome.alerts
    alerts = [.ofRule rule (.ofNat 0) .epoch] ∧ ¬ ∀ a ∈ alerts, a.threshold ≤ a.value := by
  decide +kernel

end Pipeline

end SpikeWatch
