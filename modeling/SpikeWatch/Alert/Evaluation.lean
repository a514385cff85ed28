import SpikeWatch.Alert.Rule
import SpikeWatch.Window

/-!
# Evaluating rules

A pass looks at every rule on its own: whether it fires depends on the rule, the counts and the
present, and only the rules that fire change.
-/

set_option autoImplicit false

namespace SpikeWatch

namespace Rule

/-- The alert that a rule raises, if it does.  A rule that rests is passed over, and so is one whose
count is less than its threshold. -/
def fire? (counts : Counts) (now : Instant) (r : Rule) : Option Alert :=
  if r.inCooldown now then none
  else
    let value : Double := .ofNat (counts.rate r.metric r.version).1.toNat
    if value < r.threshold then none else some (.ofRule r value now)

/-- The rule after a pass. -/
def afterPass (counts : Counts) (now : Instant) (r : Rule) : Rule :=
  if (r.fire? counts now).isSome then { r with lastFired := some now } else r

theorem fire?_eq_some_iff {counts : Counts} {now : Instant} {r : Rule} {a : Alert} :
    r.fire? counts now = some a ↔ r.inCooldown now = false ∧
      ¬ (.ofNat (counts.rate r.metric r.version).1.toNat : Double) < r.threshold ∧
      a = .ofRule r (.ofNat (counts.rate r.metric r.version).1.toNat) now := by
  rw [fire?]
  cases hcool : r.inCooldown now with
  | true => simp
  | false =>
    by_cases hlow : (.ofNat (counts.rate r.metric r.version).1.toNat : Double) < r.threshold
    · simp [hlow]
    · simp [hlow, eq_comm]

/-- Of a rule that fires nothing changes but its last firing. -/
theorem afterPass_eq (counts : Counts) (now : Instant) (r : Rule) :
    r.afterPass counts now =
      { r with lastFired := ((r.fire? counts now).map Alert.timestamp).or r.lastFired } := by
  rw [afterPass]
  cases h : r.fire? counts now with
  | none => rfl
  | some a =>
    obtain ⟨-, -, rfl⟩ := fire?_eq_some_iff.1 h
    rfl

end Rule

/-- The alerts that a pass over the rules raises, in the order of the rules. -/
def alertsOf (rules : List Rule) (counts : Counts) (now : Instant) : List Alert :=
  rules.filterMap (Rule.fire? counts now)

/-- The rules after a pass. -/
def rulesAfter (rules : List Rule) (counts : Counts) (now : Instant) : List Rule :=
  rules.map (Rule.afterPass counts now)

end SpikeWatch
