import SpikeWatch.Proofs.Alert.Pass
import SpikeWatch.Proofs.Binary.Exact

/-!
# Counts and thresholds

A count is a whole number of sixty-four bits and a threshold is a floating-point number.  A pass
compares them by rounding the count first, so it may be mistaken about a count beside its threshold.

* `Reaches` is the comparison of a pass, and `isSome_fire?_iff` says that a rule which does not rest
  fires just by it.
* `Rule.fires_exact`: no alert is missed by rounding, since rounding is monotone and leaves the
  threshold alone (`Binary.le_ofNat`); and up to `2 ^ 53` there are no mistakes at all, since counts
  are not rounded (`Binary.toRat?_ofNat`).
-/

set_option autoImplicit false

namespace SpikeWatch

/-- Whether a count reaches a threshold, as a pass compares them. -/
def Reaches (count : UInt64) (threshold : Double) : Prop :=
  ¬ (.ofNat count.toNat : Double) < threshold

instance (count : UInt64) (threshold : Double) : Decidable (Reaches count threshold) :=
  inferInstanceAs (Decidable (¬ _))

namespace Reaches

variable {count : UInt64} {threshold : Double} {value : ℚ}

/-- Rounding never takes a count below a threshold that it reaches. -/
theorem of_le (h : threshold.toRat? = some value) (hle : value ≤ count.toNat) :
    Reaches count threshold :=
  Binary.not_lt_of_le (Binary.le_ofNat h hle)

/-- Counts that are not rounded are compared as they are. -/
theorem iff_le (h : threshold.toRat? = some value) (hcount : count.toNat ≤ 2 ^ 53) :
    Reaches count threshold ↔ value ≤ count.toNat := by
  rw [Reaches, Binary.lt_iff_of_toRat? (Binary.toRat?_ofNat hcount) h, not_lt]

end Reaches

namespace Rule

/-- A rule that does not rest fires just if its threshold is reached. -/
theorem isSome_fire?_iff {r : Rule} {counts : Counts} {now : Instant}
    (hcool : r.inCooldown now = false) : (r.fire? counts now).isSome = true ↔
      Reaches (counts.rate r.metric r.version).1 r.threshold := by
  rw [Option.isSome_iff_exists]
  constructor
  · rintro ⟨a, ha⟩
    exact (fire?_eq_some_iff.1 ha).2.1
  · intro hreaches
    exact ⟨_, fire?_eq_some_iff.2 ⟨hcool, hreaches, rfl⟩⟩

/-- **Rounding a count never keeps a rule from firing**, and up to `2 ^ 53` it never makes one fire
either.  A finite threshold has an exact value.  A count that is no less reaches it, so that a rule
with this threshold fires if it does not rest; and among counts up to `2 ^ 53` no others do. -/
theorem fires_exact {r : Rule} (hfinite : r.threshold.isFinite = true) :
    ∃ value : ℚ, r.threshold.toRat? = some value ∧ ∀ count : UInt64,
      (value ≤ count.toNat → Reaches count r.threshold) ∧
      (count.toNat ≤ 2 ^ 53 → (Reaches count r.threshold ↔ value ≤ count.toNat)) ∧
      ∀ (counts : Counts) (now : Instant), (counts.rate r.metric r.version).1 = count →
        r.inCooldown now = false →
        ((r.fire? counts now).isSome = true ↔ Reaches count r.threshold) := by
  obtain ⟨value, hvalue⟩ := Binary.exists_toRat?_of_isFinite hfinite
  refine ⟨value, hvalue, fun count => ⟨Reaches.of_le hvalue, Reaches.iff_le hvalue, ?_⟩⟩
  rintro counts now rfl hcool
  exact isSome_fire?_iff hcool

/-- The threshold is `2 ^ 53`, and one crash is missing until one more is counted. -/
theorem fires_exact_at_two_pow :
    let r : Rule := { id := "r", name := "R", metric := .crash, threshold := .ofNat (2 ^ 53) }
    let counts : Counts := { crash := (∅ : VersionTable).insert "" ⟨"", 2 ^ 53 - 1, .epoch, ∅⟩ }
    r.threshold.isFinite = true ∧ r.threshold.toRat? = some (2 ^ 53) ∧
      r.fire? counts .epoch = none ∧
      (r.fire? (counts.record .epoch .crash "" "a") .epoch).isSome = true := by
  intro r counts
  have hfinite : r.threshold.isFinite = true := by decide +kernel
  have hvalue : r.threshold.toRat? = some (2 ^ 53) := by
    have := Binary.toRat?_ofNat (Nat.le_refl (2 ^ 53))
    rwa [Nat.cast_pow, Nat.cast_ofNat] at this
  obtain ⟨value, hexact, hcounts⟩ := fires_exact hfinite
  obtain rfl : value = 2 ^ 53 := Option.some.inj (hexact.symm.trans hvalue)
  refine ⟨hfinite, hvalue, ?_, ?_⟩
  · obtain ⟨-, hreaches, hfires⟩ := hcounts (2 ^ 53 - 1)
    have hrate : (counts.rate r.metric r.version).1 = 2 ^ 53 - 1 := by decide +kernel
    have hless : ¬ 2 ^ 53 ≤ (2 ^ 53 - 1 : UInt64).toNat := by decide
    rw [← Option.not_isSome_iff_eq_none, hfires counts .epoch hrate rfl, hreaches (by decide)]
    exact_mod_cast hless
  · obtain ⟨hreaches, -, hfires⟩ := hcounts (2 ^ 53)
    have hrate : ((counts.record .epoch .crash "" "a").rate r.metric r.version).1 = 2 ^ 53 := by
      decide +kernel
    have hle : 2 ^ 53 ≤ (2 ^ 53 : UInt64).toNat := by decide
    rw [hfires _ .epoch hrate rfl]
    exact hreaches (by exact_mod_cast hle)

/-- Beyond `2 ^ 53` a count may reach a threshold by being rounded up to it. -/
example : Reaches (2 ^ 53 + 3) (.ofNat (2 ^ 53 + 4)) := by decide +kernel

end Rule

end SpikeWatch
