import SpikeWatch.Proofs.Settings.Requirements
import Mathlib

/-!
# Durations that are set

A setting is a whole number of sixty-four bits, while a duration is reckoned in words with a sign
and has a range of its own.  Numbers are cut at a bound before a duration is made of them, and
settings beyond that bound do not pass the check.

* `Duration.ofWords?` is how a duration comes of a number in words: cut, cast and multiplied, with a
  failure wherever there is no room for the result.
* `Converts` is what is asked of a setting for a duration, and `converts_cut` says that it holds
  wherever the bound has room.  All settings for durations are instances of it.
* `durations_exact` lists them, with what the check adds: it accepts nothing that would be cut.
-/

set_option autoImplicit false

namespace SpikeWatch

/-! ## Durations in words -/

namespace Duration

/-- The longest duration.  The shortest one is as long, the other way. -/
def longest : Duration := .ofMillis Int64.maxValue.toInt

/-- The product of two words, if it has room in one. -/
def mulWords? (m n : Int64) : Option Int64 :=
  if Int64.minValue.toInt ≤ m.toInt * n.toInt ∧ m.toInt * n.toInt ≤ Int64.maxValue.toInt then
    some (m * n)
  else none

/-- The duration of so many seconds, if there is one. -/
def ofSecondsWord? (n : Int64) : Option Duration :=
  if -longest.nanos ≤ (ofSeconds n.toInt).nanos ∧ (ofSeconds n.toInt).nanos ≤ longest.nanos then
    some (ofSeconds n.toInt)
  else none

/-- The duration of so many times a number of seconds, if it can be reckoned in words.  The number
is cut at a bound and cast to a word with a sign. -/
def ofWords? (seconds : Int64) (bound raw : UInt64) : Option Duration :=
  (mulWords? (min raw bound).toInt64 seconds).bind ofSecondsWord?

/-- A cast keeps the numbers that words with a sign have room for. -/
theorem toInt_toInt64 {n : UInt64} (h : n.toNat < 2 ^ 63) : n.toInt64.toInt = n.toNat :=
  BitVec.toInt_eq_toNat_of_lt (by simpa using Nat.mul_lt_mul_of_pos_left h (by decide : 0 < 2))

theorem ofSeconds_le_ofSeconds {m n : Int} : ofSeconds m ≤ ofSeconds n ↔ m ≤ n := by
  change m * 1000000000 ≤ n * 1000000000 ↔ _
  omega

/-- A product that is not negative and has room as a number of milliseconds is made in words. -/
theorem bind_mulWords? {m n : Int64} (hnonneg : 0 ≤ m.toInt * n.toInt)
    (hroom : m.toInt * n.toInt * 1000 ≤ Int64.maxValue.toInt) :
    (mulWords? m n).bind ofSecondsWord? = some (.ofSeconds (m.toInt * n.toInt)) := by
  have hmin : Int64.minValue.toInt = -2 ^ 63 := rfl
  have hmax : Int64.maxValue.toInt = 2 ^ 63 - 1 := rfl
  have hproduct : (m * n).toInt = m.toInt * n.toInt := by
    rw [Int64.toInt_mul]
    exact Int.bmod_eq_of_le (by omega) (by omega)
  rw [mulWords?, if_pos ⟨by omega, by omega⟩, Option.bind_some, ofSecondsWord?, hproduct, if_pos]
  simp only [longest, ofMillis, ofSeconds]
  omega

end Duration

/-! ## Settings for durations -/

namespace Settings

/-- A setting for a duration, as a function of the number that is set: so many times a number of
seconds, up to a bound. -/
structure Converts (seconds : Int64) (bound : UInt64) (greatest : Duration)
    (duration : UInt64 → Duration) : Prop where
  /-- The cast to a word with a sign keeps the number. -/
  cast : ∀ raw, (min raw bound).toInt64.toInt = (min raw bound).toNat
  /-- Reckoning in words does not fail, and comes to the duration. -/
  words : ∀ raw, Duration.ofWords? seconds bound raw = some (duration raw)
  nonneg : ∀ raw, .ofSeconds 0 ≤ duration raw
  le_greatest : ∀ raw, duration raw ≤ greatest
  mono : ∀ raw raw', raw ≤ raw' → duration raw ≤ duration raw'
  /-- What is not beyond the bound is not cut. -/
  uncut : ∀ raw, raw ≤ bound → duration raw = .ofSeconds (raw.toNat * seconds.toInt)

section Cut

variable {seconds : Int64} {bound : UInt64}

theorem cut_mul_bounds (bound raw : UInt64) (hseconds : 0 ≤ seconds.toInt) :
    0 ≤ (min raw.toNat bound.toNat : Int) * seconds.toInt ∧
      (min raw.toNat bound.toNat : Int) * seconds.toInt ≤ bound.toNat * seconds.toInt :=
  ⟨Int.mul_nonneg (by omega) hseconds, Int.mul_le_mul_of_nonneg_right (by omega) hseconds⟩

/-- **A number that is cut at a bound with room for it makes a duration.** -/
theorem converts_cut (hseconds : 1 ≤ seconds.toInt)
    (hroom : bound.toNat * seconds.toInt * 1000 ≤ Int64.maxValue.toInt) :
    Converts seconds bound (.ofSeconds (bound.toNat * seconds.toInt))
      fun raw => .ofSeconds ((min raw.toNat bound.toNat : Int) * seconds.toInt) := by
  have hmax : Int64.maxValue.toInt = 2 ^ 63 - 1 := rfl
  have hbound := Int.mul_le_mul_of_nonneg_left hseconds (Int.natCast_nonneg bound.toNat)
  have hcast (raw : UInt64) : (min raw bound).toInt64.toInt = (min raw bound).toNat :=
    Duration.toInt_toInt64 (by rw [UInt64.toNat_min]; omega)
  have hbounds (raw : UInt64) := cut_mul_bounds bound raw (Int.le_of_lt hseconds)
  refine {
    cast := hcast
    words := fun raw => ?words
    nonneg := fun raw => Duration.ofSeconds_le_ofSeconds.2 (hbounds raw).1
    le_greatest := fun raw => Duration.ofSeconds_le_ofSeconds.2 (hbounds raw).2
    mono := fun raw raw' h => Duration.ofSeconds_le_ofSeconds.2 ?mono
    uncut := fun raw h => ?uncut }
  case words =>
    have hword : (min raw bound).toInt64.toInt = (min raw.toNat bound.toNat : Int) := by
      rw [hcast, UInt64.toNat_min]
      omega
    obtain ⟨hnonneg, hle⟩ := hbounds raw
    rw [← hword] at hnonneg hle ⊢
    exact Duration.bind_mulWords? hnonneg (by omega)
  case mono =>
    rw [UInt64.le_iff_toNat_le] at h
    exact Int.mul_le_mul_of_nonneg_right (by omega) (Int.le_of_lt hseconds)
  case uncut => rw [Int.min_eq_left (Int.ofNat_le.2 (UInt64.le_iff_toNat_le.1 h))]

/-- A number of seconds needs no product. -/
theorem converts_cut_seconds (hroom : (bound.toNat : Int) * 1000 ≤ Int64.maxValue.toInt) :
    Converts 1 bound (.ofSeconds bound.toNat)
      fun raw => .ofSeconds (min raw.toNat bound.toNat : Int) := by
  have hone : (1 : Int64).toInt = 1 := rfl
  have hcut : Converts 1 bound _ _ := converts_cut (by decide) (by rwa [hone, Int.mul_one])
  simpa only [hone, Int.mul_one] using hcut

end Cut

/-! ## The settings -/

theorem converts_maxAge (s : Ingest) : Converts 3600 (.ofNat maxEventAgeHours) (.ofDays 365)
    fun raw => ({ s with maxEventAgeHours := raw } : Ingest).limits.maxAge :=
  converts_cut (by decide) (by decide)

theorem converts_maxSkew (s : Ingest) : Converts 60 (.ofNat maxFutureSkewMinutes) (.ofDays 1)
    fun raw => ({ s with maxFutureSkewMinutes := raw } : Ingest).limits.maxSkew :=
  converts_cut (by decide) (by decide)

theorem converts_window (s : Aggregator) : Converts 1 (.ofNat maxWindowSeconds) (.ofDays 1)
    fun raw => ({ s with windowSeconds := raw } : Aggregator).window :=
  converts_cut_seconds (by decide)

theorem converts_ruleWindow (t : RuleSetting) : Converts 1 (.ofNat maxWindowSeconds) (.ofDays 1)
    fun raw => ({ t with windowSeconds := raw } : RuleSetting).rule.window :=
  converts_cut_seconds (by decide)

theorem converts_ruleCooldown (t : RuleSetting) : Converts 1 (.ofNat maxCooldownSeconds) (.ofDays 7)
    fun raw => ({ t with cooldownSeconds := raw } : RuleSetting).rule.cooldown :=
  converts_cut_seconds (by decide)

/-- **Durations never overflow, and cutting them is not seen.**  Whatever number is set, each of the
durations is made of it in words without an overflow and within the range of durations, is not
negative and no longer than a year, a day or a week, and grows with the number.  Of settings that
pass the check, each is just so many hours, minutes or seconds as the number says. -/
theorem durations_exact :
    (∀ s : Ingest,
      Converts 3600 (.ofNat maxEventAgeHours) (.ofDays 365)
        (fun raw => ({ s with maxEventAgeHours := raw } : Ingest).limits.maxAge) ∧
      Converts 60 (.ofNat maxFutureSkewMinutes) (.ofDays 1)
        fun raw => ({ s with maxFutureSkewMinutes := raw } : Ingest).limits.maxSkew) ∧
    (∀ s : Aggregator, Converts 1 (.ofNat maxWindowSeconds) (.ofDays 1)
      fun raw => ({ s with windowSeconds := raw } : Aggregator).window) ∧
    (∀ t : RuleSetting,
      Converts 1 (.ofNat maxWindowSeconds) (.ofDays 1)
        (fun raw => ({ t with windowSeconds := raw } : RuleSetting).rule.window) ∧
      Converts 1 (.ofNat maxCooldownSeconds) (.ofDays 7)
        fun raw => ({ t with cooldownSeconds := raw } : RuleSetting).rule.cooldown) ∧
    ∀ s : Settings, s.check = .ok () →
      s.ingest.limits.maxAge = .ofHours s.ingest.maxEventAgeHours.toNat ∧
      s.ingest.limits.maxSkew = .ofMinutes s.ingest.maxFutureSkewMinutes.toNat ∧
      s.aggregator.window = .ofSeconds s.aggregator.windowSeconds.toNat ∧
      ∀ t ∈ s.alerts.rules, t.rule.window = .ofSeconds t.windowSeconds.toNat ∧
        t.rule.cooldown = .ofSeconds t.cooldownSeconds.toNat := by
  refine ⟨fun s => ⟨converts_maxAge s, converts_maxSkew s⟩, converts_window,
    fun t => ⟨converts_ruleWindow t, converts_ruleCooldown t⟩, fun s hcheck => ?_⟩
  obtain ⟨⟨-, hage⟩, hskew, ⟨-, hwindow⟩, -, -, -, -, -, -, -, hwindows, hcooldowns⟩ :=
    check_eq_ok_iff_usable.1 hcheck
  have hone (n : Int) : n * (1 : Int64).toInt = n := Int.mul_one n
  refine ⟨(converts_maxAge s.ingest).uncut _ (UInt64.le_iff_toNat_le.2 hage),
    (converts_maxSkew s.ingest).uncut _ (UInt64.le_iff_toNat_le.2 hskew), ?_, fun t ht => ⟨?_, ?_⟩⟩
  · have := (converts_window s.aggregator).uncut _ (UInt64.le_iff_toNat_le.2 hwindow)
    rwa [hone] at this
  · have := (converts_ruleWindow t).uncut _ (UInt64.le_iff_toNat_le.2 (hwindows t ht).2)
    rwa [hone] at this
  · have := (converts_ruleCooldown t).uncut _ (UInt64.le_iff_toNat_le.2 (hcooldowns t ht))
    rwa [hone] at this

/-- Every duration is set to its bound: nothing is cut, and a year, a day and a week are allowed. -/
theorem durations_exact_at_bounds :
    let t : RuleSetting := {
      id := "r", name := "R", metric := .crash, threshold := .ofNat 1
      windowSeconds := 86400, cooldownSeconds := 604800 }
    let s : Settings := {
      ingest := { maxEventAgeHours := 8760, maxFutureSkewMinutes := 1440 }
      aggregator := { windowSeconds := 86400 }
      alerts := { rules := [t] } }
    s.check = .ok () ∧ s.ingest.limits.maxAge = .ofDays 365 ∧
      s.ingest.limits.maxSkew = .ofDays 1 ∧ s.aggregator.window = .ofDays 1 ∧
      t.rule.window = .ofDays 1 ∧ t.rule.cooldown = .ofDays 7 := by
  intro t s
  have hcheck : s.check = .ok () := by decide +kernel
  obtain ⟨-, -, -, hset⟩ := durations_exact
  obtain ⟨hage, hskew, hwindow, hrules⟩ := hset s hcheck
  obtain ⟨hruleWindow, hruleCooldown⟩ := hrules t (.head _)
  exact ⟨hcheck, hage.trans (by decide), hskew.trans (by decide), hwindow.trans (by decide),
    hruleWindow.trans (by decide), hruleCooldown.trans (by decide)⟩

end Settings

end SpikeWatch
