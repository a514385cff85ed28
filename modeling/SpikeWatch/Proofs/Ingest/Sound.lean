import SpikeWatch.Proofs.Ingest.Acceptance
import SpikeWatch.Proofs.Label

/-!
# What is known of an accepted event

An event is looked at once, when it comes in, and all that is known of it later rests on that.

* `Limits.allowsTime_eq_true_iff` says which timestamps are acceptable, in nanoseconds and without
  the range of instants.  A limit that lies outside the range excludes nothing, and nothing within
  the range lies beyond it either.
* `Event.Sound` is what is known of an event that was accepted at a given present
  (`sound_of_judge_eq_ok`).  The labels are among it: they are made once and stay as they are.
-/

set_option autoImplicit false

namespace SpikeWatch

open Json (Value)

/-! ## Timestamps -/

namespace Instant

variable {s t : Instant} {d : Duration}

/-- Moving an instant is exact addition, where it succeeds. -/
theorem add?_eq_some_iff : t.add? d = some s ↔ s.nanos = t.nanos + d.nanos :=
  ofNanos?_eq_some_iff

/-- Moving an instant back fails just where the result would lie outside the range. -/
theorem sub?_eq_none_iff (hd : 0 ≤ d.nanos) :
    t.sub? d = none ↔ t.nanos - d.nanos < firstNanos := by
  have hlast := t.le_last
  rw [sub?, ofNanos?]
  split
  · next h => simp [Int.not_lt.2 h.1]
  · next h => simp only [true_iff]; omega

theorem add?_eq_none_iff (hd : 0 ≤ d.nanos) :
    t.add? d = none ↔ lastNanos < t.nanos + d.nanos := by
  have hfirst := t.first_le
  rw [add?, ofNanos?]
  split
  · next h => simp [Int.not_lt.2 h.2]
  · next h => simp only [true_iff]; omega

/-- No instant lies before one that is too early to be one. -/
theorem forall_sub?_lt_iff {now : Instant} (hd : 0 ≤ d.nanos) :
    (∀ oldest, now.sub? d = some oldest → oldest < t) ↔ now.nanos - d.nanos < t.nanos := by
  cases hsub : now.sub? d with
  | some oldest =>
    rw [← sub?_eq_some_iff.1 hsub]
    simp only [Option.some.injEq, forall_eq']
    rfl
  | none =>
    have hfirst := (sub?_eq_none_iff hd).1 hsub
    simp [Int.lt_of_lt_of_le hfirst t.first_le]

/-- No instant lies behind one that is too late to be one. -/
theorem forall_add?_le_iff {now : Instant} (hd : 0 ≤ d.nanos) :
    (∀ latest, now.add? d = some latest → t ≤ latest) ↔ t.nanos ≤ now.nanos + d.nanos := by
  cases hadd : now.add? d with
  | some latest =>
    rw [← add?_eq_some_iff.1 hadd]
    simp only [Option.some.injEq, forall_eq']
    rfl
  | none =>
    have hlast := (add?_eq_none_iff hd).1 hadd
    simp [Int.le_of_lt (Int.lt_of_le_of_lt t.le_last hlast)]

/-- The milliseconds are zero within the first millisecond of 1970.  Such a time counts as
missing. -/
theorem millis_ne_zero_iff : t.millis ≠ 0 ↔ ¬ (0 ≤ t.nanos ∧ t.nanos < 1000000) := by
  rw [millis]
  omega

end Instant

/-- **The limits, in exact arithmetic.** -/
theorem Limits.allowsTime_eq_true_iff {limits : Limits} (hage : 0 ≤ limits.maxAge.nanos)
    (hskew : 0 ≤ limits.maxSkew.nanos) {now t : Instant} :
    limits.allowsTime now t = true ↔ ¬ (0 ≤ t.nanos ∧ t.nanos < 1000000) ∧
      now.nanos - limits.maxAge.nanos < t.nanos ∧ t.nanos ≤ now.nanos + limits.maxSkew.nanos := by
  rw [← Instant.forall_sub?_lt_iff hage, ← Instant.forall_add?_le_iff hskew,
    ← Instant.millis_ne_zero_iff, allowsTime]
  cases now.sub? limits.maxAge <;> cases now.add? limits.maxSkew <;> simp [and_assoc]

/-! ## Accepted events -/

/-- What is known of an event that was accepted at a given present. -/
structure Event.Sound (limits : Limits) (now : Instant) (e : Event) : Prop where
  /-- The timestamp does not lie in the first millisecond of 1970. -/
  hasTime : ¬ (0 ≤ e.context.timestamp.nanos ∧ e.context.timestamp.nanos < 1000000)
  young : now.nanos - limits.maxAge.nanos < e.context.timestamp.nanos
  notAhead : e.context.timestamp.nanos ≤ now.nanos + limits.maxSkew.nanos
  appVersion : e.context.appVersion ≠ ""
  deviceId : e.context.deviceId ≠ ""
  sessionId : e.context.sessionId ≠ ""
  platform : e.context.platform ≠ ""
  /-- The platform is its own label. -/
  platformLabel : platformLabel e.context.platform = e.context.platform
  deviceModel : ∃ c ∈ e.context.deviceModel.toList, Text.isBlank c = false
  sceneName : ∀ d, e.details = .sceneLoad d → d.sceneName ≠ ""
  exceptionFingerprint : ∀ d, e.details = .exception d → d.fingerprint ≠ ""
  crashFingerprint : ∀ d, e.details = .crash d → d.fingerprint ≠ ""

theorem Limits.checkDetails_eq_ok_iff {details : Details} :
    checkDetails details = .ok () ↔ (∀ d, details = .sceneLoad d → d.sceneName ≠ "") ∧
      (∀ d, details = .exception d → d.fingerprint ≠ "") ∧
      ∀ d, details = .crash d → d.fingerprint ≠ "" := by
  cases details <;> simp [checkDetails]

/-- **An accepted event is sound.** -/
theorem sound_of_judge_eq_ok {limits : Limits} (hage : 0 ≤ limits.maxAge.nanos)
    (hskew : 0 ≤ limits.maxSkew.nanos) {now : Instant} {raw : Value} {e : Event}
    (h : judge limits now raw = .ok e) : e.Sound limits now := by
  obtain ⟨-, -, time, decoded, -, -, -, -, hcheck, rfl⟩ := judge_eq_ok_iff_exists.1 h
  obtain ⟨hallows, happVersion, hplatform, hdeviceId, hsessionId, hdetails⟩ :=
    Limits.check_eq_ok_iff.1 hcheck
  obtain ⟨hhasTime, hyoung, hnotAhead⟩ := (Limits.allowsTime_eq_true_iff hage hskew).1 hallows
  obtain ⟨hscene, hexception, hcrash⟩ := Limits.checkDetails_eq_ok_iff.1 hdetails
  -- What was settled is settled: the labels are made once, before the check.
  have hlabel : platformLabel (decoded.settle time).context.platform =
      (decoded.settle time).context.platform := by
    simp only [Event.settle, platformLabel_platformLabel]
  have hmodel : ∃ c ∈ (decoded.settle time).context.deviceModel.toList, Text.isBlank c = false := by
    simp only [Event.settle, exists_isBlank_eq_false_deviceModelLabel]
  exact {
    hasTime := hhasTime
    young := hyoung
    notAhead := hnotAhead
    appVersion := happVersion
    deviceId := hdeviceId
    sessionId := hsessionId
    platform := hplatform
    platformLabel := hlabel
    deviceModel := hmodel
    sceneName := hscene
    exceptionFingerprint := hexception
    crashFingerprint := hcrash }

end SpikeWatch
