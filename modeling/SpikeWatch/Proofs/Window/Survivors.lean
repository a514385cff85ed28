import SpikeWatch.Proofs.Window.Sliding

/-!
# What a sweep leaves

An entry that outlives a sweep has an occurrence within the window, and an entry with an occurrence
within the window outlives it.  So right after a sweep the history alone tells which versions are
live, and no earlier sweep matters to that.

* `Pipeline.live_append_sweep_ne_nil_iff` is the first half, from what `Settled` says of runs in
  which time does not go back.  The window is held against exact times, also where it reaches back
  beyond the first instant and the sweep passes over everything.
* `Pipeline.RecordsAlike` relates two pipelines that will go through the same history from now on,
  whatever has been dropped in one of them and not in the other (`history_withoutSweeps`).
* `Pipeline.rate_ne_zero_iff_recent` puts both together.
-/

set_option autoImplicit false

namespace SpikeWatch

/-! ## Runs without sweeps -/

namespace Step

/-- Whether a step is a sweep. -/
def isSweep : Step → Bool
  | .sweep => true
  | _ => false

theorem isSweep_eq_true_iff {s : Step} : s.isSweep = true ↔ s = .sweep := by
  cases s <;> simp [isSweep]

/-- A run without the sweeps in it. -/
def withoutSweeps (steps : List Step) : List Step := steps.filter (!·.isSweep)

theorem withoutSweeps_cons_of_isSweep_eq_false {s : Step} (hs : s.isSweep = false)
    (steps : List Step) : withoutSweeps (s :: steps) = s :: withoutSweeps steps := by
  rw [withoutSweeps, List.filter_cons, hs]
  rfl

end Step

namespace Pipeline

/-- Two pipelines agree in all that decides what will be counted, and when. -/
structure RecordsAlike (p q : Pipeline) : Prop where
  now : p.now = q.now
  limits : p.limits = q.limits
  realtime : p.realtime = q.realtime
  window : p.window = q.window

theorem RecordsAlike.refl (p : Pipeline) : p.RecordsAlike p := ⟨rfl, rfl, rfl, rfl⟩

variable {p q : Pipeline}

/-- Pipelines that record alike record the same in a step, and go on to do so. -/
theorem RecordsAlike.step (h : p.RecordsAlike q) (s : Step) :
    p.occurrences s = q.occurrences s ∧ (p.step s).1.RecordsAlike (q.step s).1 := by
  obtain ⟨store, totals, notifier, hp⟩ := p.step_eq s
  obtain ⟨store', totals', notifier', hq⟩ := q.step_eq s
  rw [hp, hq]
  -- the two pipelines are made of the same parts now, but for those that no history depends on
  obtain ⟨now, limits, realtime, window, _, _, _, _, _, _⟩ := p
  obtain ⟨rfl, rfl, rfl, rfl⟩ := h
  exact ⟨by cases s <;> rfl, by cases s <;> rfl, rfl, rfl, rfl⟩

/-- A sweep changes nothing that recording depends on. -/
theorem RecordsAlike.sweep (h : p.RecordsAlike q) : (p.step .sweep).1.RecordsAlike q :=
  ⟨h.now, h.limits, h.realtime, h.window⟩

/-- Sweeps neither count anything nor move the clock. -/
theorem RecordsAlike.run_withoutSweeps (h : p.RecordsAlike q) (steps : List Step) :
    p.history steps = q.history (Step.withoutSweeps steps) ∧
      (p.run steps).1.RecordsAlike (q.run (Step.withoutSweeps steps)).1 := by
  induction steps generalizing p q with
  | nil => exact ⟨rfl, h⟩
  | cons s steps ih =>
    cases hs : s.isSweep with
    | false =>
      rw [Step.withoutSweeps_cons_of_isSweep_eq_false hs]
      obtain ⟨hoccurrences, hstep⟩ := h.step s
      obtain ⟨hhistory, hrun⟩ := ih hstep
      exact ⟨by rw [history, history, hoccurrences, hhistory], hrun⟩
    | true =>
      obtain rfl := Step.isSweep_eq_true_iff.1 hs
      exact ih h.sweep

/-- Whether time goes back does not depend on sweeps. -/
theorem RecordsAlike.forward_withoutSweeps (h : p.RecordsAlike q) (steps : List Step) :
    p.Forward steps ↔ q.Forward (Step.withoutSweeps steps) := by
  induction steps generalizing p q with
  | nil => exact Iff.rfl
  | cons s steps ih =>
    cases hs : s.isSweep with
    | false =>
      rw [Step.withoutSweeps_cons_of_isSweep_eq_false hs, Forward, Forward, h.now,
        (h.step s).2.now, ih (h.step s).2]
    | true =>
      obtain rfl := Step.isSweep_eq_true_iff.1 hs
      exact (and_iff_right (Instant.le_refl _)).trans (ih h.sweep)

/-- **Runs that differ in their sweeps alone** have the same history and end at the same time. -/
theorem history_eq_of_withoutSweeps_eq (p : Pipeline) {steps steps' : List Step}
    (h : Step.withoutSweeps steps' = Step.withoutSweeps steps) :
    p.history steps' = p.history steps ∧ (p.run steps').1.now = (p.run steps).1.now ∧
      (p.Forward steps' ↔ p.Forward steps) := by
  have halike := RecordsAlike.refl p
  obtain ⟨hhistory, hrun⟩ := halike.run_withoutSweeps steps
  obtain ⟨hhistory', hrun'⟩ := halike.run_withoutSweeps steps'
  rw [h] at hhistory' hrun'
  refine ⟨hhistory'.trans hhistory.symm, hrun'.now.trans hrun.now.symm, ?_⟩
  rw [halike.forward_withoutSweeps, halike.forward_withoutSweeps steps, h]

/-! ## What is live after a sweep -/

theorem forward_append_sweep {steps : List Step} (h : p.Forward steps) :
    p.Forward (steps ++ [.sweep]) := by
  induction steps generalizing p with
  | nil => exact ⟨Instant.le_refl _, trivial⟩
  | cons s steps ih => exact ⟨h.1, ih h.2⟩

theorem history_append_sweep (p : Pipeline) (steps : List Step) :
    p.history (steps ++ [.sweep]) = p.history steps := by
  induction steps generalizing p with
  | nil => rfl
  | cons s steps ih => exact congrArg (p.occurrences s ++ ·) (ih _)

theorem now_run_append_sweep (p : Pipeline) (steps : List Step) :
    (p.run (steps ++ [.sweep])).1.now = (p.run steps).1.now := by
  rw [run_append]
  rfl

/-- The recent occurrences, by exact times. -/
theorem mem_recent_iff {m : Metric} {v : String} {steps : List Step} {o : Occurrence} :
    o ∈ p.recent m v steps ↔ o ∈ p.history steps ∧ o.isOf m v = true ∧
      (p.run steps).1.now.nanos - p.window.nanos ≤ o.time.nanos := by
  rw [recent, List.mem_filter, Bool.and_eq_true]
  have hwithin : o.isWithin p.window (p.run steps).1.now = true ↔
      (p.run steps).1.now.nanos - p.window.nanos ≤ o.time.nanos := by
    rw [← Bool.not_eq_false, Occurrence.isWithin_eq_false_iff]
    omega
  rw [hwithin]

/-- **Live is recent.**  After a sweep something is live of a version just if something of it lies
within the window: its last live occurrence does, and whatever lies within it is live. -/
theorem live_append_sweep_ne_nil_iff (hempty : p.counts = {}) {steps : List Step}
    (hforward : p.Forward steps) (hwindow : 0 ≤ p.window.nanos) (m : Metric) (v : String) :
    p.live m v (steps ++ [.sweep]) ≠ [] ↔
      ∃ o ∈ p.history steps, o.isOf m v = true ∧
        (p.run steps).1.now.nanos - p.window.nanos ≤ o.time.nanos := by
  have hrecent := recent_eq_filter_live hempty (forward_append_sweep hforward) m v
  rw [← history_append_sweep, ← now_run_append_sweep]
  constructor
  · intro hlive
    let last := (p.live m v (steps ++ [.sweep])).getLast hlive
    have hwithin := isWithin_of_mem_getLast? hempty hwindow (List.getLast?_eq_some_getLast hlive)
    have hmem : last ∈ p.recent m v (steps ++ [.sweep]) := by
      rw [hrecent]
      exact List.mem_filter.2 ⟨List.getLast_mem hlive, hwithin⟩
    exact ⟨last, mem_recent_iff.1 hmem⟩
  · rintro ⟨o, ho⟩
    have hmem : o ∈ p.recent m v (steps ++ [.sweep]) := mem_recent_iff.2 ho
    rw [hrecent] at hmem
    exact List.ne_nil_of_mem (List.mem_filter.1 hmem).1

/-- A version counts nothing, and no session, just if nothing of it is live. -/
theorem rate_ne_zero_iff (hempty : p.counts = {}) {steps : List Step}
    (hfew : (p.history steps).length < UInt64.size) (m : Metric) (v : String) :
    ((p.run steps).1.counts.rate m v ≠ (0, 0) ↔ p.live m v steps ≠ []) ∧
      (((p.run steps).1.counts.rate m v).1 = 0 ↔ ((p.run steps).1.counts.rate m v).2 = 0) := by
  have hcount := toNat_rate hempty hfew m v
  have hsessions := congrArg Prod.snd (tracks_live hempty steps m v).rate
  rw [Ne, Prod.ext_iff, ← UInt64.toNat_inj, hcount, hsessions]
  change (¬ ((p.live m v steps).length = 0 ∧ _) ↔ _) ∧ ((p.live m v steps).length = 0 ↔ _)
  simp

/-- **What is live right after a sweep.**  For a window that does not reach into the future, and in
runs in which time does not go back: a version is live just if something of it was counted no longer
ago than the window, in exact time.  Runs that differ in their sweeps alone leave the same versions
live. -/
theorem rate_ne_zero_iff_recent (p : Pipeline) (hempty : p.counts = {}) (steps : List Step)
    (hforward : p.Forward steps) (hfew : (p.history steps).length < UInt64.size)
    (hwindow : 0 ≤ p.window.nanos) (m : Metric) (v : String) :
    let q := (p.run (steps ++ [.sweep])).1
    (q.counts.rate m v ≠ (0, 0) ↔ ∃ o ∈ p.history steps, o.isOf m v = true ∧
      q.now.nanos - p.window.nanos ≤ o.time.nanos) ∧
    ((q.counts.rate m v).1 = 0 ↔ (q.counts.rate m v).2 = 0) ∧
    ∀ steps', Step.withoutSweeps steps' = Step.withoutSweeps steps →
      ((p.run (steps' ++ [.sweep])).1.counts.rate m v ≠ (0, 0) ↔
        q.counts.rate m v ≠ (0, 0)) := by
  intro q
  have hlive {steps' : List Step} (h : Step.withoutSweeps steps' = Step.withoutSweeps steps) :
      (p.run (steps' ++ [.sweep])).1.counts.rate m v ≠ (0, 0) ↔
        ∃ o ∈ p.history steps, o.isOf m v = true ∧
          (p.run steps).1.now.nanos - p.window.nanos ≤ o.time.nanos := by
    obtain ⟨hhistory, hnow, hforward'⟩ := p.history_eq_of_withoutSweeps_eq h
    have hfew' : (p.history (steps' ++ [.sweep])).length < UInt64.size := by
      rwa [history_append_sweep, hhistory]
    rw [(rate_ne_zero_iff hempty hfew' m v).1,
      live_append_sweep_ne_nil_iff hempty (hforward'.2 hforward) hwindow, hhistory, hnow]
  have hnow : q.now = (p.run steps).1.now := now_run_append_sweep p steps
  refine ⟨?_, ?_, fun steps' h => (hlive h).trans (hlive rfl).symm⟩
  · rw [hnow]
    exact hlive rfl
  · exact (rate_ne_zero_iff hempty (by rwa [history_append_sweep]) m v).2

/-- The first sweep of the run comes so early that its window reaches back beyond the first instant,
and keeps the crash.  The one at the end drops it, and keeps the jank. -/
theorem rate_ne_zero_iff_recent_first_instant :
    let p : Pipeline :=
      { now := ⟨Instant.firstNanos, by decide, by decide⟩, window := .ofSeconds 60 }
    let early : List Step := [.record .crash "1.0" "a", .advance (.ofSeconds 30)]
    let steps := early ++ [.sweep, .record .jank "1.0" "b", .advance (.ofSeconds 31)]
    let q := (p.run (early ++ [.sweep])).1
    let q' := (p.run (steps ++ [.sweep])).1
    p.Forward steps ∧ (p.history steps).length < UInt64.size ∧ q.now.sub? p.window = none ∧
      q.counts.rate .crash "1.0" ≠ (0, 0) ∧
      ¬ q'.counts.rate .crash "1.0" ≠ (0, 0) ∧ q'.counts.rate .jank "1.0" ≠ (0, 0) := by
  intro p early steps q q'
  have hforward : p.Forward steps := by decide +kernel
  have hforward' : p.Forward early := by decide +kernel
  have hfew : (p.history steps).length < UInt64.size := by decide +kernel
  have hfew' : (p.history early).length < UInt64.size := by decide +kernel
  have hcrash := rate_ne_zero_iff_recent p rfl early hforward' hfew' (by decide) .crash "1.0"
  have hcrash' := rate_ne_zero_iff_recent p rfl steps hforward hfew (by decide) .crash "1.0"
  have hjank' := rate_ne_zero_iff_recent p rfl steps hforward hfew (by decide) .jank "1.0"
  refine ⟨hforward, hfew, by decide +kernel, hcrash.1.2 ?_, fun h => ?_, hjank'.1.2 ?_⟩
  · decide +kernel
  · exact absurd (hcrash'.1.1 h) (by decide +kernel)
  · decide +kernel

end Pipeline

end SpikeWatch
