import SpikeWatch.Pipeline.Step
import SpikeWatch.Proofs.Window.Occurrence

/-!
# What a step does to a pipeline

Everything that is shown about runs rests on what one step can do, and this file says it once.

* `Pipeline.dispatch_eq_loop` is what a batch does without its short cuts: empty batches, types
  without events and the sizes of collections need no care of their own.
* `Pipeline.occurrences` are what a step counts live: the occurrence that was recorded, or what the
  accepted events of a batch add to their metrics.
* `Pipeline.step_eq` is the whole effect of a step.  The present, the live counts and the rules
  after it are the functions `clockAfter`, `countsAfter` and `ruleListAfter` of what was there
  before; the store, the totals and the notifier may be anything; and all else stays.
* Beside it stand the same facts by field: `step_counts`, `step_rules` and `step_window`.
-/

set_option autoImplicit false

namespace SpikeWatch

/-! ## Storing and delivering

Neither reaches the live counts, the rules or the present. -/

namespace Pipeline

/-- To pass over a type without events is to store none of them. -/
theorem storeType_eq (accepted : EventsByType) (p : Pipeline) (type : EventType) :
    let inserted := p.store.insert type (accepted.get type)
    p.storeType accepted type = { p with
      store := inserted.1
      totals := { p.totals with
        insertFailures := p.totals.insertFailures + if inserted.2.toBool then 0 else 1 } } := by
  intro inserted
  by_cases hnone : accepted.get type = []
  · have hinserted : inserted = (p.store, .ok ()) := by
      rw [show inserted = _ from congrArg (p.store.insert type) hnone, Store.insert_nil]
    simp [storeType, hnone, hinserted, Except.toBool]
  · rcases hresult : p.store.insert type (accepted.get type) with ⟨store, answer⟩
    have hinserted : inserted = (store, answer) := hresult
    rw [storeType, if_neg (by simpa using hnone), hresult, hinserted]
    cases answer with
    | ok done => simp [Except.toBool]
    | error e => rfl

/-- Storing events changes the store and the number of failed inserts, and nothing else. -/
theorem storeEvents_eq (p : Pipeline) (accepted : EventsByType) :
    ∃ store insertFailures, p.storeEvents accepted =
      { p with store, totals := { p.totals with insertFailures } } := by
  rw [storeEvents]
  induction EventType.all generalizing p with
  | nil => exact ⟨p.store, p.totals.insertFailures, rfl⟩
  | cons type types ih =>
    rw [List.foldl_cons]
    obtain ⟨store, insertFailures, h⟩ := ih (p.storeType accepted type)
    rw [h, storeType_eq]
    exact ⟨_, _, rfl⟩

/-- Handing over alerts changes the notifier and the totals. -/
theorem foldl_deliver_eq (p : Pipeline) (alerts : List Alert) :
    ∃ notifier totals, alerts.foldl deliver p = { p with notifier, totals } := by
  induction alerts generalizing p with
  | nil => exact ⟨p.notifier, p.totals, rfl⟩
  | cons a alerts ih =>
    obtain ⟨notifier, totals, h⟩ := ih (p.deliver a)
    exact ⟨notifier, totals, h⟩

/-- The events of a batch that are accepted, in their order. -/
def accepted (p : Pipeline) (raws : List Json.Value) : List Event :=
  (sortBatch p.limits p.now 0 raws).1

/-- **The batch without events is no exception.**  It is what judging, counting and storing come to
when there is nothing to judge.  And the accepted events are as many in their collections as they
were before they were sorted. -/
theorem dispatch_eq_loop (p : Pipeline) (raws : List Json.Value) :
    let accepted := p.accepted raws
    let errors := (sortBatch p.limits p.now 0 raws).2
    let counts := if p.realtime then p.counts.recordEvents p.now (.ofList accepted) else p.counts
    let stored := storeEvents { p with counts } (.ofList accepted)
    p.dispatch raws =
      ({ stored with
          totals := stored.totals.addBatch (.ofNat accepted.length) (.ofNat errors.length) },
        ⟨accepted.length, errors.length, errors⟩) := by
  cases raws with
  | nil =>
    have hcounts : p.counts =
        if p.realtime then p.counts.recordEvents p.now (.ofList []) else p.counts := by
      cases p.realtime <;> rfl
    exact congrArg (fun counts => (({ p with counts, totals := p.totals.addBatch 0 0 } : Pipeline),
      (⟨0, 0, []⟩ : Response))) hcounts
  | cons raw raws =>
    intro accepted errors counts stored
    rw [← EventsByType.len_ofList accepted]
    rfl

/-- A batch changes the counts, the totals and the store, and nothing else. -/
theorem dispatch_eq (p : Pipeline) (raws : List Json.Value) :
    ∃ store insertFailures, (p.dispatch raws).1 = { p with
      counts :=
        if p.realtime then p.counts.recordEvents p.now (.ofList (p.accepted raws)) else p.counts
      store
      totals := { p.totals with
        batches := p.totals.batches + 1
        accepted := p.totals.accepted + .ofNat (p.dispatch raws).2.accepted
        rejected := p.totals.rejected + .ofNat (p.dispatch raws).2.rejected
        insertFailures } } := by
  obtain ⟨store, insertFailures, h⟩ := storeEvents_eq { p with
    counts :=
      if p.realtime then p.counts.recordEvents p.now (.ofList (p.accepted raws)) else p.counts }
    (.ofList (p.accepted raws))
  rw [dispatch_eq_loop]
  dsimp only
  rw [h]
  exact ⟨_, _, rfl⟩

/-- A direct insert reaches the store alone. -/
theorem step_insert (p : Pipeline) (type : EventType) (events : List Event) :
    let inserted := p.store.insert type events
    p.step (.insert type events) = ({ p with store := inserted.1 },
      match inserted.2 with
      | .ok () => .done
      | .error e => .notStored e) := by
  rw [step]
  obtain ⟨store, answer⟩ := p.store.insert type events
  cases answer <;> rfl

/-- A pass changes the rules, the notifier and the totals, and nothing else. -/
theorem evaluate_eq (p : Pipeline) :
    ∃ notifier totals, p.evaluate.1 =
      { p with rules := rulesAfter p.rules p.counts p.now, notifier, totals } := by
  obtain ⟨notifier, totals, h⟩ := foldl_deliver_eq
    { p with rules := rulesAfter p.rules p.counts p.now } (alertsOf p.rules p.counts p.now)
  exact ⟨notifier, totals, h⟩

end Pipeline

/-! ## Occurrences -/

namespace Pipeline

/-- What a step counts live, in its order. -/
def occurrences (p : Pipeline) : Step → List Occurrence
  | .dispatch body =>
    match Batch.eventsOfText body with
    | .ok raws =>
      if p.realtime then (p.accepted raws).filterMap (Event.occurrence? p.now) else []
    | .error _ => []
  | .record metric version session => [⟨p.now, metric, version, session⟩]
  | _ => []

/-- What is counted was recorded, or an accepted event reported it. -/
theorem eq_of_mem_occurrences {p : Pipeline} {s : Step} {o : Occurrence}
    (h : o ∈ p.occurrences s) :
    (∃ m v session, s = .record m v session ∧ o = ⟨p.now, m, v, session⟩) ∨
      ∃ raws, ∃ e ∈ p.accepted raws, ∃ m, o = e.occurrence p.now m := by
  rw [occurrences.eq_def] at h
  split at h
  · split at h
    · next raws _ =>
      split at h
      · obtain ⟨e, he, hof⟩ := List.mem_filterMap.1 h
        obtain ⟨m, -, rfl⟩ := Option.map_eq_some_iff.1 hof
        exact .inr ⟨raws, e, he, m, rfl⟩
      · cases h
    · cases h
  · exact .inl ⟨_, _, _, rfl, List.mem_singleton.1 h⟩
  · cases h

/-- What is counted is counted at the present. -/
theorem time_of_mem_occurrences {p : Pipeline} {s : Step} {o : Occurrence}
    (h : o ∈ p.occurrences s) : o.time = p.now := by
  obtain ⟨m, v, session, -, rfl⟩ | ⟨raws, e, -, m, rfl⟩ := eq_of_mem_occurrences h <;> rfl

/-! ## The effect of a step -/

/-- The present after a step. -/
def clockAfter (p : Pipeline) : Step → Instant
  | .advance d => (p.now.add? d).getD p.now
  | .setClock now => now
  | _ => p.now

/-- The live counts after a step. -/
def countsAfter (p : Pipeline) : Step → Counts
  | .sweep => (p.counts.sweep p.window p.now).1
  | s => (p.occurrences s).foldl Counts.add p.counts

/-- The rules after a step. -/
def ruleListAfter (p : Pipeline) : Step → List Rule
  | .evaluate => rulesAfter p.rules p.counts p.now
  | .addRule rule => p.rules ++ [rule]
  | _ => p.rules

/-- **The effect of a step.** -/
theorem step_eq (p : Pipeline) (s : Step) :
    ∃ store totals notifier, (p.step s).1 = { p with
      now := p.clockAfter s
      counts := p.countsAfter s
      rules := p.ruleListAfter s
      store, totals, notifier } := by
  -- Most steps are fields of the pipeline that are set; those that go further have a lemma of their
  -- own.
  cases s with
  | dispatch body =>
    simp only [step, dispatchText, countsAfter, occurrences]
    cases Batch.eventsOfText body with
    | error failure => exact ⟨_, _, _, rfl⟩
    | ok raws =>
      obtain ⟨store, insertFailures, h⟩ := p.dispatch_eq raws
      refine ⟨store, (p.dispatch raws).1.totals, p.notifier, ?_⟩
      simp only [Except.map]
      rw [h, Counts.recordEvents_ofList]
      cases p.realtime <;> rfl
  | evaluate =>
    obtain ⟨notifier, totals, h⟩ := p.evaluate_eq
    exact ⟨p.store, totals, notifier, h⟩
  | advance d =>
    simp only [step, advance?, clockAfter]
    cases p.now.add? d <;> exact ⟨_, _, _, rfl⟩
  | insert type events => exact ⟨_, _, _, congrArg Prod.fst (p.step_insert type events)⟩
  | _ => exact ⟨_, _, _, rfl⟩

/-- What a step does to the counts. -/
theorem step_counts (p : Pipeline) (s : Step) : (p.step s).1.counts = p.countsAfter s := by
  obtain ⟨store, totals, notifier, h⟩ := p.step_eq s
  rw [h]

/-- What a step does to the rules. -/
theorem step_rules (p : Pipeline) (s : Step) : (p.step s).1.rules = p.ruleListAfter s := by
  obtain ⟨store, totals, notifier, h⟩ := p.step_eq s
  rw [h]

@[simp]
theorem step_window (p : Pipeline) (s : Step) : (p.step s).1.window = p.window := by
  obtain ⟨store, totals, notifier, h⟩ := p.step_eq s
  rw [h]

theorem countsAfter_of_ne_sweep {p : Pipeline} {s : Step} (h : s ≠ .sweep) :
    p.countsAfter s = (p.occurrences s).foldl Counts.add p.counts := by
  cases s <;> first | rfl | exact absurd rfl h

end Pipeline

end SpikeWatch
