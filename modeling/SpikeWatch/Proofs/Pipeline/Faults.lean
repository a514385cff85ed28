import SpikeWatch.Proofs.Pipeline.Batch

/-!
# Faults of the store

Events are counted and answered for before anybody tries to store them, and a failed insert is only
counted.  So whatever the store is, and whenever it fails, nothing of it can be seen but in the
store itself and in the number of failed inserts.

* `Pipeline.withStore` puts another store, and another number of failed inserts, in the place of
  those of a pipeline.  Each step gives the same answer before and after that, and takes the two
  pipelines to two that again differ in nothing else (`step_withStore`).
* `Step.withoutFaults` is a run without the steps that make the store fail, and
  `Pipeline.answers` are the answers to those that are left.
* `Pipeline.run_same_beside_faults` compares two runs of the same steps over different stores and
  faults.

Inserts by hand are the one step that gives the state of the store away, as they are answered with a
failure.  The run lemmas ask for runs without them.
-/

set_option autoImplicit false

namespace SpikeWatch

/-! ## Runs without faults -/

namespace Step

/-- The type whose table a step makes fail. -/
def fault? : Step → Option EventType
  | .failOn type => some type
  | _ => none

theorem fault?_eq_some_iff {s : Step} {type : EventType} :
    s.fault? = some type ↔ s = .failOn type := by
  cases s <;> simp [fault?]

/-- A run without the steps that make the store fail. -/
def withoutFaults (steps : List Step) : List Step := steps.filter (·.fault?.isNone)

/-- A step that is no fault stays in the run. -/
theorem withoutFaults_cons_of_fault?_eq_none {s : Step} (hs : s.fault? = none)
    (steps : List Step) : withoutFaults (s :: steps) = s :: withoutFaults steps := by
  rw [withoutFaults, List.filter_cons, hs]
  rfl

end Step

namespace Pipeline

/-- The answers to the steps of a run but those that make the store fail. -/
def answers (p : Pipeline) (steps : List Step) : List Outcome :=
  ((steps.zip (p.run steps).2).filter (·.1.fault?.isNone)).map Prod.snd

theorem answers_cons_of_fault?_eq_none (p : Pipeline) {s : Step} (hs : s.fault? = none)
    (steps : List Step) : p.answers (s :: steps) = (p.step s).2 :: (p.step s).1.answers steps := by
  simp [answers, run, hs]

theorem answers_cons_failOn (p : Pipeline) (type : EventType) (steps : List Step) :
    p.answers (.failOn type :: steps) = (p.step (.failOn type)).1.answers steps := by
  simp [answers, run, Step.fault?]

/-! ## Another store -/

/-- The pipeline with another store, and another number of failed inserts. -/
def withStore (p : Pipeline) (store : Store) (insertFailures : UInt64) : Pipeline :=
  { p with store, totals := { p.totals with insertFailures } }

/-- Alerts are handed over without a look at the store. -/
theorem foldl_deliver_withStore (p : Pipeline) (store : Store) (n : UInt64)
    (alerts : List Alert) :
    alerts.foldl deliver (p.withStore store n) = (alerts.foldl deliver p).withStore store n := by
  induction alerts generalizing p with
  | nil => rfl
  | cons a alerts ih => exact ih (p.deliver a)

/-- A pass is the same over any store. -/
theorem evaluate_withStore (p : Pipeline) (store : Store) (n : UInt64) :
    (p.withStore store n).evaluate = (p.evaluate.1.withStore store n, p.evaluate.2) :=
  Prod.ext (foldl_deliver_withStore { p with rules := rulesAfter p.rules p.counts p.now } store n
    (alertsOf p.rules p.counts p.now)) rfl

/-- A batch is answered for in the same way over any store, and leaves two pipelines that differ in
nothing else. -/
theorem dispatch_withStore (p : Pipeline) (store : Store) (n : UInt64) (raws : List Json.Value) :
    ∃ store' n', (p.withStore store n).dispatch raws =
      ((p.dispatch raws).1.withStore store' n', (p.dispatch raws).2) := by
  obtain ⟨_, _, h⟩ := p.dispatch_eq raws
  obtain ⟨store', n', h'⟩ := (p.withStore store n).dispatch_eq raws
  refine ⟨store', n', Prod.ext ?_ ?_⟩
  · rw [h, h', dispatch_response, dispatch_response]
    rfl
  · rw [dispatch_response, dispatch_response]
    rfl

variable {s : Step}

/-- Steps that make the store fail, and those that store something directly, are about the store.
All others do and answer the same with any store. -/
theorem step_withStore (p : Pipeline) (store : Store) (n : UInt64) (hfault : s.fault? = none)
    (hinsert : ∀ type events, s ≠ .insert type events) :
    ∃ store' n', (p.withStore store n).step s =
      ((p.step s).1.withStore store' n', (p.step s).2) := by
  cases s with
  | dispatch body =>
    simp only [step, dispatchText]
    cases Batch.eventsOfText body with
    | error failure => exact ⟨store, n, rfl⟩
    | ok raws =>
      obtain ⟨store', n', h⟩ := p.dispatch_withStore store n raws
      refine ⟨store', n', ?_⟩
      simp only [Except.map, h]
  | evaluate =>
    refine ⟨store, n, ?_⟩
    simp only [step, evaluate_withStore]
  | advance d =>
    refine ⟨store, n, ?_⟩
    simp only [step, advance?, withStore]
    cases p.now.add? d <;> rfl
  | failOn type => cases hfault
  | insert type events => exact absurd rfl (hinsert type events)
  | countInsertFailure => exact ⟨store, n + 1, rfl⟩
  | _ => exact ⟨store, n, rfl⟩

/-- **The same answers over any store**, and with faults or without. -/
theorem run_withStore (p : Pipeline) (store : Store) (n : UInt64) {steps : List Step}
    (hinsert : ∀ s ∈ steps, ∀ type events, s ≠ .insert type events) :
    (p.withStore store n).answers steps = (p.run (Step.withoutFaults steps)).2 ∧
      ∃ store' n', ((p.withStore store n).run steps).1 =
        (p.run (Step.withoutFaults steps)).1.withStore store' n' := by
  induction steps generalizing p store n with
  | nil => exact ⟨rfl, store, n, rfl⟩
  | cons s steps ih =>
    obtain ⟨hs, hrest⟩ := List.forall_mem_cons.1 hinsert
    cases hfault : s.fault? with
    | none =>
      obtain ⟨store', n', hstep⟩ := p.step_withStore store n hfault hs
      obtain ⟨hanswers, hrun⟩ := ih (p.step s).1 store' n' hrest
      rw [Step.withoutFaults_cons_of_fault?_eq_none hfault, run, run,
        answers_cons_of_fault?_eq_none _ hfault, hstep]
      exact ⟨congrArg _ hanswers, hrun⟩
    | some type =>
      obtain rfl := Step.fault?_eq_some_iff.1 hfault
      rw [answers_cons_failOn]
      exact ih p (store.failOn type) n hrest

/-! ## What is stored -/

/-- The events of a type that a step stores, apart from direct inserts. -/
def stored (type : EventType) (p : Pipeline) : Step → List Event
  | .dispatch body =>
    match Batch.eventsOfText body with
    | .ok raws =>
      if p.store.keeps type = true then (p.accepted raws).filter (·.type = type) else []
    | .error _ => []
  | _ => []

/-- What a step adds to a table. -/
theorem ofType_step (p : Pipeline) (hinsert : ∀ type events, s ≠ .insert type events)
    (t : EventType) :
    (p.step s).1.store.ofType t = p.store.ofType t ++ p.stored t s := by
  cases s with
  | dispatch body =>
    simp only [step, dispatchText, stored]
    cases Batch.eventsOfText body with
    | error failure => exact (List.append_nil _).symm
    | ok raws => exact p.ofType_dispatch raws t
  | evaluate =>
    obtain ⟨notifier, totals, h⟩ := p.evaluate_eq
    simp only [step, h]
    exact (List.append_nil _).symm
  | advance d =>
    simp only [step, advance?, stored]
    cases p.now.add? d <;> exact (List.append_nil _).symm
  | failOn type => exact (Store.ofType_failOn type p.store t).trans (List.append_nil _).symm
  | insert type events => exact absurd rfl (hinsert type events)
  | _ => exact (List.append_nil _).symm

/-- Only a fault makes a table fail. -/
theorem failing?_step (p : Pipeline) (s : Step) :
    (p.step s).1.store.failing? = p.store.failing?.map (s.fault?.toList ++ ·) := by
  -- All steps but a fault leave the failing tables alone.
  have hsame : p.store.failing? = p.store.failing?.map ([] ++ ·) := Option.map_id'.symm
  cases s with
  | dispatch body =>
    simp only [step, dispatchText]
    cases Batch.eventsOfText body with
    | error failure => exact hsame
    | ok raws => exact (p.failing?_dispatch raws).trans hsame
  | evaluate =>
    obtain ⟨notifier, totals, h⟩ := p.evaluate_eq
    simp only [step, h]
    exact hsame
  | advance d =>
    simp only [step, advance?]
    cases p.now.add? d <;> exact hsame
  | failOn type => exact Store.failing?_failOn type p.store
  | insert type events =>
    rw [step_insert]
    exact (p.store.failing?_insert type events).trans hsame
  | _ => exact hsame

/-- So a table goes on to keep events until there is a fault of its own. -/
theorem keeps_step (p : Pipeline) (s : Step) (t : EventType) :
    (p.step s).1.store.keeps t = (p.store.keeps t && decide (s.fault? ≠ some t)) := by
  rw [Store.keeps_eq, Store.keeps_eq, failing?_step]
  cases p.store.failing? with
  | none => rfl
  | some failing =>
    cases s.fault? with
    | none => simp
    | some type => by_cases ht : t = type <;> simp [ht, eq_comm]

theorem stored_withStore (p : Pipeline) {store : Store} (n : UInt64) {t : EventType}
    (hkeeps : store.keeps t = p.store.keeps t) (s : Step) :
    (p.withStore store n).stored t s = p.stored t s := by
  cases s with
  | dispatch body =>
    simp only [stored]
    cases Batch.eventsOfText body with
    | error failure => rfl
    | ok raws =>
      change (if store.keeps t = true then _ else _) = _
      rw [hkeeps]
      rfl
  | _ => rfl

/-- A type whose table no step makes fail is stored as if there were no faults at all. -/
theorem ofType_run_withStore (p : Pipeline) {store : Store} (n : UInt64) {t : EventType}
    (hkeeps : store.keeps t = p.store.keeps t) (hof : store.ofType t = p.store.ofType t)
    {steps : List Step} (hinsert : ∀ s ∈ steps, ∀ type events, s ≠ .insert type events)
    (hfine : ∀ s ∈ steps, s.fault? ≠ some t) :
    ((p.withStore store n).run steps).1.store.ofType t =
      (p.run (Step.withoutFaults steps)).1.store.ofType t := by
  induction steps generalizing p store n with
  | nil => exact hof
  | cons s steps ih =>
    obtain ⟨hs, hinsert'⟩ := List.forall_mem_cons.1 hinsert
    obtain ⟨hst, hfine'⟩ := List.forall_mem_cons.1 hfine
    cases hfault : s.fault? with
    | none =>
      obtain ⟨store', n', hstep⟩ := p.step_withStore store n hfault hs
      have hstore : ((p.withStore store n).step s).1.store = store' := by rw [hstep]; rfl
      -- The table of this type keeps events in both runs or in neither, and holds the same.
      have hkeeps' : store'.keeps t = (p.step s).1.store.keeps t := by
        rw [← hstore, keeps_step, keeps_step]
        exact congrArg (· && _) hkeeps
      have hof' : store'.ofType t = (p.step s).1.store.ofType t := by
        rw [← hstore, ofType_step _ hs, ofType_step _ hs, stored_withStore p n hkeeps]
        exact congrArg (· ++ _) hof
      rw [Step.withoutFaults_cons_of_fault?_eq_none hfault, run, run, hstep]
      exact ih (p.step s).1 n' hkeeps' hof' hinsert' hfine'
    | some type =>
      obtain rfl := Step.fault?_eq_some_iff.1 hfault
      have hne : type ≠ t := fun h => hst (by rw [h]; rfl)
      have hkeeps' : (store.failOn type).keeps t = p.store.keeps t := by
        simp [Store.keeps_failOn, hne, hkeeps]
      exact ih p n hkeeps' ((Store.ofType_failOn type store t).trans hof) hinsert' hfine'

/-! ## Two runs -/

/-- **Nothing of the store shows outside of it.**  Two runs of the same steps may begin with
different stores, and the stores may be made to fail at different times and for different types: all
answers are the same, and in the end the pipelines differ in their stores and in the numbers of
failed inserts at most.  If they begin with the same store, the tables that neither run makes fail
are the same in the end. -/
theorem run_same_beside_faults (p : Pipeline) (store : Store) {steps steps' : List Step}
    (hsame : Step.withoutFaults steps = Step.withoutFaults steps')
    (hinsert : ∀ type events, .insert type events ∉ steps) :
    let q : Pipeline := { p with store }
    p.answers steps = q.answers steps' ∧
    (∃ store' insertFailures,
      (q.run steps').1 = (p.run steps).1.withStore store' insertFailures) ∧
    ∀ type, .failOn type ∉ steps → .failOn type ∉ steps' →
      (p.run steps).1.store.ofType type = (p.run steps').1.store.ofType type := by
  intro q
  have hsteps : ∀ s ∈ steps, ∀ type events, s ≠ .insert type events := by
    rintro s hs type events rfl
    exact hinsert type events hs
  have hsteps' : ∀ s ∈ steps', ∀ type events, s ≠ .insert type events := by
    rintro s hs type events rfl
    have hkept : .insert type events ∈ Step.withoutFaults steps' := List.mem_filter.2 ⟨hs, rfl⟩
    rw [← hsame] at hkept
    exact hinsert type events (List.mem_filter.1 hkept).1
  -- both runs are held against the one without faults
  refine ⟨?_, ?_, fun type hfine hfine' => ?_⟩
  · have hanswers := (p.run_withStore p.store p.totals.insertFailures hsteps).1
    have hanswers' := (p.run_withStore store p.totals.insertFailures hsteps').1
    rw [← hsame] at hanswers'
    exact hanswers.trans hanswers'.symm
  · obtain ⟨-, _, _, hp⟩ := p.run_withStore p.store p.totals.insertFailures hsteps
    obtain ⟨-, store', n', hq⟩ := p.run_withStore store p.totals.insertFailures hsteps'
    refine ⟨store', n', ?_⟩
    rw [← hsame] at hq
    rw [show (p.run steps).1 = _ from hp]
    exact hq
  · have hnone {steps : List Step} (h : .failOn type ∉ steps) :
        ∀ s ∈ steps, s.fault? ≠ some type := fun s hs hfault =>
      h (Step.fault?_eq_some_iff.1 hfault ▸ hs)
    have hstored := p.ofType_run_withStore p.totals.insertFailures rfl rfl hsteps (hnone hfine)
    have hstored' := p.ofType_run_withStore p.totals.insertFailures rfl rfl hsteps' (hnone hfine')
    rw [← hsame] at hstored'
    exact hstored.trans hstored'.symm

/-- Exceptions cannot be stored in the first run from the second batch on, and janks cannot be
stored in the second run at all; still the alert about the jank is raised.  A third run is over the
log. -/
theorem run_same_beside_faults_jank :
    let batch (type : String) : Step :=
      let event := Json.writeObject <| [("type", type), ("app_version", "1"), ("platform", "iOS"),
        ("device_id", "d"), ("session_id", "s"), ("fingerprint", "f")].map fun (name, text) =>
          (name, Json.writeText text)
      .dispatch (String.ofList (Json.writeObject [("events", Json.writeList [event])]))
    let rule : Rule :=
      { id := "r", name := "R", metric := .jank, version := "1", threshold := .ofNat 1 }
    let p : Pipeline := { now := { nanos := 1700000000000000000 }, rules := [rule] }
    let steps := [batch "crash", .failOn .exception, batch "jank", .evaluate]
    let steps' := [.failOn .jank, batch "crash", batch "jank", .evaluate]
    let q : Pipeline := { p with store := .log }
    Step.withoutFaults steps = Step.withoutFaults steps' ∧
      (∀ type events, .insert type events ∉ steps) ∧
      p.answers steps = q.answers steps' ∧
      (p.run steps).1.store.ofType .crash = (p.run steps').1.store.ofType .crash ∧
      (p.run steps').1.notifier.sent.map Alert.rule = [rule] := by
  intro batch rule p steps steps' q
  have hsame : Step.withoutFaults steps = Step.withoutFaults steps' := rfl
  have hinsert : ∀ type events, .insert type events ∉ steps := by
    intro type events
    simp [steps, batch]
  obtain ⟨hanswers, -, hstored⟩ := run_same_beside_faults p .log hsame hinsert
  have hcrashes := hstored .crash (by simp [steps, batch]) (by simp [steps', batch])
  exact ⟨hsame, hinsert, hanswers, hcrashes, by decide +kernel⟩

end Pipeline

end SpikeWatch
