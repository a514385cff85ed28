import SpikeWatch.Proofs.Pipeline.Effect

/-!
# Deliveries

Alerts are handed over one after the other, each of them once, and nobody waits for better news: a
rule rests after it has fired, whether its alert was delivered or not.  So what the notifier answers
can be seen in one counter, and nowhere else.

* `Notifier.deliveries` is what comes of handing over a list of alerts, and `Pipeline.foldl_deliver`
  all that it does to a pipeline.  `Pipeline.deliveries` is what comes of the alerts of a run.
* `Pipeline.withAnswers` makes the notifier of a pipeline answer in another way, and puts another
  number in the place of the failed deliveries.  Each step gives the same answer before and after
  that, and takes the two pipelines to two that again differ in nothing else (`step_withAnswers`).
* `Pipeline.run_same_beside_deliveries` compares two runs of the same steps with notifiers that
  answer at will.
-/

set_option autoImplicit false

namespace SpikeWatch

/-! ## Handing over alerts -/

/-- The alerts that a step raises. -/
def Outcome.alerts : Outcome → List Alert
  | .fired alerts => alerts
  | _ => []

/-- The number of deliveries that failed. -/
def undelivered (deliveries : List Delivery) : Nat := deliveries.countP fun d => !d.toBool

/-- Undelivered alerts add up. -/
theorem undelivered_append (deliveries more : List Delivery) :
    undelivered (deliveries ++ more) = undelivered deliveries + undelivered more :=
  List.countP_append

theorem Totals.addAlert_eq (t : Totals) (delivery : Delivery) :
    t.addAlert delivery.toBool = { t with
      alertsFired := t.alertsFired + 1
      notificationFailures := t.notificationFailures + .ofNat (undelivered [delivery]) } := by
  rw [addAlert]
  cases delivery with
  | ok u => simp [undelivered, Except.toBool]
  | error e => rfl

/-- What comes of handing over alerts one after the other. -/
def Notifier.deliveries (n : Notifier) : List Alert → List Delivery
  | [] => []
  | a :: alerts => (n.send a).2 :: (n.send a).1.deliveries alerts

namespace Pipeline

/-- **Handing over alerts** adds them to those that were sent, and counts them and the failures
among them. -/
theorem foldl_deliver (p : Pipeline) (alerts : List Alert) :
    alerts.foldl deliver p = { p with
      notifier := { p.notifier with sent := p.notifier.sent ++ alerts }
      totals := { p.totals with
        alertsFired := p.totals.alertsFired + .ofNat alerts.length
        notificationFailures := p.totals.notificationFailures +
          .ofNat (undelivered (p.notifier.deliveries alerts)) } } := by
  induction alerts generalizing p with
  | nil => simp [undelivered, Notifier.deliveries]
  | cons a alerts ih =>
    have hlength : (a :: alerts).length = 1 + alerts.length := Nat.add_comm ..
    have hfailures : undelivered (p.notifier.deliveries (a :: alerts)) =
        undelivered [(p.notifier.send a).2] +
          undelivered ((p.notifier.send a).1.deliveries alerts) :=
      undelivered_append [(p.notifier.send a).2] _
    rw [List.foldl_cons, ih, hlength, hfailures]
    simp only [deliver, Totals.addAlert_eq, Notifier.send, List.append_assoc,
      List.singleton_append, UInt64.ofNat_add, UInt64.add_assoc]
    rfl

/-! ## Alerts of steps and runs -/

/-- Only a pass raises alerts. -/
theorem alerts_step_of_ne (p : Pipeline) {s : Step} (hs : s ≠ .evaluate) :
    (p.step s).2.alerts = [] := by
  cases s with
  | evaluate => exact absurd rfl hs
  | dispatch body =>
    simp only [step]
    split <;> rfl
  | advance d =>
    simp only [step]
    split <;> rfl
  | insert type events =>
    simp only [step]
    split <;> rfl
  | _ => rfl

/-- What comes of the alerts of a run, in their order. -/
def deliveries (p : Pipeline) : List Step → List Delivery
  | [] => []
  | s :: steps => p.notifier.deliveries (p.step s).2.alerts ++ (p.step s).1.deliveries steps

/-- Between two states of a pipeline some alerts were handed over, and no others were counted. -/
structure Delivers (p q : Pipeline) (alerts : List Alert) : Prop where
  sent : q.notifier.sent = p.notifier.sent ++ alerts
  alertsFired : q.totals.alertsFired = p.totals.alertsFired + .ofNat alerts.length
  notificationFailures : q.totals.notificationFailures = p.totals.notificationFailures +
    .ofNat (undelivered (p.notifier.deliveries alerts))

variable {p q : Pipeline} {s : Step} {steps : List Step}

/-- Without an alert, nothing is handed over. -/
theorem delivers_nil (hsent : q.notifier.sent = p.notifier.sent)
    (hfired : q.totals.alertsFired = p.totals.alertsFired)
    (hfailures : q.totals.notificationFailures = p.totals.notificationFailures) :
    p.Delivers q [] where
  sent := by rw [hsent, List.append_nil]
  alertsFired := hfired.trans (UInt64.add_zero _).symm
  notificationFailures := hfailures.trans (UInt64.add_zero _).symm

/-- A step hands over the alerts that it raises.  Only an alert that no rule raised can be counted
without that. -/
theorem delivers_step (p : Pipeline) (hs : ∀ delivered, s ≠ .countAlert delivered) :
    p.Delivers (p.step s).1 (p.step s).2.alerts := by
  cases s with
  | dispatch body =>
    simp only [step, dispatchText]
    cases Batch.eventsOfText body with
    | error failure => exact delivers_nil rfl rfl rfl
    | ok raws =>
      obtain ⟨store, insertFailures, h⟩ := p.dispatch_eq raws
      simp only [Except.map, h]
      exact delivers_nil rfl rfl rfl
  | evaluate =>
    simp only [step, evaluate, foldl_deliver]
    exact ⟨rfl, rfl, rfl⟩
  | advance d =>
    simp only [step, advance?]
    cases p.now.add? d <;> exact delivers_nil rfl rfl rfl
  | insert type events =>
    rw [step_insert]
    dsimp only
    cases (p.store.insert type events).2 <;> exact delivers_nil rfl rfl rfl
  | countAlert delivered => exact absurd rfl (hs delivered)
  | _ => exact delivers_nil rfl rfl rfl

/-- **Each alert is handed over once, when it is raised**, and counted once, and so is each
failure. -/
theorem delivers_run (p : Pipeline)
    (hsteps : ∀ s ∈ steps, ∀ delivered, s ≠ .countAlert delivered) :
    let alerts := (p.run steps).2.flatMap Outcome.alerts
    (p.run steps).1.notifier.sent = p.notifier.sent ++ alerts ∧
      (p.run steps).1.totals.alertsFired = p.totals.alertsFired + .ofNat alerts.length ∧
      (p.run steps).1.totals.notificationFailures =
        p.totals.notificationFailures + .ofNat (undelivered (p.deliveries steps)) := by
  induction steps generalizing p with
  | nil => exact ⟨(List.append_nil _).symm, (UInt64.add_zero _).symm, (UInt64.add_zero _).symm⟩
  | cons s steps ih =>
    obtain ⟨hs, hsteps⟩ := List.forall_mem_cons.1 hsteps
    have hstep := p.delivers_step hs
    obtain ⟨hsent, hfired, hfailures⟩ := ih (p.step s).1 hsteps
    simp only [run, List.flatMap_cons]
    refine ⟨?_, ?_, ?_⟩
    · rw [hsent, hstep.sent, List.append_assoc]
    · rw [hfired, hstep.alertsFired, List.length_append, UInt64.ofNat_add, UInt64.add_assoc]
    · rw [hfailures, hstep.notificationFailures, deliveries, undelivered_append, UInt64.ofNat_add,
        UInt64.add_assoc]

end Pipeline

/-! ## Another notifier -/

namespace Step

/-- What a step makes the notifier answer from then on. -/
def answer? : Step → Option Delivery
  | .answerWith answer => some answer
  | _ => none

theorem answer?_eq_some_iff {s : Step} {answer : Delivery} :
    s.answer? = some answer ↔ s = .answerWith answer := by
  cases s <;> simp [answer?]

/-- A run without the steps that change how the notifier answers. -/
def withoutAnswers (steps : List Step) : List Step := steps.filter (·.answer?.isNone)

/-- A step that sets no answer stays in the run. -/
theorem withoutAnswers_cons_of_answer?_eq_none {s : Step} (hs : s.answer? = none)
    (steps : List Step) : withoutAnswers (s :: steps) = s :: withoutAnswers steps := by
  rw [withoutAnswers, List.filter_cons, hs]
  rfl

end Step

namespace Pipeline

/-- What the steps of a run answer, but those that change how the notifier answers. -/
def outcomes (p : Pipeline) (steps : List Step) : List Outcome :=
  ((steps.zip (p.run steps).2).filter (·.1.answer?.isNone)).map Prod.snd

theorem outcomes_cons_of_answer?_eq_none (p : Pipeline) {s : Step} (hs : s.answer? = none)
    (steps : List Step) :
    p.outcomes (s :: steps) = (p.step s).2 :: (p.step s).1.outcomes steps := by
  simp [outcomes, run, hs]

theorem outcomes_cons_answerWith (p : Pipeline) (answer : Delivery) (steps : List Step) :
    p.outcomes (.answerWith answer :: steps) = (p.step (.answerWith answer)).1.outcomes steps := by
  simp [outcomes, run, Step.answer?]

/-- The pipeline with a notifier that answers in another way, and another number of failed
deliveries. -/
def withAnswers (p : Pipeline) (answers : Nat → Delivery) (failures : UInt64) : Pipeline :=
  { p with
    notifier := { p.notifier with answers }
    totals := { p.totals with notificationFailures := failures } }

variable (answers : Nat → Delivery) (n : UInt64)

theorem storeType_withAnswers (p : Pipeline) (accepted : EventsByType) (type : EventType) :
    (p.withAnswers answers n).storeType accepted type =
      (p.storeType accepted type).withAnswers answers n := by
  rw [storeType_eq, storeType_eq]
  rfl

theorem storeEvents_withAnswers (p : Pipeline) (accepted : EventsByType) :
    (p.withAnswers answers n).storeEvents accepted =
      (p.storeEvents accepted).withAnswers answers n :=
  List.foldl_hom (fun p : Pipeline => p.withAnswers answers n) fun p type =>
    p.storeType_withAnswers answers n accepted type

/-- A batch does not ask the notifier anything. -/
theorem dispatch_withAnswers (p : Pipeline) (raws : List Json.Value) :
    (p.withAnswers answers n).dispatch raws =
      ((p.dispatch raws).1.withAnswers answers n, (p.dispatch raws).2) := by
  have hstored (counts : Counts) (accepted : EventsByType) :
      storeEvents { p.withAnswers answers n with counts } accepted =
        (storeEvents { p with counts } accepted).withAnswers answers n :=
    storeEvents_withAnswers answers n { p with counts } accepted
  rw [dispatch_eq_loop, dispatch_eq_loop]
  simp only [hstored]
  rfl

/-- A pass raises the same alerts whatever the notifier answers. -/
theorem evaluate_withAnswers (p : Pipeline) : ∃ n', (p.withAnswers answers n).evaluate =
    (p.evaluate.1.withAnswers answers n', p.evaluate.2) := by
  refine ⟨n + .ofNat (undelivered ((p.withAnswers answers n).notifier.deliveries p.evaluate.2)),
    Prod.ext ?_ rfl⟩
  simp only [evaluate, foldl_deliver]
  rfl

/-- Apart from the steps that are about the answers of the notifier, all steps do and answer the
same with any notifier. -/
theorem step_withAnswers (p : Pipeline) {s : Step} (hs : s.answer? = none) :
    ∃ n', (p.withAnswers answers n).step s =
      ((p.step s).1.withAnswers answers n', (p.step s).2) := by
  cases s with
  | dispatch body =>
    refine ⟨n, ?_⟩
    simp only [step, dispatchText]
    cases Batch.eventsOfText body with
    | error failure => rfl
    | ok raws => simp only [Except.map, dispatch_withAnswers]
  | evaluate =>
    obtain ⟨n', h⟩ := p.evaluate_withAnswers answers n
    refine ⟨n', ?_⟩
    simp only [step, h]
  | advance d =>
    refine ⟨n, ?_⟩
    simp only [step, advance?, withAnswers]
    cases p.now.add? d <;> rfl
  | insert type events =>
    refine ⟨n, ?_⟩
    rw [step_insert, step_insert]
    rfl
  | answerWith answer => cases hs
  | countAlert delivered => exact ⟨if delivered then n else n + 1, rfl⟩
  | _ => exact ⟨n, rfl⟩

/-- **The same outcomes whatever the notifier answers.** -/
theorem run_withAnswers (p : Pipeline) (steps : List Step) :
    (p.withAnswers answers n).outcomes steps = (p.run (Step.withoutAnswers steps)).2 ∧
      ∃ answers' n', ((p.withAnswers answers n).run steps).1 =
        (p.run (Step.withoutAnswers steps)).1.withAnswers answers' n' := by
  induction steps generalizing p answers n with
  | nil => exact ⟨rfl, answers, n, rfl⟩
  | cons s steps ih =>
    cases hs : s.answer? with
    | none =>
      obtain ⟨n', hstep⟩ := p.step_withAnswers answers n hs
      obtain ⟨houtcomes, hrun⟩ := ih answers n' (p.step s).1
      rw [Step.withoutAnswers_cons_of_answer?_eq_none hs, run, run,
        outcomes_cons_of_answer?_eq_none _ hs, hstep]
      exact ⟨congrArg _ houtcomes, hrun⟩
    | some answer =>
      obtain rfl := Step.answer?_eq_some_iff.1 hs
      rw [outcomes_cons_answerWith]
      exact ih (fun _ => answer) n p

/-! ## Two runs -/

/-- **What comes of an alert changes nothing but one counter.**  In two runs of the same steps the
notifiers may answer as they please, and may be made to answer in another way at different times:
all other steps answer the same, and in the end the pipelines differ in the answers of their
notifiers and in the numbers of failed deliveries at most.  Each alert that is raised is sent once,
in the order in which they are raised, and each delivery that fails adds one to that number. -/
theorem run_same_beside_deliveries (p : Pipeline) (answers : Nat → Delivery)
    {steps steps' : List Step} (hsame : Step.withoutAnswers steps = Step.withoutAnswers steps')
    (hcounted : ∀ delivered, .countAlert delivered ∉ steps) :
    let q : Pipeline := { p with notifier := { p.notifier with answers } }
    p.outcomes steps = q.outcomes steps' ∧
    (∃ answers' failures, (q.run steps').1 = (p.run steps).1.withAnswers answers' failures) ∧
    (p.run steps).1.notifier.sent =
      p.notifier.sent ++ (p.run steps).2.flatMap Outcome.alerts ∧
    (p.run steps).1.totals.notificationFailures =
      p.totals.notificationFailures + .ofNat (undelivered (p.deliveries steps)) := by
  intro q
  have hsteps : ∀ s ∈ steps, ∀ delivered, s ≠ .countAlert delivered := by
    rintro s hs delivered rfl
    exact hcounted delivered hs
  -- both runs are held against the one in which nobody changes how the notifier answers
  obtain ⟨hp, _, _, hpRun⟩ :=
    p.run_withAnswers p.notifier.answers p.totals.notificationFailures steps
  obtain ⟨hq, answers', n', hqRun⟩ := p.run_withAnswers answers p.totals.notificationFailures steps'
  obtain ⟨hsent, -, hfailures⟩ := p.delivers_run hsteps
  rw [← hsame] at hq hqRun
  refine ⟨hp.trans hq.symm, ⟨answers', n', ?_⟩, hsent, hfailures⟩
  rw [show (p.run steps).1 = _ from hpRun]
  exact hqRun

/-- The same crash sets off a rule twice.  In the first run both alerts arrive; in the second one
the receiver is not there, and then answers with a status of failure. -/
theorem run_same_beside_deliveries_unreachable :
    let rule : Rule := { id := "r", name := "R", metric := .crash, threshold := .ofNat 1 }
    let p : Pipeline := { now := .epoch, rules := [rule] }
    let refused : Delivery := .error (.refused "unreachable")
    let steps : List Step :=
      [.record .crash "" "a", .evaluate, .advance (.ofMinutes 5), .evaluate, .evaluate]
    let steps' : List Step :=
      [.record .crash "" "a", .evaluate, .answerWith (.error (.status 503)),
        .advance (.ofMinutes 5), .evaluate, .evaluate]
    let q : Pipeline := { p with notifier := { p.notifier with answers := fun _ => refused } }
    Step.withoutAnswers steps = Step.withoutAnswers steps' ∧
      (∀ delivered, .countAlert delivered ∉ steps) ∧
      (∀ delivered, .countAlert delivered ∉ steps') ∧
      p.outcomes steps = q.outcomes steps' ∧
      (p.run steps).1.totals.notificationFailures = 0 ∧
      (q.run steps').1.totals.notificationFailures = 2 ∧
      (q.run steps').1.notifier.sent.map (fun a => a.timestamp.seconds) = [0, 300] := by
  intro rule p refused steps steps' q
  have hsame : Step.withoutAnswers steps = Step.withoutAnswers steps' := rfl
  have hcounted : ∀ delivered, .countAlert delivered ∉ steps := by simp [steps]
  have hcounted' : ∀ delivered, .countAlert delivered ∉ steps' := by simp [steps']
  obtain ⟨houtcomes, -, -, hnone⟩ :=
    run_same_beside_deliveries p (fun _ => refused) hsame hcounted
  obtain ⟨-, -, hsent, hboth⟩ :=
    run_same_beside_deliveries q p.notifier.answers hsame.symm hcounted'
  refine ⟨hsame, hcounted, hcounted', houtcomes, hnone.trans ?_, hboth.trans ?_, ?_⟩
  · decide +kernel
  · decide +kernel
  · rw [hsent]
    decide +kernel

end Pipeline

end SpikeWatch
