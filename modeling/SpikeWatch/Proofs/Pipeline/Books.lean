import SpikeWatch.Proofs.Alert.Delivery
import SpikeWatch.Proofs.Pipeline.Faults
import Mathlib

/-!
# Keeping the books

The totals of a pipeline, the responses to its requests, the alerts it raises and the events in its
store are kept apart from each other, and nobody compares them.  They agree all the same.

* An `Intake` is a batch that came in: its raw events, the accepted ones, the response, and the
  types whose tables had been made to fail by then.  `Pipeline.intakes` are those of a run.  Which
  tables fail is read off the steps of the run, and not off the store.
* `Pipeline.Books` says how the totals and the store have moved on by some intakes.  Each step moves
  them on by its own intake (`books_step`), and a run by all of them (`books_run`).
* `Pipeline.books_balance` is the outcome for a pipeline that begins with nothing.

Steps that change the store or the totals by themselves (`Step.isManual`) are left out: with them
the books are kept by somebody else.
-/

set_option autoImplicit false

namespace SpikeWatch

open Json (Value)

/-! ## Intakes -/

/-- A batch that came in. -/
structure Intake where
  raws : List Value
  accepted : List Event
  response : Response
  /-- The types whose tables failed by then. -/
  failing : List EventType
  response_accepted : response.accepted = accepted.length
  response_total : response.accepted + response.rejected = raws.length

namespace Intake

/-- The accepted events of a type. -/
def ofType (type : EventType) (i : Intake) : List Event := i.accepted.filter (·.type = type)

/-- The accepted events of a type, if their table failed. -/
def lost (type : EventType) (i : Intake) : List Event :=
  if type ∈ i.failing then i.ofType type else []

/-- The accepted events of a type, unless their table failed. -/
def stored (type : EventType) (i : Intake) : List Event :=
  if type ∈ i.failing then [] else i.ofType type

/-- The types of accepted events whose tables failed. -/
def failures (i : Intake) : List EventType :=
  EventType.all.filter fun type => type ∈ i.failing ∧ i.ofType type ≠ []

/-- The accepted events of a type are stored or lost. -/
theorem length_stored_add_lost (type : EventType) (i : Intake) :
    (i.stored type).length + (i.lost type).length = (i.ofType type).length := by
  rw [stored, lost]
  split <;> simp

/-- No more tables fail than there are events to store. -/
theorem length_failures_le (i : Intake) : i.failures.length ≤ i.raws.length := by
  have hnodup : i.failures.Nodup := List.Pairwise.filter _ (by decide)
  have hsub : i.failures ⊆ i.accepted.map Event.type := by
    intro type htype
    obtain ⟨-, hof⟩ := of_decide_eq_true (List.mem_filter.1 htype).2
    obtain ⟨e, he⟩ := List.exists_mem_of_ne_nil _ hof
    obtain ⟨hmem, htype⟩ := List.mem_filter.1 he
    exact List.mem_map.2 ⟨e, hmem, of_decide_eq_true htype⟩
  have hle := (List.subperm_of_subset hnodup hsub).length_le
  have haccepted := i.response_accepted
  have htotal := i.response_total
  rw [List.length_map] at hle
  omega

end Intake

/-- The response that a step gives, if any. -/
def Outcome.response? : Outcome → Option Response
  | .response r => some r
  | _ => none

namespace Pipeline

/-- The batch of some raw events, when the tables of some types fail. -/
def intake (failing : List EventType) (p : Pipeline) (raws : List Value) : Intake where
  raws
  accepted := p.accepted raws
  response := (p.dispatch raws).2
  failing
  response_accepted := by rw [dispatch_response]
  response_total := p.dispatch_total raws

/-- The batch that comes in by a step, if any. -/
def intake? (failing : List EventType) (p : Pipeline) : Step → Option Intake
  | .dispatch body => (Batch.eventsOfText body).toOption.map (p.intake failing)
  | _ => none

/-- The batches that come in by a run.  Tables fail from the step on that makes them fail. -/
def intakes (failing : List EventType) (p : Pipeline) : List Step → List Intake
  | [] => []
  | s :: steps =>
    (p.intake? failing s).toList ++ intakes (s.fault?.toList ++ failing) (p.step s).1 steps

/-! ## Failed inserts -/

/-- A failed insert is counted once for its type, and only if there was something to insert. -/
theorem insertFailures_storeType (accepted : EventsByType) (p : Pipeline)
    {failing : List EventType} (hfailing : p.store.failing? = some failing) (type : EventType) :
    (p.storeType accepted type).totals.insertFailures = p.totals.insertFailures +
      if type ∈ failing ∧ accepted.get type ≠ [] then 1 else 0 := by
  have herror : (∃ e, (p.store.insert type (accepted.get type)).2 = .error e) ↔
      type ∈ failing ∧ accepted.get type ≠ [] := by
    rw [Store.exists_insert_eq_error_iff, hfailing, and_comm]
    simp only [Option.some.injEq, exists_eq_left']
  rw [storeType_eq]
  dsimp only
  cases hanswer : (p.store.insert type (accepted.get type)).2 with
  | ok done =>
    have hfine : ¬ (type ∈ failing ∧ accepted.get type ≠ []) := by
      rw [← herror, hanswer]
      simp
    rw [if_neg hfine]
    rfl
  | error e =>
    rw [if_pos (herror.1 ⟨e, hanswer⟩)]
    rfl

/-- So a batch counts the failing types of which it has events. -/
theorem insertFailures_foldl_storeType (accepted : EventsByType) (p : Pipeline)
    {failing : List EventType} (hfailing : p.store.failing? = some failing)
    (types : List EventType) :
    (types.foldl (storeType accepted) p).totals.insertFailures = p.totals.insertFailures +
      .ofNat (types.filter fun type => type ∈ failing ∧ accepted.get type ≠ []).length := by
  induction types generalizing p with
  | nil => exact (UInt64.add_zero _).symm
  | cons type types ih =>
    rw [List.foldl_cons, ih _ ((p.failing?_storeType accepted type).trans hfailing),
      insertFailures_storeType accepted p hfailing, List.filter_cons]
    by_cases hfails : type ∈ failing ∧ accepted.get type ≠ []
    · rw [if_pos hfails, if_pos (decide_eq_true hfails), List.length_cons, Nat.add_comm,
        UInt64.ofNat_add, UInt64.add_assoc]
      rfl
    · rw [if_neg hfails, if_neg (by simpa using hfails), UInt64.add_zero]

/-! ## Moving on -/

/-- Between two states of a pipeline some batches came in, and nothing else was stored or counted
but alerts. -/
structure Books (p q : Pipeline) (intakes : List Intake) : Prop where
  batches : q.totals.batches = p.totals.batches + .ofNat intakes.length
  accepted : q.totals.accepted =
    p.totals.accepted + .ofNat (intakes.map fun i => i.response.accepted).sum
  rejected : q.totals.rejected =
    p.totals.rejected + .ofNat (intakes.map fun i => i.response.rejected).sum
  insertFailures : q.totals.insertFailures =
    p.totals.insertFailures + .ofNat (intakes.flatMap Intake.failures).length
  stored : ∀ type, q.store.ofType type =
    p.store.ofType type ++ intakes.flatMap (Intake.stored type)

variable {p q r : Pipeline}

/-- Books that agree have been moved on by no intake. -/
theorem books_nil (htotals : q.totals.batches = p.totals.batches ∧
      q.totals.accepted = p.totals.accepted ∧ q.totals.rejected = p.totals.rejected ∧
      q.totals.insertFailures = p.totals.insertFailures)
    (hstored : ∀ type, q.store.ofType type = p.store.ofType type) : p.Books q [] where
  batches := htotals.1.trans (UInt64.add_zero _).symm
  accepted := htotals.2.1.trans (UInt64.add_zero _).symm
  rejected := htotals.2.2.1.trans (UInt64.add_zero _).symm
  insertFailures := htotals.2.2.2.trans (UInt64.add_zero _).symm
  stored type := (hstored type).trans (List.append_nil _).symm

/-- Books move on by one run after the other. -/
theorem Books.trans {intakes more : List Intake} (h : p.Books q intakes) (hmore : q.Books r more) :
    p.Books r (intakes ++ more) where
  batches := by
    rw [hmore.batches, h.batches, List.length_append, UInt64.ofNat_add, UInt64.add_assoc]
  accepted := by
    rw [hmore.accepted, h.accepted, List.map_append, List.sum_append, UInt64.ofNat_add,
      UInt64.add_assoc]
  rejected := by
    rw [hmore.rejected, h.rejected, List.map_append, List.sum_append, UInt64.ofNat_add,
      UInt64.add_assoc]
  insertFailures := by
    rw [hmore.insertFailures, h.insertFailures, List.flatMap_append, List.length_append,
      UInt64.ofNat_add, UInt64.add_assoc]
  stored type := by
    rw [hmore.stored, h.stored, List.flatMap_append, List.append_assoc]

end Pipeline

/-- Whether a step changes the store or the totals by itself: it stores events that did not come in
by a request, or counts what was not done. -/
def Step.isManual : Step → Bool
  | .insert _ _ | .countBatch _ _ | .countInsertFailure | .countAlert _ => true
  | _ => false

namespace Pipeline

variable {p : Pipeline} {failing : List EventType}

/-- A batch moves the books on by its own intake. -/
theorem books_dispatch (hfailing : p.store.failing? = some failing) (raws : List Value) :
    p.Books (p.dispatch raws).1 [p.intake failing raws] := by
  obtain ⟨store, insertFailures, h⟩ := p.dispatch_eq raws
  refine ⟨by rw [h]; rfl, by rw [h]; simp [intake], by rw [h]; simp [intake], ?_, fun type => ?_⟩
  · -- the events are counted live before they are stored
    let counts :=
      if p.realtime then p.counts.recordEvents p.now (.ofList (p.accepted raws)) else p.counts
    have hfailures := insertFailures_foldl_storeType (.ofList (p.accepted raws))
      { p with counts } hfailing EventType.all
    simp only [EventsByType.get_ofList] at hfailures
    rw [dispatch_eq_loop, List.flatMap_singleton]
    exact hfailures
  · rw [ofType_dispatch, Store.keeps_eq, hfailing, List.flatMap_singleton, Intake.stored]
    congr 1
    by_cases htype : type ∈ failing <;> simp [intake, Intake.ofType, htype]

/-- A step that is not manual moves the books on by the batch that comes in by it. -/
theorem books_step (hfailing : p.store.failing? = some failing) {s : Step}
    (hs : s.isManual = false) : p.Books (p.step s).1 (p.intake? failing s).toList := by
  -- All steps but one leave the books alone.
  have hnil : p.Books p [] := books_nil ⟨rfl, rfl, rfl, rfl⟩ fun type => rfl
  cases s with
  | dispatch body =>
    simp only [step, dispatchText, intake?]
    cases Batch.eventsOfText body with
    | error failure => exact hnil
    | ok raws => exact books_dispatch hfailing raws
  | evaluate =>
    simp only [step, evaluate, foldl_deliver]
    exact books_nil ⟨rfl, rfl, rfl, rfl⟩ fun type => rfl
  | advance d =>
    simp only [step, advance?]
    cases p.now.add? d with
    | none => exact hnil
    | some now => exact books_nil ⟨rfl, rfl, rfl, rfl⟩ fun type => rfl
  | failOn type =>
    exact books_nil ⟨rfl, rfl, rfl, rfl⟩ fun t => Store.ofType_failOn type p.store t
  | insert | countBatch | countInsertFailure | countAlert => cases hs
  | _ => exact books_nil ⟨rfl, rfl, rfl, rfl⟩ fun type => rfl

/-- **A run moves the books on by its intakes.**  The tables that fail change on the way, and each
step hands them on to the next. -/
theorem books_run (hfailing : p.store.failing? = some failing) {steps : List Step}
    (hsteps : ∀ s ∈ steps, s.isManual = false) :
    p.Books (p.run steps).1 (p.intakes failing steps) := by
  induction steps generalizing p failing with
  | nil => exact books_nil ⟨rfl, rfl, rfl, rfl⟩ fun type => rfl
  | cons s steps ih =>
    obtain ⟨hs, hsteps⟩ := List.forall_mem_cons.1 hsteps
    have hnext : (p.step s).1.store.failing? = some (s.fault?.toList ++ failing) := by
      rw [failing?_step, hfailing]
      rfl
    exact (books_step hfailing hs).trans (ih hnext hsteps)

/-! ## Responses -/

/-- The response to a step is that of its intake. -/
theorem response?_step (p : Pipeline) (failing : List EventType) (s : Step) :
    (p.step s).2.response? = (p.intake? failing s).map Intake.response := by
  cases s with
  | dispatch body =>
    simp only [step, dispatchText, intake?]
    cases Batch.eventsOfText body <;> rfl
  | advance d =>
    simp only [step, advance?]
    cases p.now.add? d <;> rfl
  | insert type events =>
    rw [step_insert]
    cases (p.store.insert type events).2 <;> rfl
  | _ => rfl

/-- The responses of a run are those to the batches that come in by it. -/
theorem responses_run (p : Pipeline) (failing : List EventType) (steps : List Step) :
    (p.run steps).2.filterMap Outcome.response? =
      (p.intakes failing steps).map Intake.response := by
  induction steps generalizing p failing with
  | nil => rfl
  | cons s steps ih =>
    rw [run, intakes, List.filterMap_cons, response?_step p failing, List.map_append, ih]
    cases p.intake? failing s <;> rfl

/-- A body that is no batch leaves everything as it was. -/
theorem step_of_invalidBody {body : String} {failure : Json.Failure}
    (h : (p.step (.dispatch body)).2 = .invalidBody failure) :
    (p.step (.dispatch body)).1 = p ∧ p.intake? failing (.dispatch body) = none := by
  simp only [step, dispatchText, intake?] at h ⊢
  cases hraws : Batch.eventsOfText body with
  | error failure => exact ⟨rfl, rfl⟩
  | ok raws => simp [hraws, Except.map] at h

/-! ## The balance -/

/-- Responses account for all raw events. -/
theorem sum_responses (intakes : List Intake) :
    (intakes.map fun i => i.response.accepted).sum +
      (intakes.map fun i => i.response.rejected).sum =
        (intakes.map fun i => i.raws.length).sum := by
  rw [← List.sum_map_add]
  simp only [Intake.response_total]

/-- A failed insert takes at least one event, so there are no more of them than events. -/
theorem length_failures_le_sum (intakes : List Intake) :
    (intakes.flatMap Intake.failures).length ≤ (intakes.map fun i => i.raws.length).sum := by
  rw [List.length_flatMap]
  exact List.sum_le_sum fun i _ => i.length_failures_le

theorem length_stored_add_length_lost (type : EventType) (intakes : List Intake) :
    (intakes.flatMap (Intake.stored type)).length + (intakes.flatMap (Intake.lost type)).length =
      (intakes.flatMap (Intake.ofType type)).length := by
  simp only [List.length_flatMap]
  rw [← List.sum_map_add]
  simp only [Intake.length_stored_add_lost]

/-- A counter that began with zero and did not run over. -/
theorem toNat_of_eq_add {before after : UInt64} {n : Nat} (h : after = before + .ofNat n)
    (hbefore : before = 0) (hn : n < UInt64.size) : after.toNat = n := by
  rw [h, hbefore, UInt64.zero_add]
  exact UInt64.toNat_ofNat_of_lt hn

/-- **The books balance.**  A pipeline that begins with nothing is only asked to take in batches, to
let tables fail, and to do what is not about the books, and gets fewer raw events than sixty-four
bits can count.  Then its totals are the sums over its responses, which are as many as batches, and
over its alerts; the events of each type that are not in the store were accepted after its table was
made to fail; and one insert has failed for each batch and each type with accepted events in it
whose table failed by then.  A body that is no batch has no part in any of this. -/
theorem books_balance (p : Pipeline) (hstore : p.store = .memory {}) (htotals : p.totals = {})
    {steps : List Step} (hsteps : ∀ s ∈ steps, s.isManual = false)
    (hfew : ((p.intakes [] steps).map fun i => i.raws.length).sum < UInt64.size) :
    let q := (p.run steps).1
    let intakes := p.intakes [] steps
    let responses := (p.run steps).2.filterMap Outcome.response?
    let accepted := (responses.map Response.accepted).sum
    let rejected := (responses.map Response.rejected).sum
    (responses = intakes.map Intake.response ∧
      accepted + rejected = (intakes.map fun i => i.raws.length).sum) ∧
    (q.totals.batches = .ofNat responses.length ∧ q.totals.accepted.toNat = accepted ∧
      q.totals.rejected.toNat = rejected) ∧
    (∀ type, (q.store.ofType type).length + (intakes.flatMap (Intake.lost type)).length =
      (intakes.flatMap (Intake.ofType type)).length) ∧
    q.totals.insertFailures.toNat = (intakes.flatMap Intake.failures).length ∧
    q.totals.alertsFired = .ofNat ((p.run steps).2.flatMap Outcome.alerts).length ∧
    ∀ (r : Pipeline) (failing : List EventType) (body : String) (failure : Json.Failure),
      (r.step (.dispatch body)).2 = .invalidBody failure →
        (r.step (.dispatch body)).1 = r ∧ r.intake? failing (.dispatch body) = none := by
  intro q intakes responses accepted rejected
  have hcounted : ∀ s ∈ steps, ∀ delivered, s ≠ .countAlert delivered := by
    rintro s hs delivered rfl
    exact nomatch hsteps _ hs
  have hbooks : p.Books q intakes := books_run (by rw [hstore]; rfl) hsteps
  have hresponses : responses = intakes.map Intake.response := p.responses_run [] steps
  have haccepted : accepted = (intakes.map fun i => i.response.accepted).sum := by
    simp only [accepted, hresponses, List.map_map, Function.comp_def]
  have hrejected : rejected = (intakes.map fun i => i.response.rejected).sum := by
    simp only [rejected, hresponses, List.map_map, Function.comp_def]
  have htotal : accepted + rejected = (intakes.map fun i => i.raws.length).sum := by
    rw [haccepted, hrejected, sum_responses]
  -- No total has gone around: each of them is bounded by the number of raw events.
  have hfailures := length_failures_le_sum intakes
  change (intakes.map fun i => i.raws.length).sum < UInt64.size at hfew
  refine ⟨⟨hresponses, htotal⟩, ⟨?_, ?_, ?_⟩, fun type => ?_, ?_, ?_, fun r failing body failure =>
    step_of_invalidBody⟩
  · rw [hbooks.batches, htotals, hresponses, List.length_map]
    exact UInt64.zero_add _
  · rw [haccepted]
    exact toNat_of_eq_add hbooks.accepted (by rw [htotals]) (by omega)
  · rw [hrejected]
    exact toNat_of_eq_add hbooks.rejected (by rw [htotals]) (by omega)
  · rw [hbooks.stored, hstore, Store.ofType_empty]
    exact length_stored_add_length_lost type intakes
  · exact toNat_of_eq_add hbooks.insertFailures (by rw [htotals]) (by omega)
  · rw [(p.delivers_run hcounted).2.1, htotals]
    exact UInt64.zero_add _

/-- A crash comes in before crashes cannot be stored, and once more after that.  A batch has nothing
but an event that is rejected, and a body is no batch. -/
theorem books_balance_crashes :
    let crash := Step.dispatchOne [("type", "crash"), ("app_version", "1"), ("platform", "iOS"),
      ("device_id", "d"), ("session_id", "s"), ("fingerprint", "f")]
    let rule : Rule :=
      { id := "r", name := "R", metric := .crash, version := "1", threshold := .ofNat 2 }
    let p : Pipeline := { now := { nanos := 1700000000000000000 }, store := .memory {} }
    let steps := [crash, .failOn .crash, crash, .dispatch "crash", .dispatchOne [],
      .addRule rule, .evaluate]
    let q := (p.run steps).1
    (∀ s ∈ steps, s.isManual = false) ∧
      ((p.intakes [] steps).map fun i => i.raws.length).sum < UInt64.size ∧
      q.totals.batches = 3 ∧ q.totals.accepted.toNat = 2 ∧ q.totals.rejected.toNat = 1 ∧
      (q.store.ofType .crash).length = 1 ∧ q.totals.insertFailures.toNat = 1 ∧
      q.totals.alertsFired = 1 := by
  intro crash rule p steps q
  have hsteps : ∀ s ∈ steps, s.isManual = false := by decide +kernel
  have hruns : ((p.intakes [] steps).map fun i => i.raws.length).sum = 3 ∧
      (((p.run steps).2.filterMap Outcome.response?).length = 3 ∧
        (((p.run steps).2.filterMap Outcome.response?).map Response.accepted).sum = 2 ∧
        (((p.run steps).2.filterMap Outcome.response?).map Response.rejected).sum = 1) ∧
      (((p.intakes [] steps).flatMap (Intake.lost .crash)).length = 1 ∧
        ((p.intakes [] steps).flatMap (Intake.ofType .crash)).length = 2) ∧
      ((p.intakes [] steps).flatMap Intake.failures).length = 1 ∧
      ((p.run steps).2.flatMap Outcome.alerts).length = 1 := by
    decide +kernel
  obtain ⟨hraws, ⟨hresponses, haccepted, hrejected⟩, ⟨hlost, hof⟩, hfailures, halerts⟩ := hruns
  have hfew : ((p.intakes [] steps).map fun i => i.raws.length).sum < UInt64.size := by
    rw [hraws]
    decide
  obtain ⟨-, ⟨hbatches, haccepted', hrejected'⟩, hstored, hfailures', hfired, -⟩ :=
    books_balance p rfl rfl hsteps hfew
  subst q
  have hcrash := hstored .crash
  rw [hlost, hof] at hcrash
  rw [hresponses] at hbatches
  rw [haccepted] at haccepted'
  rw [hrejected] at hrejected'
  rw [hfailures] at hfailures'
  rw [halerts] at hfired
  exact ⟨hsteps, hfew, hbatches.trans (by decide), haccepted', hrejected',
    Nat.add_right_cancel hcrash, hfailures', hfired.trans (by decide)⟩

end Pipeline

end SpikeWatch
