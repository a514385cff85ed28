import SpikeWatch.Proofs.Pipeline.Effect
import SpikeWatch.Proofs.Store

/-!
# The effect of a batch

The events of a batch are judged one by one, and none of them matters to the others.  So a batch
does what its events would do on their own, and its lines say what would be said about each of them.

* `errorLine` is the line about a rejected event, and `lineReason` what it says behind the place of
  the event.
* `sortBatch_eq` reads a batch event by event; `Pipeline.rejection?` is what is said about an event
  that comes alone.
* `Pipeline.ofType_storeEvents` says what is stored, table by table.
* `Entry.Gains` relates a live count to the one before a batch: it depends on the sessions of the
  accepted events of its metric and version, and on nothing else (`Counts.gains_recordEvents`).
-/

set_option autoImplicit false

namespace SpikeWatch

open Json (Value)

/-- A request with a batch of one event, all of whose members are texts. -/
def Step.dispatchOne (members : List (String × String)) : Step :=
  let event := Json.writeObject (members.map fun (name, text) => (name, Json.writeText text))
  .dispatch (String.ofList (Json.writeObject [("events", Json.writeList [event])]))

/-! ## Lines about rejected events -/

/-- The line about the event at a place. -/
def errorLine (place : Nat) (reason : String) : String :=
  "event " ++ String.ofList (Decimal.digits place) ++ ": " ++ reason

/-- What a line about an event says behind the place of the event. -/
def lineReason (line : String) : String :=
  String.ofList ((line.toList.dropWhile (· ≠ ':')).drop 2)

/-- No place has a colon in it, so the first one ends the place. -/
theorem toList_errorLine (place : Nat) (reason : String) :
    (∀ c ∈ "event ".toList ++ Decimal.digits place, decide (c ≠ ':') = true) ∧
      (errorLine place reason).toList =
        ("event ".toList ++ Decimal.digits place) ++ ':' :: ' ' :: reason.toList := by
  refine ⟨fun c hc => decide_eq_true ?_, by simp [errorLine]⟩
  rintro rfl
  rcases List.mem_append.1 hc with hc | hc
  · exact absurd hc (by decide)
  · exact absurd (Nat.isDigit_of_mem_toDigits (by decide) (by decide) hc) (by decide)

/-- A line gives its reason back: the place in front of it has no colon in it. -/
theorem lineReason_errorLine (place : Nat) (reason : String) :
    lineReason (errorLine place reason) = reason := by
  obtain ⟨hplace, hline⟩ := toList_errorLine place reason
  rw [lineReason, hline, List.dropWhile_append_of_pos hplace]
  simp

/-! ## Judging a batch -/

/-- Why an event is rejected, if it is. -/
def judgeReason? (limits : Limits) (now : Instant) (raw : Value) : Option String :=
  match judge limits now raw with
  | .ok _ => none
  | .error r => some r.message

/-- **A batch is judged event by event.** -/
theorem sortBatch_eq (limits : Limits) (now : Instant) (index : Nat) (raws : List Value) :
    sortBatch limits now index raws =
      (raws.filterMap fun raw => (judge limits now raw).toOption,
        (raws.zipIdx index).filterMap fun (raw, place) =>
          (judgeReason? limits now raw).map (errorLine place)) := by
  induction raws generalizing index with
  | nil => rfl
  | cons raw rest ih =>
    rw [sortBatch, ih, List.zipIdx_cons, List.filterMap_cons, List.filterMap_cons]
    dsimp only
    rw [judgeReason?]
    cases judge limits now raw <;> rfl

/-- No event of a batch is lost: each is accepted, or there is a line about it. -/
theorem length_sortBatch (limits : Limits) (now : Instant) (index : Nat) (raws : List Value) :
    (sortBatch limits now index raws).1.length + (sortBatch limits now index raws).2.length =
      raws.length := by
  induction raws generalizing index with
  | nil => rfl
  | cons raw rest ih =>
    rw [sortBatch, List.length_cons, ← ih (index + 1)]
    cases judge limits now raw with
    | ok e => exact Nat.succ_add ..
    | error r => rfl

namespace Pipeline

/-- What is accepted of a batch is what is accepted of its events one by one. -/
theorem accepted_eq (p : Pipeline) (raws : List Value) :
    p.accepted raws = raws.filterMap fun raw => (judge p.limits p.now raw).toOption := by
  rw [accepted, sortBatch_eq]

/-- An accepted event comes from some event of the batch, as it was judged. -/
theorem mem_accepted_iff {p : Pipeline} {raws : List Value} {e : Event} :
    e ∈ p.accepted raws ↔ ∃ raw ∈ raws, judge p.limits p.now raw = .ok e := by
  rw [accepted_eq, List.mem_filterMap]
  refine exists_congr fun raw => and_congr_right fun _ => ?_
  cases judge p.limits p.now raw <;> simp [Except.toOption]

/-- The lines about the rejected events of a batch. -/
def errorLines (p : Pipeline) (raws : List Value) : List String :=
  (sortBatch p.limits p.now 0 raws).2

/-- The response counts the accepted events and the lines. -/
theorem dispatch_response (p : Pipeline) (raws : List Value) :
    (p.dispatch raws).2 =
      ⟨(p.accepted raws).length, (p.errorLines raws).length, p.errorLines raws⟩ := by
  rw [dispatch_eq_loop]
  rfl

/-- Each event is either accepted or rejected. -/
theorem dispatch_total (p : Pipeline) (raws : List Value) :
    (p.dispatch raws).2.accepted + (p.dispatch raws).2.rejected = raws.length := by
  rw [dispatch_response]
  exact length_sortBatch ..

/-- Why an event is rejected that comes alone, if it is. -/
def rejection? (p : Pipeline) (raw : Value) : Option String :=
  (p.dispatch [raw]).2.errors.head?.map lineReason

/-- What is said about an event that comes alone is the reason for judging it so. -/
theorem rejection?_eq (p : Pipeline) (raw : Value) :
    p.rejection? raw = judgeReason? p.limits p.now raw := by
  rw [rejection?, dispatch_response, errorLines, sortBatch_eq]
  cases hreason : judgeReason? p.limits p.now raw <;> simp [hreason, lineReason_errorLine]

/-- The lines of a batch say at each place what would be said about the event alone. -/
theorem errorLines_eq (p : Pipeline) (raws : List Value) :
    p.errorLines raws = raws.zipIdx.filterMap fun (raw, place) =>
      (p.rejection? raw).map (errorLine place) := by
  simp only [rejection?_eq]
  rw [errorLines, sortBatch_eq]

/-! ## Storing a batch -/

/-- Storing events does not change which tables fail. -/
theorem failing?_storeType (accepted : EventsByType) (p : Pipeline) (type : EventType) :
    (p.storeType accepted type).store.failing? = p.store.failing? := by
  rw [storeType_eq]
  exact Store.failing?_insert ..

theorem failing?_foldl_storeType (accepted : EventsByType) (p : Pipeline)
    (types : List EventType) :
    (types.foldl (storeType accepted) p).store.failing? = p.store.failing? := by
  induction types generalizing p with
  | nil => rfl
  | cons type types ih => rw [List.foldl_cons, ih, failing?_storeType]

theorem keeps_storeType (accepted : EventsByType) (p : Pipeline) (type t : EventType) :
    (p.storeType accepted type).store.keeps t = p.store.keeps t := by
  rw [Store.keeps_eq, Store.keeps_eq, failing?_storeType]

/-- Storing the events of a type adds them to their table, unless this table fails, and to no
other. -/
theorem ofType_storeType (accepted : EventsByType) (p : Pipeline) (type t : EventType) :
    (p.storeType accepted type).store.ofType t = p.store.ofType t ++
      if t = type ∧ p.store.keeps t = true then accepted.get type else [] := by
  rw [storeType_eq]
  exact Store.ofType_insert ..

/-- Storing type by type adds to each table once, since no type is stored twice. -/
theorem ofType_foldl_storeType (accepted : EventsByType) (p : Pipeline)
    (types : List EventType) (hnodup : types.Nodup) (t : EventType) :
    (types.foldl (storeType accepted) p).store.ofType t = p.store.ofType t ++
      if t ∈ types ∧ p.store.keeps t = true then accepted.get t else [] := by
  induction types generalizing p with
  | nil => simp
  | cons type types ih =>
    obtain ⟨hnew, hnodup⟩ := List.nodup_cons.1 hnodup
    rw [List.foldl_cons, ih _ hnodup, ofType_storeType, keeps_storeType, List.append_assoc]
    congr 1
    by_cases ht : t = type
    · subst ht
      simp [hnew]
    · simp [ht]

/-- Each collection goes to the table of its type. -/
theorem ofType_storeEvents (p : Pipeline) (accepted : EventsByType) (t : EventType) :
    (p.storeEvents accepted).store.ofType t = p.store.ofType t ++
      if p.store.keeps t = true then accepted.get t else [] := by
  rw [storeEvents, ofType_foldl_storeType accepted p _ (by decide)]
  simp [t.mem_all]

/-- A batch does not change which tables fail. -/
theorem failing?_dispatch (p : Pipeline) (raws : List Value) :
    (p.dispatch raws).1.store.failing? = p.store.failing? := by
  rw [dispatch_eq_loop]
  exact failing?_foldl_storeType ..

theorem keeps_dispatch (p : Pipeline) (raws : List Value) (t : EventType) :
    (p.dispatch raws).1.store.keeps t = p.store.keeps t := by
  rw [Store.keeps_eq, Store.keeps_eq, failing?_dispatch]

/-- A batch adds to each table that does not fail its accepted events of this type. -/
theorem ofType_dispatch (p : Pipeline) (raws : List Value) (t : EventType) :
    (p.dispatch raws).1.store.ofType t = p.store.ofType t ++
      if p.store.keeps t = true then (p.accepted raws).filter (·.type = t) else [] := by
  rw [dispatch_eq_loop, ← EventsByType.get_ofList]
  exact ofType_storeEvents ..

end Pipeline

/-! ## Counting a batch -/

/-- What the sessions of some occurrences at one instant make of an entry, which may be absent. -/
structure Entry.Gains (now : Instant) (sessions : List String) (before after : Option Entry) :
    Prop where
  count : after.elim 0 Entry.count = before.elim 0 Entry.count + .ofNat sessions.length
  mem_sessions : ∀ s, s ∈ after.elim ∅ Entry.sessions ↔
    s ∈ before.elim ∅ Entry.sessions ∨ s ∈ sessions
  lastSeen : after.map Entry.lastSeen =
    if sessions = [] then before.map Entry.lastSeen else some now

/-- An entry gains nothing from no session. -/
theorem Entry.gains_nil (now : Instant) (e? : Option Entry) : Gains now [] e? e? where
  count := by simp
  mem_sessions := by simp
  lastSeen := rfl

/-- Gains add up. -/
theorem Entry.Gains.trans {now : Instant} {sessions more : List String}
    {before between after : Option Entry} (h : Gains now sessions before between)
    (hmore : Gains now more between after) : Gains now (sessions ++ more) before after where
  count := by
    rw [hmore.count, h.count, List.length_append, UInt64.ofNat_add, UInt64.add_assoc]
  mem_sessions s := by
    rw [hmore.mem_sessions, h.mem_sessions, List.mem_append, or_assoc]
  lastSeen := by
    rw [hmore.lastSeen, h.lastSeen]
    cases more <;> simp

/-- Recording an occurrence is gaining its session. -/
theorem Entry.gains_singleton (now : Instant) (v session : String) (e? : Option Entry) :
    Gains now [session] e? (some ((e?.getD (new v now)).again now session)) where
  count := by cases e? <;> simp [new, again]
  mem_sessions s := by
    cases e? <;> simp [new, again, or_comm, eq_comm (a := s)]
  lastSeen := by cases e? <;> rfl

/-- Recording an occurrence touches the entry of its metric and version, and no other. -/
theorem Counts.gains_add (counts : Counts) (o : Occurrence) (m : Metric) (v : String) :
    Entry.Gains o.time (if o.isOf m v then [o.session] else []) (counts.table m)[v]?
      ((counts.add o).table m)[v]? := by
  rw [getElem?_add]
  split
  · exact Entry.gains_singleton ..
  · exact Entry.gains_nil ..

/-- Of many occurrences at one instant, each entry gains those of its own metric and version. -/
theorem Counts.gains_foldl_add (counts : Counts) {now : Instant} {os : List Occurrence}
    (hnow : ∀ o ∈ os, o.time = now) (m : Metric) (v : String) :
    Entry.Gains now ((os.filter (·.isOf m v)).map Occurrence.session) (counts.table m)[v]?
      ((os.foldl add counts).table m)[v]? := by
  induction os generalizing counts with
  | nil => exact Entry.gains_nil ..
  | cons o os ih =>
    obtain ⟨htime, hnow⟩ := List.forall_mem_cons.1 hnow
    have hfirst := counts.gains_add o m v
    rw [htime] at hfirst
    have hall := hfirst.trans (ih (counts.add o) hnow)
    rw [List.foldl_cons, List.filter_cons]
    split
    · next hof => rwa [if_pos hof] at hall
    · next hof => rwa [if_neg hof] at hall

/-- The sessions of the events that add to a metric in a version. -/
def sessionsOf (m : Metric) (v : String) (events : List Event) : List String :=
  (events.filter fun e => e.metric? = some m ∧ e.context.appVersion = v).map
    fun e => e.context.sessionId

/-- The sessions of a metric and version in a batch are those of its occurrences. -/
theorem sessionsOf_eq (m : Metric) (v : String) (now : Instant) (events : List Event) :
    sessionsOf m v events =
      ((events.filterMap (Event.occurrence? now)).filter (·.isOf m v)).map
        Occurrence.session := by
  induction events with
  | nil => rfl
  | cons e events ih =>
    rw [sessionsOf] at ih ⊢
    rw [List.filterMap_cons, List.filter_cons, Event.occurrence?]
    cases e.metric? with
    | none => simpa using ih
    | some k =>
      by_cases hof : k = m ∧ e.context.appVersion = v
      · simpa [Event.occurrence, Occurrence.isOf, hof] using ih
      · simpa [Event.occurrence, Occurrence.isOf, hof] using ih

/-- **Recording the events of a batch**, seen from one entry. -/
theorem Counts.gains_recordEvents (counts : Counts) (now : Instant) (events : List Event)
    (m : Metric) (v : String) :
    Entry.Gains now (sessionsOf m v events) (counts.table m)[v]?
      ((counts.recordEvents now (.ofList events)).table m)[v]? := by
  rw [recordEvents_ofList, sessionsOf_eq m v now]
  exact gains_foldl_add counts (fun o => Event.time_of_mem_occurrences) m v

namespace Pipeline

/-- **The effect of a batch.** -/
theorem dispatch_effect (p : Pipeline) (raws : List Value) :
    let q := (p.dispatch raws).1
    let response := (p.dispatch raws).2
    let accepted := raws.filterMap fun raw => (judge p.limits p.now raw).toOption
    (response.accepted = accepted.length ∧ response.rejected = response.errors.length ∧
      response.accepted + response.rejected = raws.length) ∧
    (response.errors = raws.zipIdx.filterMap fun (raw, place) =>
      (p.rejection? raw).map (errorLine place)) ∧
    (∀ type, q.store.ofType type = p.store.ofType type ++
      if p.store.keeps type = true then accepted.filter (·.type = type) else []) ∧
    ∀ m v, Entry.Gains p.now (if p.realtime then sessionsOf m v accepted else [])
      (p.counts.table m)[v]? (q.counts.table m)[v]? := by
  intro q response accepted
  have haccepted : p.accepted raws = accepted := p.accepted_eq raws
  have hresponse : response =
      ⟨accepted.length, (p.errorLines raws).length, p.errorLines raws⟩ := by
    rw [← haccepted]
    exact p.dispatch_response raws
  refine ⟨⟨?_, ?_, p.dispatch_total raws⟩, ?_, fun type => ?_, fun m v => ?_⟩
  · rw [hresponse]
  · rw [hresponse]
  · rw [hresponse]
    exact p.errorLines_eq raws
  · rw [← haccepted]
    exact p.ofType_dispatch raws type
  · -- Storing comes behind counting, and does not look at the counts.
    obtain ⟨store, insertFailures, hq⟩ := p.dispatch_eq raws
    have hcounts : q.counts =
        if p.realtime then p.counts.recordEvents p.now (.ofList accepted) else p.counts := by
      rw [← haccepted]
      exact congrArg Pipeline.counts hq
    rw [hcounts]
    cases p.realtime with
    | true => exact Counts.gains_recordEvents ..
    | false => exact Entry.gains_nil ..

end Pipeline

end SpikeWatch
