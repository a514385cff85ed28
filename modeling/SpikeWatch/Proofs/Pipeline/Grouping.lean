import SpikeWatch.Proofs.Pipeline.Batch

/-!
# Batches and the order of events

At a frozen clock it does not matter how events are cut into batches, nor in which order they come.

* Events are judged one by one, so what is accepted of a rearranged batch is rearranged as well
  (`Pipeline.accepted_perm`), and so are the reasons for rejecting the others.
* `Pipeline.dispatchAll` dispatches one batch after the other.  What comes of it is what comes of
  one large batch, but for the numbers of batches and of failed inserts (`dispatchAll_eq`).
-/

set_option autoImplicit false

namespace SpikeWatch

open Json (Value)

/-- Two answers in one: the numbers are added up, and the lines of the second come last. -/
def Response.append (r s : Response) : Response where
  accepted := r.accepted + s.accepted
  rejected := r.rejected + s.rejected
  errors := r.errors ++ s.errors

namespace Pipeline

/-! ## Events one by one -/

/-- The reasons for which events of a batch are rejected. -/
def rejections (p : Pipeline) (raws : List Value) : List String := raws.filterMap p.rejection?

/-- The lines of a batch say why events were rejected, in the order of these events. -/
theorem map_lineReason_errorLines (p : Pipeline) (raws : List Value) :
    (p.errorLines raws).map lineReason = p.rejections raws := by
  rw [errorLines_eq, List.map_filterMap, rejections]
  conv_rhs => rw [← List.zipIdx_map_fst 0 raws, List.filterMap_map]
  congr 1
  funext place
  simp [Option.map_map, Function.comp_def, lineReason_errorLine]

/-- There is one line for each rejected event. -/
theorem length_errorLines (p : Pipeline) (raws : List Value) :
    (p.errorLines raws).length = (p.rejections raws).length := by
  rw [← map_lineReason_errorLines, List.length_map]

/-- What is accepted of two batches in one is what is accepted of each. -/
theorem accepted_append (p : Pipeline) (raws more : List Value) :
    p.accepted (raws ++ more) = p.accepted raws ++ p.accepted more := by
  simp only [accepted_eq, List.filterMap_append]

/-- The reasons for rejecting the events of two batches in one are those of each. -/
theorem rejections_append (p : Pipeline) (raws more : List Value) :
    p.rejections (raws ++ more) = p.rejections raws ++ p.rejections more :=
  List.filterMap_append

theorem accepted_perm (p : Pipeline) {raws raws' : List Value} (h : raws.Perm raws') :
    (p.accepted raws).Perm (p.accepted raws') := by
  simp only [accepted_eq]
  exact h.filterMap _

/-- A batch leaves the judgement of what follows alone. -/
theorem accepted_dispatch (p : Pipeline) (raws more : List Value) :
    (p.dispatch raws).1.accepted more = p.accepted more := by
  obtain ⟨store, insertFailures, h⟩ := p.dispatch_eq raws
  rw [h]
  rfl

/-- A batch does not change what is said about later events: the limits and the clock stay the
same. -/
theorem rejections_dispatch (p : Pipeline) (raws more : List Value) :
    (p.dispatch raws).1.rejections more = p.rejections more := by
  obtain ⟨store, insertFailures, h⟩ := p.dispatch_eq raws
  rw [h]
  rfl

/-! ## Batch after batch -/

/-- Dispatches one batch after the other, and gives all the answers in one. -/
def dispatchAll (p : Pipeline) : List (List Value) → Pipeline × Response
  | [] => (p, ⟨0, 0, []⟩)
  | raws :: batches =>
    let (p, response) := p.dispatch raws
    let (p, rest) := p.dispatchAll batches
    (p, response.append rest)

/-- **Batch after batch is one batch.**  Only the store, the number of batches and that of failed
inserts are left open here; the induction is on the batches, and `keeps_dispatchAll` and
`ofType_dispatchAll` go on to the store. -/
theorem dispatchAll_eq (p : Pipeline) (batches : List (List Value)) :
    ∃ store count insertFailures, (p.dispatchAll batches).1 = { p with
      counts := if p.realtime then
        p.counts.recordEvents p.now (.ofList (p.accepted batches.flatten)) else p.counts
      store
      totals := { p.totals with
        batches := count
        accepted := p.totals.accepted + .ofNat (p.accepted batches.flatten).length
        rejected := p.totals.rejected + .ofNat (p.rejections batches.flatten).length
        insertFailures } } := by
  induction batches generalizing p with
  | nil =>
    refine ⟨p.store, p.totals.batches, p.totals.insertFailures, ?_⟩
    simp [dispatchAll, accepted_eq, rejections, Counts.recordEvents_ofList]
  | cons raws batches ih =>
    obtain ⟨store, insertFailures, h⟩ := p.dispatch_eq raws
    obtain ⟨store', count, insertFailures', hrest⟩ := ih (p.dispatch raws).1
    refine ⟨store', count, insertFailures', ?_⟩
    rw [dispatchAll]
    dsimp only
    -- the first batch changes nothing by which the others are judged
    rw [hrest, accepted_dispatch, rejections_dispatch, h, List.flatten_cons, accepted_append,
      rejections_append, List.length_append, List.length_append, UInt64.ofNat_add,
      UInt64.ofNat_add, ← UInt64.add_assoc, ← UInt64.add_assoc, Counts.recordEvents_append,
      dispatch_response, length_errorLines]
    cases p.realtime <;> rfl

/-- Batches do not change which tables fail. -/
theorem keeps_dispatchAll (p : Pipeline) (batches : List (List Value)) (t : EventType) :
    (p.dispatchAll batches).1.store.keeps t = p.store.keeps t := by
  induction batches generalizing p with
  | nil => rfl
  | cons raws batches ih => exact (ih (p.dispatch raws).1).trans (p.keeps_dispatch raws t)

/-- Each table has the accepted events of its type behind those it had, in the order in which they
came. -/
theorem ofType_dispatchAll (p : Pipeline) (batches : List (List Value)) (t : EventType) :
    (p.dispatchAll batches).1.store.ofType t = p.store.ofType t ++
      if p.store.keeps t = true then (p.accepted batches.flatten).filter (·.type = t) else [] := by
  induction batches generalizing p with
  | nil => simp [dispatchAll, accepted_eq]
  | cons raws batches ih =>
    refine (ih (p.dispatch raws).1).trans ?_
    rw [keeps_dispatch, accepted_dispatch, ofType_dispatch, List.append_assoc, List.flatten_cons,
      accepted_append, List.filter_append]
    split <;> rfl

/-- The accepted events of all batches are counted. -/
theorem accepted_dispatchAll (p : Pipeline) (batches : List (List Value)) :
    (p.dispatchAll batches).2.accepted = (p.accepted batches.flatten).length := by
  induction batches generalizing p with
  | nil => simp [dispatchAll, accepted_eq]
  | cons raws batches ih =>
    rw [dispatchAll, List.flatten_cons, accepted_append, List.length_append]
    dsimp only [Response.append]
    rw [ih, accepted_dispatch, dispatch_response]

/-- The rejected events of all batches are counted. -/
theorem rejected_dispatchAll (p : Pipeline) (batches : List (List Value)) :
    (p.dispatchAll batches).2.rejected = (p.rejections batches.flatten).length := by
  induction batches generalizing p with
  | nil => rfl
  | cons raws batches ih =>
    rw [dispatchAll, List.flatten_cons, rejections_append, List.length_append]
    dsimp only [Response.append]
    rw [ih, rejections_dispatch, dispatch_response, length_errorLines]

/-- All lines together give the reasons for one large batch.  Only the places in them are those of
the batch at hand. -/
theorem map_lineReason_dispatchAll (p : Pipeline) (batches : List (List Value)) :
    (p.dispatchAll batches).2.errors.map lineReason = p.rejections batches.flatten := by
  induction batches generalizing p with
  | nil => rfl
  | cons raws batches ih =>
    rw [dispatchAll, List.flatten_cons, rejections_append]
    dsimp only [Response.append]
    rw [List.map_append, ih, rejections_dispatch, dispatch_response, map_lineReason_errorLines]

/-- One large batch differs from many small ones in the store and in two totals at most. -/
theorem dispatchAll_eq_of_perm (p : Pipeline) {batches : List (List Value)} {raws : List Value}
    (h : batches.flatten.Perm raws) :
    let q := (p.dispatch raws).1
    ∃ store count insertFailures, (p.dispatchAll batches).1 =
      { q with store, totals := { q.totals with batches := count, insertFailures } } := by
  intro q
  obtain ⟨store, count, insertFailures, hall⟩ := p.dispatchAll_eq batches
  obtain ⟨store', insertFailures', hone⟩ := p.dispatch_eq raws
  have haccepted := p.accepted_perm h
  have hrejected : (p.rejections batches.flatten).length = (p.rejections raws).length :=
    (h.filterMap _).length_eq
  have hq : q = _ := hone
  refine ⟨store, count, insertFailures, ?_⟩
  rw [hall, hq, dispatch_response, length_errorLines, haccepted.length_eq, hrejected,
    p.counts.recordEvents_perm p.now haccepted]

/-- **Neither the cutting into batches nor the order of events matters.**  Whatever the batches, the
live counts and the alerts of a pass that follows are those of one batch, and so are, but for their
order, the stored events of each type and the reasons for rejections.  Of the rest of the pipeline
only the numbers of batches and of failed inserts may differ. -/
theorem dispatchAll_perm (p : Pipeline) {batches : List (List Value)} {raws : List Value}
    (h : batches.flatten.Perm raws) :
    let q := (p.dispatchAll batches).1
    let response := (p.dispatchAll batches).2
    let q' := (p.dispatch raws).1
    let response' := (p.dispatch raws).2
    q.counts = q'.counts ∧
    (response.accepted = response'.accepted ∧ response.rejected = response'.rejected) ∧
    (response.errors.map lineReason).Perm (response'.errors.map lineReason) ∧
    (∀ type, q.store.keeps type = q'.store.keeps type ∧
      (q.store.ofType type).Perm (q'.store.ofType type)) ∧
    q.evaluate.2 = q'.evaluate.2 ∧
    ∃ store batches insertFailures,
      q = { q' with store, totals := { q'.totals with batches, insertFailures } } := by
  intro q response q' response'
  have haccepted := p.accepted_perm h
  have hrejected : (p.rejections batches.flatten).Perm (p.rejections raws) := h.filterMap _
  obtain ⟨store, count, insertFailures, hq⟩ := p.dispatchAll_eq_of_perm h
  have hq : q = { q' with store, totals := { q'.totals with batches := count, insertFailures } } :=
    hq
  have hresponse' : response' = _ := p.dispatch_response raws
  refine ⟨?_, ⟨?_, ?_⟩, ?_, fun type => ⟨?_, ?_⟩, ?_, store, count, insertFailures, hq⟩
  · rw [hq]
  · rw [hresponse']
    exact (p.accepted_dispatchAll batches).trans haccepted.length_eq
  · rw [hresponse']
    exact (p.rejected_dispatchAll batches).trans
      (hrejected.length_eq.trans (p.length_errorLines raws).symm)
  · rw [hresponse', map_lineReason_errorLines]
    exact (p.map_lineReason_dispatchAll batches).symm ▸ hrejected
  · exact (p.keeps_dispatchAll batches type).trans (p.keeps_dispatch raws type).symm
  · rw [p.ofType_dispatchAll batches type, p.ofType_dispatch raws type]
    refine List.Perm.append_left _ ?_
    split
    · exact haccepted.filter _
    · exact .refl _
  · rw [hq]
    rfl

/-- The events come in the other way round and in three batches, one of them empty.  The line about
the rejected one gives it another place. -/
theorem dispatchAll_perm_reversed :
    let event (type : String) : Value := .object <|
      [("type", type), ("app_version", "1"), ("platform", "iOS"), ("device_id", "d"),
        ("session_id", "s"), ("fingerprint", "f")].map fun (name, text) => (name, .text text)
    let rule : Rule :=
      { id := "r", name := "R", metric := .jank, version := "1", threshold := .ofNat 1 }
    let p : Pipeline :=
      { now := { nanos := 1700000000000000000 }, store := .memory { failing := [.jank] },
        rules := [rule] }
    let raws := [event "crash", event "tap", event "jank", event "crash"]
    let batches := [[event "crash", event "jank"], [], [event "tap", event "crash"]]
    let q := (p.dispatchAll batches).1
    let q' := (p.dispatch raws).1
    batches.flatten.Perm raws ∧ q.counts = q'.counts ∧ q.counts.rate .crash "1" = (2, 1) ∧
      q.evaluate.2 = q'.evaluate.2 ∧ q'.evaluate.2.map Alert.rule = [rule] ∧
      (p.dispatchAll batches).2.errors = ["event 0: unknown event type \"tap\""] ∧
      (p.dispatch raws).2.errors = ["event 1: unknown event type \"tap\""] ∧
      q.totals.batches = 3 ∧ q'.totals.batches = 1 := by
  intro event rule p raws batches q q'
  have h : batches.flatten.Perm raws := List.reverse_perm raws
  obtain ⟨hcounts, -, -, -, hevaluate, -⟩ := dispatchAll_perm p h
  exact ⟨h, hcounts, by decide +kernel, hevaluate, by decide +kernel, by decide +kernel,
    by decide +kernel, by decide +kernel, by decide +kernel⟩

end Pipeline

end SpikeWatch
