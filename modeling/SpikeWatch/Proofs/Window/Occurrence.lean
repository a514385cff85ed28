import SpikeWatch.Pipeline.Basic
import SpikeWatch.Proofs.Store
import Mathlib.Data.List.Perm.Basic

/-!
# Occurrences

What is counted live is an `Occurrence`: a metric, a version and a session, at an instant.

* `Counts.add` counts one, and `Counts.getElem?_add` says what becomes of each entry.
* Two occurrences at one instant may change places (`Counts.add_right_comm`), and so all that are
  counted at one instant may be counted in any order (`Counts.foldl_add_perm`).
* A batch counts its events type by type.  In the end that is to count, in the order of the events,
  what each of them adds to its metric (`Counts.recordEvents_ofList`).
-/

set_option autoImplicit false

namespace SpikeWatch

/-- Something that was counted live, and when. -/
structure Occurrence where
  time : Instant
  metric : Metric
  version : String
  session : String
  deriving DecidableEq

/-- Whether something occurred under a metric and in a version. -/
def Occurrence.isOf (m : Metric) (v : String) (o : Occurrence) : Bool :=
  o.metric = m ∧ o.version = v

/-- What an event adds to the live count of a metric. -/
def Event.occurrence (now : Instant) (m : Metric) (e : Event) : Occurrence :=
  ⟨now, m, e.context.appVersion, e.context.sessionId⟩

/-- What an event adds to the live counts, if anything. -/
def Event.occurrence? (now : Instant) (e : Event) : Option Occurrence :=
  e.metric?.map fun m => e.occurrence now m

theorem Event.time_of_mem_occurrences {now : Instant} {events : List Event} {o : Occurrence}
    (h : o ∈ events.filterMap (Event.occurrence? now)) : o.time = now := by
  obtain ⟨e, -, he⟩ := List.mem_filterMap.1 h
  obtain ⟨m, -, rfl⟩ := Option.map_eq_some_iff.1 he
  rfl

theorem Entry.again_comm (now : Instant) (s s' : String) (e : Entry) :
    (e.again now s).again now s' = (e.again now s').again now s := by
  simp only [again]
  congr 1
  refine Std.ExtTreeSet.ext_mem fun k => ?_
  simp [or_left_comm]

namespace Counts

/-! ## Counting in any order -/

/-- Counts an occurrence at its own instant. -/
def add (counts : Counts) (o : Occurrence) : Counts :=
  counts.record o.time o.metric o.version o.session

theorem getElem?_add (counts : Counts) (o : Occurrence) (m : Metric) (v : String) :
    ((counts.add o).table m)[v]? =
      if o.isOf m v then
        some (((counts.table m)[v]?.getD (.new v o.time)).again o.time o.session)
      else (counts.table m)[v]? := by
  rw [add, table_record, Occurrence.isOf]
  by_cases hm : o.metric = m
  · rw [if_pos hm, VersionTable.getElem?_record]
    by_cases hv : o.version = v
    · simp [hm, hv]
    · simp [hv]
  · simp [hm]

/-- Counts are the same if their entries are. -/
theorem ext_getElem? {counts counts' : Counts}
    (h : ∀ (m : Metric) (v : String), (counts.table m)[v]? = (counts'.table m)[v]?) :
    counts = counts' := by
  have htable : ∀ m, counts.table m = counts'.table m := fun m =>
    Std.ExtTreeMap.ext_getElem? fun {v} => h m v
  obtain ⟨crash, exception, jank⟩ := counts
  obtain ⟨crash', exception', jank'⟩ := counts'
  cases htable .crash
  cases htable .exception
  cases htable .jank
  rfl

theorem add_right_comm (counts : Counts) {o o' : Occurrence} (h : o.time = o'.time) :
    (counts.add o).add o' = (counts.add o').add o := by
  refine ext_getElem? fun m v => ?_
  simp only [getElem?_add]
  by_cases ho : o.isOf m v = true
  · by_cases ho' : o'.isOf m v = true
    · rw [if_pos ho, if_pos ho', if_pos ho, if_pos ho', h]
      exact congrArg some (Entry.again_comm ..)
    · simp [ho, ho']
  · simp [ho]

theorem foldl_add_perm (counts : Counts) {now : Instant} {os os' : List Occurrence}
    (h : os.Perm os') (hnow : ∀ o ∈ os, o.time = now) :
    os.foldl add counts = os'.foldl add counts :=
  h.foldl_eq' (fun o ho o' ho' z => z.add_right_comm ((hnow o ho).trans (hnow o' ho').symm)) counts

/-! ## Counting events -/

theorem recordAll_eq (counts : Counts) (now : Instant) (m : Metric) (events : List Event) :
    counts.recordAll now m events = (events.map (Event.occurrence now m)).foldl add counts := by
  rw [List.foldl_map]
  rfl

/-- The events of the three types that are counted make up all that events add. -/
theorem occurrences_perm (now : Instant) (events : List Event) :
    ((events.filter (·.type = .crash)).map (Event.occurrence now .crash) ++
      ((events.filter (·.type = .exception)).map (Event.occurrence now .exception) ++
        (events.filter (·.type = .jank)).map (Event.occurrence now .jank))).Perm
      (events.filterMap (Event.occurrence? now)) := by
  induction events with
  | nil => exact .nil
  | cons e events ih =>
    -- an event of the second or the third type comes to the front of what stands before its own
    rw [List.filterMap_cons, Event.occurrence?, Event.metric?]
    cases htype : e.type with
    | crash => simpa [htype, EventType.metric?] using ih
    | exception => simpa [htype, EventType.metric?] using List.perm_middle.trans (ih.cons _)
    | jank =>
      rw [← List.append_assoc] at ih ⊢
      simpa [htype, EventType.metric?] using List.perm_middle.trans (ih.cons _)
    | _ => simpa [htype, EventType.metric?] using ih

/-- **Events may be counted in their own order.**  A batch counts them type by type, and each of the
three types has its metric. -/
theorem recordEvents_ofList (counts : Counts) (now : Instant) (events : List Event) :
    counts.recordEvents now (.ofList events) =
      (events.filterMap (Event.occurrence? now)).foldl add counts := by
  have hcollection := EventsByType.get_ofList events
  have hcrashes : (EventsByType.ofList events).crashes = _ := hcollection .crash
  have hexceptions : (EventsByType.ofList events).exceptions = _ := hcollection .exception
  have hjanks : (EventsByType.ofList events).janks = _ := hcollection .jank
  rw [recordEvents, hcrashes, hexceptions, hjanks, recordAll_eq, recordAll_eq, recordAll_eq,
    ← List.foldl_append, ← List.foldl_append]
  have hperm := (occurrences_perm now events).symm
  exact (foldl_add_perm counts hperm fun o => Event.time_of_mem_occurrences).symm

theorem recordEvents_perm (counts : Counts) (now : Instant) {events events' : List Event}
    (h : events.Perm events') :
    counts.recordEvents now (.ofList events) = counts.recordEvents now (.ofList events') := by
  rw [recordEvents_ofList, recordEvents_ofList]
  exact foldl_add_perm counts (h.filterMap _) fun o => Event.time_of_mem_occurrences

theorem recordEvents_append (counts : Counts) (now : Instant) (events more : List Event) :
    counts.recordEvents now (.ofList (events ++ more)) =
      (counts.recordEvents now (.ofList events)).recordEvents now (.ofList more) := by
  simp only [recordEvents_ofList, List.filterMap_append, List.foldl_append]

end Counts

end SpikeWatch
