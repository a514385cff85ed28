import SpikeWatch.Store
import Mathlib.Data.List.Basic

/-!
# What a store keeps

Events are stored type by type, so collections and stores are looked at through their types.

* `EventsByType.get_push` says where an event goes, and `EventsByType.len_push` that it is counted
  once.  So `EventsByType.ofList` sorts a list by types and loses nothing (`get_ofList`,
  `len_ofList`).
* `MemoryStore.Selector.Selects` says of a way to change one collection whose collection it is.
  Each of the six inserts is made with that of its own type (`MemoryStore.insert_eq_insertWith`),
  and all else about them follows from that.
* `Store.ofType` is the table of a type, and `Store.keeps` says whether what is inserted into it
  stays: not if the table was made to fail, and never in the log.
* `Store.failing?` are the types whose tables were made to fail.  All that is known about failures
  rests on them: which events stay (`Store.keeps_eq`) and which inserts are refused
  (`Store.exists_insert_eq_error_iff`), which is not the same in the log.
* `Store.ofType_insert` and `Store.failing?_insert` say what an insert does to the tables: the one
  of its type grows at its end, and nothing else changes.
-/

set_option autoImplicit false

namespace SpikeWatch

theorem EventType.mem_all (type : EventType) : type ∈ all := by cases type <;> decide

namespace EventsByType

/-! ## Collections -/

theorem get_push (es : EventsByType) (e : Event) (type : EventType) :
    (es.push e).get type = if e.type = type then es.get type ++ [e] else es.get type := by
  obtain ⟨context, details⟩ := e
  cases details <;> cases type <;> rfl

theorem count_eq (es : EventsByType) (type : EventType) : es.count type = (es.get type).length := by
  cases type <;> rfl

theorem len_push (es : EventsByType) (e : Event) : (es.push e).len = es.len + 1 := by
  obtain ⟨context, details⟩ := e
  cases details <;> simp [push, len, EventType.all, count] <;> omega

theorem get_foldl_push (es : EventsByType) (events : List Event) (type : EventType) :
    (events.foldl push es).get type = es.get type ++ events.filter (·.type = type) := by
  induction events generalizing es with
  | nil => exact (List.append_nil _).symm
  | cons e events ih =>
    rw [List.foldl_cons, ih, get_push, List.filter_cons]
    by_cases h : e.type = type <;> simp [h]

theorem len_foldl_push (es : EventsByType) (events : List Event) :
    (events.foldl push es).len = es.len + events.length := by
  induction events generalizing es with
  | nil => rfl
  | cons e events ih =>
    rw [List.foldl_cons, ih, len_push, List.length_cons]
    omega

/-- **Events are sorted by their types, and keep their order.** -/
@[simp]
theorem get_ofList (events : List Event) (type : EventType) :
    (ofList events).get type = events.filter (·.type = type) := by
  rw [ofList, get_foldl_push]
  cases type <;> rfl

/-- The collections together hold all events that were sorted into them. -/
@[simp]
theorem len_ofList (events : List Event) : (ofList events).len = events.length := by
  rw [ofList, len_foldl_push]
  exact Nat.zero_add _

end EventsByType

/-! ## Inserts into memory -/

namespace MemoryStore

/-- A selector changes the collection of a type, and no other. -/
def Selector.Selects (select : Selector) (type : EventType) : Prop :=
  ∀ change es t, (select change es).get t = if t = type then change (es.get t) else es.get t

/-- What an insert into a failing table answers. -/
def refusal (type : EventType) : StoreError := .unavailable (type.name ++ " table is failing")

/-- Each type is looked up, and stored, under itself. -/
theorem insert_eq_insertWith (type : EventType) : ∃ select : Selector, select.Selects type ∧
    ∀ (s : MemoryStore) (events : List Event),
      s.insert type events = s.insertWith type events select := by
  cases type <;>
    simp only [insert, insertPerfSamples, insertJanks, insertStartups, insertSceneLoads,
      insertExceptions, insertCrashes] <;>
    refine ⟨_, ?_, fun s events => rfl⟩ <;>
    intro change es t <;> cases t <;> rfl

theorem check_eq (s : MemoryStore) (type : EventType) :
    s.check type = if type ∈ s.failing then .error (refusal type) else .ok () := by
  simp [check, refusal]

variable {s : MemoryStore} {type : EventType} {events : List Event} {e : StoreError}

theorem insert_eq_error_iff :
    (s.insert type events).2 = .error e ↔
      events ≠ [] ∧ type ∈ s.failing ∧ e = refusal type := by
  obtain ⟨select, -, hinsert⟩ := insert_eq_insertWith type
  rw [hinsert, insertWith, check_eq]
  by_cases hnone : events = []
  · simp [hnone]
  · by_cases hfails : type ∈ s.failing <;> simp [hnone, hfails, @eq_comm _ e]

/-- The table is looked at before anything is stored: a refused insert leaves all as it was. -/
theorem insert_of_error (h : (s.insert type events).2 = .error e) :
    (s.insert type events).1 = s := by
  obtain ⟨hsome, hfails, -⟩ := insert_eq_error_iff.1 h
  obtain ⟨select, -, hinsert⟩ := insert_eq_insertWith type
  simp [hinsert, insertWith, check_eq, hsome, hfails]

@[simp]
theorem failing_insert (s : MemoryStore) (type : EventType) (events : List Event) :
    (s.insert type events).1.failing = s.failing := by
  obtain ⟨select, -, hinsert⟩ := insert_eq_insertWith type
  rw [hinsert, insertWith, check_eq]
  by_cases hnone : events.isEmpty
  · rw [if_pos hnone]
  · rw [if_neg hnone]
    by_cases hfails : type ∈ s.failing <;> simp [hfails]

/-- **An insert reaches the collection of its own type alone.** -/
theorem ofType_insert (s : MemoryStore) (type : EventType) (events : List Event)
    (t : EventType) :
    (s.insert type events).1.ofType t =
      s.ofType t ++ if t = type ∧ t ∉ s.failing then events else [] := by
  obtain ⟨select, hselect, hinsert⟩ := insert_eq_insertWith type
  rw [hinsert, insertWith, check_eq]
  by_cases hnone : events = []
  · simp [hnone]
  · rw [if_neg (by simpa using hnone)]
    by_cases hfails : type ∈ s.failing
    · have hnot : ¬ (t = type ∧ t ∉ s.failing) := fun h => h.2 (h.1 ▸ hfails)
      simp [hfails, hnot]
    · by_cases ht : t = type
      · simp [ht, hfails, ofType, hselect _ _ _]
      · simp [ht, hfails, ofType, hselect _ _ _]

end MemoryStore

namespace Store

/-! ## Stores -/

/-- The stored events of a type, in the order in which they came.  The log has none. -/
def ofType (type : EventType) : Store → List Event
  | memory s => s.ofType type
  | log => []

/-- Whether events of a type stay when they are stored. -/
def keeps (type : EventType) : Store → Bool
  | memory s => !s.failing.contains type
  | log => false

/-- The types whose tables were made to fail, the last one first.  The log has no tables. -/
def failing? : Store → Option (List EventType)
  | memory s => some s.failing
  | log => none

/-- Events of a type stay if there is a table for them that was not made to fail. -/
theorem keeps_eq (s : Store) (type : EventType) :
    s.keeps type = s.failing?.any fun failing => !failing.contains type := by
  cases s <;> rfl

@[simp]
theorem ofType_empty (type : EventType) : (memory {}).ofType type = [] := by
  cases type <;> rfl

/-- Nothing is stored without failing. -/
theorem insert_nil (s : Store) (type : EventType) : s.insert type [] = (s, .ok ()) := by
  cases s <;> cases type <;> rfl

@[simp]
theorem failing?_insert (s : Store) (type : EventType) (events : List Event) :
    (s.insert type events).1.failing? = s.failing? := by
  cases s with
  | log => rfl
  | memory m => exact congrArg some (m.failing_insert type events)

theorem ofType_insert (s : Store) (type : EventType) (events : List Event) (t : EventType) :
    (s.insert type events).1.ofType t =
      s.ofType t ++ if t = type ∧ s.keeps t = true then events else [] := by
  cases s with
  | log => simp [insert, ofType, keeps]
  | memory m =>
    refine (m.ofType_insert type events t).trans ?_
    simp [ofType, keeps]

/-- An insert is refused if there is something to store and the table was made to fail. -/
theorem exists_insert_eq_error_iff {s : Store} {type : EventType} {events : List Event} :
    (∃ e, (s.insert type events).2 = .error e) ↔
      events ≠ [] ∧ ∃ failing, s.failing? = some failing ∧ type ∈ failing := by
  cases s with
  | log => simp [insert, failing?]
  | memory m =>
    have herror (e : StoreError) : ((memory m).insert type events).2 = .error e ↔ _ :=
      MemoryStore.insert_eq_error_iff
    simp [herror, failing?]

theorem failing?_failOn (type : EventType) (s : Store) :
    (s.failOn type).failing? = s.failing?.map (type :: ·) := by
  cases s <;> rfl

theorem keeps_failOn (type : EventType) (s : Store) (t : EventType) :
    (s.failOn type).keeps t = (s.keeps t && decide (type ≠ t)) := by
  rw [keeps_eq, keeps_eq, failing?_failOn]
  cases s.failing? with
  | none => rfl
  | some failing =>
    by_cases ht : type = t
    · simp [ht]
    · simp [ht, Ne.symm ht]

/-- What was stored stays when the table fails. -/
theorem ofType_failOn (type : EventType) (s : Store) (t : EventType) :
    (s.failOn type).ofType t = s.ofType t := by
  cases s <;> rfl

end Store

end SpikeWatch
