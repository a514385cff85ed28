import SpikeWatch.Proofs.Store
import Mathlib

/-!
# Runs of a memory store

A memory store is called in any order: to store events of one type, or to let a table fail from now
on.  What is in a table depends on the calls about its type alone.

* `MemoryStore.call` is one call with its answer.  `ofType_call`, `mem_failing_call`,
  `call_eq_error_iff` and `call_of_error` are all that it does.
* `ofType_after` and `mem_failing_after` say the same of calls in a row: a table holds what was
  given to it before it was made to fail for the first time (`kept`).
* `after_exact` is a whole run, from an empty store on.
-/

set_option autoImplicit false

namespace SpikeWatch

namespace MemoryStore

/-! ## Calls -/

/-- Events of one type, as they are given to its table. -/
structure Batch where
  type : EventType
  events : List Event
  typed : ∀ e ∈ events, e.type = type

/-- What a store is called for. -/
inductive Call where
  | insert (batch : Batch)
  | failOn (type : EventType)

namespace Call

/-- The type whose table the call is about. -/
def type : Call → EventType
  | insert batch => batch.type
  | failOn type => type

/-- Whether the call lets the table of a type fail. -/
def fails (type : EventType) : Call → Bool
  | insert _ => false
  | failOn failing => failing = type

/-- What the call gives to the table of a type. -/
def given (type : EventType) : Call → List Event
  | insert batch => if batch.type = type then batch.events else []
  | failOn _ => []

variable {c : Call} {type : EventType}

theorem fails_iff : c.fails type = true ↔ c = .failOn type := by
  cases c <;> simp [fails]

theorem given_of_type_ne (h : c.type ≠ type) : c.given type = [] := by
  cases c with
  | insert batch => exact if_neg h
  | failOn failing => rfl

theorem fails_of_type_ne (h : c.type ≠ type) : c.fails type = false := by
  cases c with
  | insert batch => rfl
  | failOn failing => exact decide_eq_false h

end Call

/-- The store after a call, and what the call answers. -/
def call (s : MemoryStore) : Call → MemoryStore × Except StoreError Unit
  | .insert batch => s.insert batch.type batch.events
  | .failOn type => (s.failOn type, .ok ())

/-- The store after calls in a row. -/
def after (s : MemoryStore) (calls : List Call) : MemoryStore :=
  calls.foldl (fun s c => (s.call c).1) s

/-- What is given to the table of a type before it is made to fail. -/
def kept (type : EventType) (calls : List Call) : List Event :=
  (calls.takeWhile fun c => !c.fails type).flatMap (Call.given type)

/-! ## One call -/

variable {s : MemoryStore} {c : Call} {type : EventType}

/-- An insert is refused if there is something to store and its table fails; nothing else is. -/
theorem call_eq_error_iff {e : StoreError} : (s.call c).2 = .error e ↔
    ∃ batch, c = .insert batch ∧ batch.events ≠ [] ∧ batch.type ∈ s.failing ∧
      e = refusal batch.type := by
  cases c with
  | failOn failing => simp [call]
  | insert batch =>
    rw [call, insert_eq_error_iff]
    simp

theorem call_of_error {e : StoreError} (h : (s.call c).2 = .error e) : (s.call c).1 = s := by
  cases c with
  | failOn failing => cases h
  | insert batch => exact insert_of_error h

theorem mem_failing_call :
    type ∈ (s.call c).1.failing ↔ type ∈ s.failing ∨ c.fails type = true := by
  cases c with
  | failOn failing => simp [call, failOn, Call.fails, eq_comm, or_comm]
  | insert batch => simp [call, Call.fails]

/-- A table grows by what is given to it, unless it fails. -/
theorem ofType_call (s : MemoryStore) (c : Call) (type : EventType) :
    (s.call c).1.ofType type =
      s.ofType type ++ if type ∈ s.failing then [] else c.given type := by
  cases c with
  | failOn failing => simp [call, Call.given, ofType, failOn]
  | insert batch =>
    rw [call, ofType_insert, Call.given]
    by_cases htype : batch.type = type
    · simp [htype]
    · simp [htype, Ne.symm htype]

/-- All tables together hold all events. -/
theorem len_events_eq_sum (s : MemoryStore) :
    s.events.len = (EventType.all.map fun type => (s.ofType type).length).sum := by
  rw [EventsByType.len, List.sum_eq_foldl, List.foldl_map, funext s.events.count_eq]
  rfl

/-! ## Calls in a row -/

theorem mem_failing_after (s : MemoryStore) (calls : List Call) :
    type ∈ (s.after calls).failing ↔ type ∈ s.failing ∨ .failOn type ∈ calls := by
  induction calls generalizing s with
  | nil => simp [after]
  | cons c calls ih =>
    have hrest := ih (s.call c).1
    rw [mem_failing_call, Call.fails_iff] at hrest
    rw [after, List.foldl_cons, ← after, hrest, List.mem_cons, or_assoc, @eq_comm _ c]

/-- **A table grows by what is given to it before it is made to fail.** -/
theorem ofType_after (s : MemoryStore) (calls : List Call) (type : EventType) :
    (s.after calls).ofType type =
      s.ofType type ++ if type ∈ s.failing then [] else kept type calls := by
  induction calls generalizing s with
  | nil => simp [after, kept]
  | cons c calls ih =>
    rw [after, List.foldl_cons, ← after, ih, ofType_call, List.append_assoc]
    congr 1
    by_cases hfailing : type ∈ s.failing
    · simp [hfailing, mem_failing_call]
    · cases hfails : c.fails type with
      | true =>
        obtain rfl := Call.fails_iff.1 hfails
        simp [kept, hfailing, mem_failing_call, Call.fails, Call.given]
      | false => simp [kept, hfailing, mem_failing_call, hfails]

/-- Calls about other types make no difference. -/
theorem kept_filter (type : EventType) (calls : List Call) :
    kept type (calls.filter fun c => c.type = type) = kept type calls := by
  induction calls with
  | nil => rfl
  | cons c calls ih =>
    rw [kept, kept] at ih ⊢
    by_cases htype : c.type = type
    · rw [List.filter_cons_of_pos (by simpa using htype), List.takeWhile_cons, List.takeWhile_cons]
      split
      · rw [List.flatMap_cons, List.flatMap_cons, ih]
      · rfl
    · rw [List.filter_cons_of_neg (by simpa using htype), ih, List.takeWhile_cons,
        Call.fails_of_type_ne htype, Bool.not_false, if_pos rfl, List.flatMap_cons,
        Call.given_of_type_ne htype, List.nil_append]

/-- **What a memory store does.**  It is empty at first and is called in any order.  Then the table
of a type holds all that was given to it, in order, before it was made to fail for the first time;
the tables together hold all events; and the same calls about a type lead to the same table,
whatever the calls about others are.  The next call is refused just if it is an insert of something
into a table that was made to fail; a call that is refused changes nothing, and no call changes the
table of a type that it is not about. -/
theorem after_exact (calls : List Call) :
    let s := ({} : MemoryStore).after calls
    (∀ type, s.ofType type =
      (calls.takeWhile fun c => !c.fails type).flatMap (Call.given type)) ∧
    s.events.len = (EventType.all.map fun type => (s.ofType type).length).sum ∧
    (∀ type (others : List Call),
      (others.filter fun c => c.type = type) = (calls.filter fun c => c.type = type) →
        (({} : MemoryStore).after others).ofType type = s.ofType type) ∧
    ∀ c : Call,
      (∀ e, (s.call c).2 = .error e ↔ ∃ batch, c = .insert batch ∧ batch.events ≠ [] ∧
        .failOn batch.type ∈ calls ∧
          e = .unavailable (batch.type.name ++ " table is failing")) ∧
      (∀ e, (s.call c).2 = .error e → (s.call c).1 = s) ∧
      ∀ type, type ≠ c.type → (s.call c).1.ofType type = s.ofType type := by
  intro s
  have htable (calls : List Call) (type : EventType) :
      (({} : MemoryStore).after calls).ofType type = kept type calls := by
    rw [ofType_after]
    exact congrArg (· ++ kept type calls) (Store.ofType_empty type)
  have hfailing (type : EventType) : type ∈ s.failing ↔ .failOn type ∈ calls := by
    simp [s, mem_failing_after]
  refine ⟨htable calls, len_events_eq_sum s, fun type others hsame => ?_, fun c => ⟨fun e => ?_,
    fun e => call_of_error, fun type htype => ?_⟩⟩
  · rw [htable, htable, ← kept_filter, hsame, kept_filter]
  · simp only [call_eq_error_iff, hfailing, refusal]
  · rw [ofType_call, Call.given_of_type_ne htype.symm, ite_self, List.append_nil]

/-- A jank comes in before its table fails and another one after that, with a crash between them. -/
theorem after_exact_refused :
    let jank : Event := { context := {}, details := .jank {} }
    let crash : Event := { context := {}, details := .crash {} }
    let janks : Call := .insert ⟨.jank, [jank], by decide⟩
    let calls := [janks, .failOn .jank, .insert ⟨.crash, [crash], by decide⟩]
    let s := ({} : MemoryStore).after calls
    s.ofType .jank = [jank] ∧ s.ofType .crash = [crash] ∧ s.events.len = 2 ∧
      (s.call janks).2 = .error (.unavailable "jank table is failing") ∧
      (s.call janks).1 = s := by
  intro jank crash janks calls s
  obtain ⟨htable, hsize, -, hcall⟩ := after_exact calls
  obtain ⟨hrefused, hunchanged, -⟩ := hcall janks
  have hanswer : (s.call janks).2 = .error (.unavailable "jank table is failing") :=
    (hrefused _).2 ⟨⟨.jank, [jank], by decide⟩, rfl, by decide, .tail _ (.head _), rfl⟩
  exact ⟨htable .jank, htable .crash, hsize, hanswer, hunchanged _ hanswer⟩

end MemoryStore

end SpikeWatch
