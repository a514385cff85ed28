import SpikeWatch.Event.Basic

/-!
# Storing events

A store takes accepted events, those of one type at a time.  The memory store keeps them, each type
in a collection of its own, unless the table of the type was made to fail; the log store only says
that it was there.

An insert gives back the store in any case, also when it fails: what a failed insert leaves behind
is for its steps to decide, and not for whoever calls it.
-/

set_option autoImplicit false

namespace SpikeWatch

/-- Why events could not be stored. -/
inductive StoreError where
  | insert (table reason : String)
  | unavailable (reason : String)
  deriving DecidableEq

/-- What is said about a failed insert. -/
def StoreError.message : StoreError → String
  | insert table reason => "Failed to insert into " ++ table ++ ": " ++ reason
  | unavailable reason => "Storage unavailable: " ++ reason

/-! ## Collections -/

/-- Events by their type.  Each collection is in the order in which its events came. -/
structure EventsByType where
  perfSamples : List Event := []
  janks : List Event := []
  startups : List Event := []
  sceneLoads : List Event := []
  exceptions : List Event := []
  crashes : List Event := []
  deriving DecidableEq

namespace EventsByType

/-- Puts an event at the end of the collection that its details belong to. -/
def push (es : EventsByType) (e : Event) : EventsByType :=
  match e.details with
  | .perfSample _ => { es with perfSamples := es.perfSamples ++ [e] }
  | .jank _ => { es with janks := es.janks ++ [e] }
  | .startup _ => { es with startups := es.startups ++ [e] }
  | .sceneLoad _ => { es with sceneLoads := es.sceneLoads ++ [e] }
  | .exception _ => { es with exceptions := es.exceptions ++ [e] }
  | .crash _ => { es with crashes := es.crashes ++ [e] }

/-- Sorts events into the collections of their types. -/
def ofList (events : List Event) : EventsByType := events.foldl push {}

/-- The collection of a type. -/
def get (es : EventsByType) : EventType → List Event
  | .perfSample => es.perfSamples
  | .jank => es.janks
  | .startup => es.startups
  | .sceneLoad => es.sceneLoads
  | .exception => es.exceptions
  | .crash => es.crashes

/-- The number of events of a type. -/
def count (es : EventsByType) : EventType → Nat
  | .perfSample => es.perfSamples.length
  | .jank => es.janks.length
  | .startup => es.startups.length
  | .sceneLoad => es.sceneLoads.length
  | .exception => es.exceptions.length
  | .crash => es.crashes.length

/-- The number of events of all types. -/
def len (es : EventsByType) : Nat :=
  EventType.all.foldl (fun total type => total + es.count type) 0

/-- No event of any type. -/
def isEmpty (es : EventsByType) : Bool := es.len == 0

end EventsByType

/-! ## The memory store -/

/-- The events kept in memory, and the types whose tables fail. -/
structure MemoryStore where
  events : EventsByType := {}
  failing : List EventType := []

namespace MemoryStore

/-- The stored events of a type, in the order in which they came. -/
def ofType (s : MemoryStore) (type : EventType) : List Event := s.events.get type

/-- Makes all later inserts into the table of a type fail. -/
def failOn (s : MemoryStore) (type : EventType) : MemoryStore :=
  { s with failing := type :: s.failing }

/-- Refuses a type whose table was made to fail. -/
def check (s : MemoryStore) (type : EventType) : Except StoreError Unit :=
  if s.failing.contains type then .error (.unavailable (type.name ++ " table is failing"))
  else .ok ()

/-- A way to change one of the collections. -/
abbrev Selector := (List Event → List Event) → EventsByType → EventsByType

/-- Stores events in the selected collection, if the table of the type does not fail.  If there is
nothing to store, this is fine without a look at the table. -/
def insertWith (s : MemoryStore) (type : EventType) (events : List Event) (select : Selector) :
    MemoryStore × Except StoreError Unit :=
  if events.isEmpty then (s, .ok ())
  else match s.check type with
    -- nothing has been changed up to here
    | .error e => (s, .error e)
    | .ok () => ({ s with events := select (· ++ events) s.events }, .ok ())

/-- Stores samples. -/
def insertPerfSamples (s : MemoryStore) (events : List Event) :=
  s.insertWith .perfSample events fun change es => { es with perfSamples := change es.perfSamples }

/-- Stores janks. -/
def insertJanks (s : MemoryStore) (events : List Event) :=
  s.insertWith .jank events fun change es => { es with janks := change es.janks }

/-- Stores starts. -/
def insertStartups (s : MemoryStore) (events : List Event) :=
  s.insertWith .startup events fun change es => { es with startups := change es.startups }

/-- Stores loaded scenes. -/
def insertSceneLoads (s : MemoryStore) (events : List Event) :=
  s.insertWith .sceneLoad events fun change es => { es with sceneLoads := change es.sceneLoads }

/-- Stores exceptions. -/
def insertExceptions (s : MemoryStore) (events : List Event) :=
  s.insertWith .exception events fun change es => { es with exceptions := change es.exceptions }

/-- Stores crashes. -/
def insertCrashes (s : MemoryStore) (events : List Event) :=
  s.insertWith .crash events fun change es => { es with crashes := change es.crashes }

/-- The insert for the events of a type. -/
def insert (s : MemoryStore) :
    EventType → List Event → MemoryStore × Except StoreError Unit
  | .perfSample => s.insertPerfSamples
  | .jank => s.insertJanks
  | .startup => s.insertStartups
  | .sceneLoad => s.insertSceneLoads
  | .exception => s.insertExceptions
  | .crash => s.insertCrashes

end MemoryStore

/-! ## Stores -/

/-- Where accepted events go. -/
inductive Store where
  | memory (s : MemoryStore)
  | log

namespace Store

/-- Stores events in the table of a type. -/
def insert (type : EventType) (events : List Event) : Store → Store × Except StoreError Unit
  | memory s =>
    let (s, answer) := s.insert type events
    (memory s, answer)
  | log => (log, .ok ())

/-- Makes all later inserts into the table of a type fail; the log has no tables. -/
def failOn (type : EventType) : Store → Store
  | memory s => memory (s.failOn type)
  | log => log

end Store

end SpikeWatch
