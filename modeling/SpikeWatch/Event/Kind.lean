/-!
# Kinds of events

The six types of events that clients report, and the three metrics that are counted while they
happen.  Both have the names under which clients, rules and settings know them.
-/

set_option autoImplicit false

namespace SpikeWatch

/-- What an event reports. -/
inductive EventType where
  | perfSample
  | jank
  | startup
  | sceneLoad
  | exception
  | crash
  deriving DecidableEq

/-- What is counted as it happens. -/
inductive Metric where
  | crash
  | exception
  | jank
  deriving DecidableEq

namespace Metric

/-- All metrics, in the order in which they are listed. -/
def all : List Metric := [crash, exception, jank]

/-- The name of a metric in rules and settings. -/
def name : Metric → String
  | crash => "crash"
  | exception => "exception"
  | jank => "jank"

/-- The type of an alert about this metric. -/
def alertType : Metric → String
  | crash => "crash_rate"
  | exception => "exception_rate"
  | jank => "jank_rate"

/-- The metric of a name. -/
def ofName? (name : String) : Option Metric := all.find? (·.name = name)

end Metric

namespace EventType

/-- All types, in the order in which they are listed. -/
def all : List EventType := [perfSample, jank, startup, sceneLoad, exception, crash]

/-- The name of a type in events and in messages. -/
def name : EventType → String
  | perfSample => "perf_sample"
  | jank => "jank"
  | startup => "startup"
  | sceneLoad => "scene_load"
  | exception => "exception"
  | crash => "crash"

/-- The name of the record that holds an event of this type. -/
def recordName : EventType → String
  | perfSample => "PerfSample"
  | jank => "Jank"
  | startup => "Startup"
  | sceneLoad => "SceneLoad"
  | exception => "Exception"
  | crash => "Crash"

/-- The type of a name. -/
def ofName? (name : String) : Option EventType := all.find? (·.name = name)

/-- The metric that an event of this type adds to, if any. -/
def metric? : EventType → Option Metric
  | jank => some .jank
  | exception => some .exception
  | crash => some .crash
  | _ => none

theorem ofName?_name (t : EventType) : ofName? t.name = some t := by cases t <;> decide

theorem ofName?_eq_some_iff {name : String} {t : EventType} :
    ofName? name = some t ↔ name = t.name := by
  constructor
  · intro h
    have hname := List.find?_some h
    exact (of_decide_eq_true hname).symm
  · rintro rfl
    exact ofName?_name t

end EventType

end SpikeWatch
