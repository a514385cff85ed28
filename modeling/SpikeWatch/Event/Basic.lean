import SpikeWatch.Binary.Number
import SpikeWatch.Event.Kind
import SpikeWatch.Time.Instant

/-!
# Events

An event has a context, which is the same for all types, and the details of its type.  Whatever a
client leaves out is empty or zero.
-/

set_option autoImplicit false

namespace SpikeWatch

/-- Where and when an event happened. -/
structure Context where
  timestamp : Instant := .epoch
  appVersion : String := ""
  platform : String := ""
  deviceModel : String := ""
  osVersion : String := ""
  sessionId : String := ""
  deviceId : String := ""
  scene : String := ""
  build : String := ""
  unityVersion : String := ""
  cpu : String := ""
  gpu : String := ""
  ramClass : String := ""
  userId : String := ""
  levelId : String := ""
  netType : String := ""
  country : String := ""
  deriving DecidableEq

/-- A regular sample of performance. -/
structure PerfSample where
  fps : Single := .zero false
  frameTimeMs : Single := .zero false
  mainThreadMs : Single := .zero false
  gcAllocKb : Single := .zero false
  memMb : Single := .zero false
  deriving DecidableEq

/-- A hitch between frames. -/
structure Jank where
  durationMs : Single := .zero false
  maxFrameMs : Single := .zero false
  recentGcCount : UInt32 := 0
  recentGcAllocKb : Single := .zero false
  recentEvents : List String := []
  deriving DecidableEq

/-- The times that the phases of a start took. -/
structure Startup where
  /-- From the launch until the engine is ready. -/
  phase1Ms : Single := .zero false
  /-- From then until the first frame. -/
  phase2Ms : Single := .zero false
  /-- From the first frame until the player can act. -/
  ttiMs : Single := .zero false
  deriving DecidableEq

/-- The times that loading a scene took. -/
structure SceneLoad where
  sceneName : String := ""
  loadMs : Single := .zero false
  activateMs : Single := .zero false
  deriving DecidableEq

/-- An exception that did not end the program.  Like ones have the same fingerprint. -/
structure ExceptionReport where
  fingerprint : String := ""
  message : String := ""
  stack : String := ""
  count : UInt32 := 0
  deriving DecidableEq

/-- A crash.  Like ones have the same fingerprint. -/
structure Crash where
  crashType : String := ""
  fingerprint : String := ""
  stack : String := ""
  breadcrumbs : List String := []
  deriving DecidableEq

/-- What only events of one type have. -/
inductive Details where
  | perfSample (d : PerfSample)
  | jank (d : Jank)
  | startup (d : Startup)
  | sceneLoad (d : SceneLoad)
  | exception (d : ExceptionReport)
  | crash (d : Crash)
  deriving DecidableEq

/-- The type that the details belong to. -/
def Details.type : Details → EventType
  | perfSample _ => .perfSample
  | jank _ => .jank
  | startup _ => .startup
  | sceneLoad _ => .sceneLoad
  | exception _ => .exception
  | crash _ => .crash

/-- An event. -/
structure Event where
  context : Context
  details : Details
  deriving DecidableEq

namespace Event

/-- The type of an event, which its details decide. -/
def type (e : Event) : EventType := e.details.type

/-- The metric that the event adds to, if any. -/
def metric? (e : Event) : Option Metric := e.type.metric?

end Event

end SpikeWatch
