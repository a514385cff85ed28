import SpikeWatch.Event.Basic
import SpikeWatch.Json.Value

/-!
# Events from JSON values

A payload is an object.  Members that no field of the type or of the context goes by are not looked
at, and a field without a member keeps its default; a member of the wrong kind makes the payload
malformed.  Fields are read in the alphabetical order of their names, those of the type before
those of the context, so that the mismatch reported is the first in this order.
-/

set_option autoImplicit false

namespace SpikeWatch

open Json (Value)

/-! ## Fields -/

namespace Payload

/-- The members of an object. -/
abbrev Members := List (String × Value)

/-- Reads the member of the given name, if there is one. -/
def field {α : Type} (members : Members) (name : String) (read : Value → Except Mismatch α)
    (default : α) : Except Mismatch α :=
  match members.lookup name with
  | none => .ok default
  | some value => read value

/-- A text; a number is not turned into one. -/
def readText : Value → Except Mismatch String
  | .text s => .ok s
  | v => .error (.wrongType v.found .text)

/-- A list of texts.  The first item that is none makes the whole list a mismatch. -/
def readTexts : Value → Except Mismatch (List String)
  | .array items => items.mapM readText
  | v => .error (.wrongType v.found .sequence)

/-- A number is rounded to thirty-two bits, from the integer if it is one. -/
def readSingle : Value → Except Mismatch Single
  | .number (.whole n) => .ok (.ofInt n)
  | .number (.real x) => .ok (x.convert .single)
  | v => .error (.wrongType v.found .single)

/-- A whole number of thirty-two bits without a sign. -/
def readCount : Value → Except Mismatch UInt32
  | .number (.whole n) =>
    if 0 ≤ n ∧ n < UInt32.size then .ok (.ofNat n.toNat)
    else .error (.wrongValue (.integer n) .unsigned32)
  | v => .error (.wrongType v.found .unsigned32)

variable (members : Members)

/-- The text of the given name, which is empty if there is none. -/
def text (name : String) : Except Mismatch String := field members name readText ""

/-- The texts of the given name, of which there are none by default. -/
def texts (name : String) : Except Mismatch (List String) := field members name readTexts []

/-- The measurement of the given name, which is zero if there is none. -/
def single (name : String) : Except Mismatch Single := field members name readSingle (.zero false)

/-- The count of the given name, which is zero if there is none. -/
def count (name : String) : Except Mismatch UInt32 := field members name readCount 0

end Payload

open Payload

/-! ## Records -/

/-- The context, but for the timestamp: that is not taken from the payload. -/
def Context.ofMembers (members : Members) : Except Mismatch Context := do
  let appVersion ← text members "app_version"
  let build ← text members "build"
  let country ← text members "country"
  let cpu ← text members "cpu"
  let deviceId ← text members "device_id"
  let deviceModel ← text members "device_model"
  let gpu ← text members "gpu"
  let levelId ← text members "level_id"
  let netType ← text members "net_type"
  let osVersion ← text members "os_version"
  let platform ← text members "platform"
  let ramClass ← text members "ram_class"
  let scene ← text members "scene"
  let sessionId ← text members "session_id"
  let unityVersion ← text members "unity_version"
  let userId ← text members "user_id"
  return { appVersion, build, country, cpu, deviceId, deviceModel, gpu, levelId, netType, osVersion,
           platform, ramClass, scene, sessionId, unityVersion, userId }

/-- The measurements of a sample, in the order of their names. -/
def PerfSample.ofMembers (members : Members) : Except Mismatch PerfSample := do
  let fps ← single members "fps"
  let frameTimeMs ← single members "frame_time_ms"
  let gcAllocKb ← single members "gc_alloc_kb"
  let mainThreadMs ← single members "main_thread_ms"
  let memMb ← single members "mem_mb"
  return { fps, frameTimeMs, gcAllocKb, mainThreadMs, memMb }

/-- What is known about a jank, in the order of the names. -/
def Jank.ofMembers (members : Members) : Except Mismatch Jank := do
  let durationMs ← single members "duration_ms"
  let maxFrameMs ← single members "max_frame_ms"
  let recentEvents ← texts members "recent_events"
  let recentGcAllocKb ← single members "recent_gc_alloc_kb"
  let recentGcCount ← count members "recent_gc_count"
  return { durationMs, maxFrameMs, recentEvents, recentGcAllocKb, recentGcCount }

/-- The times of a start, in the order of their names. -/
def Startup.ofMembers (members : Members) : Except Mismatch Startup := do
  let phase1Ms ← single members "phase1_ms"
  let phase2Ms ← single members "phase2_ms"
  let ttiMs ← single members "tti_ms"
  return { phase1Ms, phase2Ms, ttiMs }

/-- The times of loading a scene, and which scene it was. -/
def SceneLoad.ofMembers (members : Members) : Except Mismatch SceneLoad := do
  let activateMs ← single members "activate_ms"
  let loadMs ← single members "load_ms"
  let sceneName ← text members "scene_name"
  return { activateMs, loadMs, sceneName }

/-- What is known about an exception.  How often it occurred is the client's own count. -/
def ExceptionReport.ofMembers (members : Members) : Except Mismatch ExceptionReport := do
  let count ← Payload.count members "count"
  let fingerprint ← text members "fingerprint"
  let message ← text members "message"
  let stack ← text members "stack"
  return { count, fingerprint, message, stack }

/-- What is known about a crash. -/
def Crash.ofMembers (members : Members) : Except Mismatch Crash := do
  let breadcrumbs ← texts members "breadcrumbs"
  let crashType ← text members "crash_type"
  let fingerprint ← text members "fingerprint"
  let stack ← text members "stack"
  return { breadcrumbs, crashType, fingerprint, stack }

/-- The details of an event of the given type. -/
def Details.ofMembers (type : EventType) (members : Members) : Except Mismatch Details :=
  match type with
  | .perfSample => (PerfSample.ofMembers members).map .perfSample
  | .jank => (Jank.ofMembers members).map .jank
  | .startup => (Startup.ofMembers members).map .startup
  | .sceneLoad => (SceneLoad.ofMembers members).map .sceneLoad
  | .exception => (ExceptionReport.ofMembers members).map .exception
  | .crash => (Crash.ofMembers members).map .crash

/-- The event of the given type in a payload, at the beginning of 1970. -/
def Event.decode (type : EventType) : Value → Except Mismatch Event
  | .object members => do
    -- a mismatch of the type is reported before one of the context, whatever their names are
    let details ← Details.ofMembers type members
    let context ← Context.ofMembers members
    return { context, details }
  | v => .error (.wrongType v.found (.record type.recordName))

end SpikeWatch
