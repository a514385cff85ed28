import SpikeWatch.Event.Basic

/-!
# What makes an event acceptable

An event must say when and where it happened: its timestamp lies within limits around the present,
and the fields that others are grouped by are filled in.  `Limits.check` reports the first
requirement that an event does not meet.
-/

set_option autoImplicit false

namespace SpikeWatch

/-- A requirement that an event does not meet. -/
inductive Violation where
  | timestamp
  | appVersion
  | platform
  | deviceId
  | sessionId
  | sceneName
  | fingerprint
  deriving DecidableEq

/-- What is said about a requirement that is not met.  It does not tell a timestamp that lies too
far back from one that lies too far ahead, or from one that is missing. -/
def Violation.message : Violation → String
  | timestamp => "invalid timestamp"
  | appVersion => "missing app_version"
  | platform => "missing platform"
  | deviceId => "missing device_id"
  | sessionId => "missing session_id"
  | sceneName => "missing scene_name"
  | fingerprint => "missing fingerprint"

/-- How far the timestamp of an event may lie from the present. -/
structure Limits where
  /-- Events must be younger than this. -/
  maxAge : Duration := .ofDays 7
  /-- Events may lie this far ahead, but no farther. -/
  maxSkew : Duration := .ofHours 1
  deriving DecidableEq

namespace Limits

/-- Whether a timestamp is acceptable.  The first millisecond of 1970 means that there is none.  A
limit that lies outside the range of instants does not exclude anything. -/
def allowsTime (limits : Limits) (now timestamp : Instant) : Bool :=
  timestamp.millis != 0 &&
    (match now.sub? limits.maxAge with
      | some oldest => decide (oldest < timestamp)
      | none => true) &&
    (match now.add? limits.maxSkew with
      | some latest => decide (timestamp ≤ latest)
      | none => true)

/-- The requirements of the type of an event on its details. -/
def checkDetails : Details → Except Violation Unit
  | .sceneLoad d => if d.sceneName.isEmpty then .error .sceneName else .ok ()
  | .exception d => if d.fingerprint.isEmpty then .error .fingerprint else .ok ()
  | .crash d => if d.fingerprint.isEmpty then .error .fingerprint else .ok ()
  | _ => .ok ()

/-- The first requirement that an event does not meet, if there is one. -/
def check (limits : Limits) (now : Instant) (e : Event) : Except Violation Unit :=
  if !limits.allowsTime now e.context.timestamp then .error .timestamp
  else if e.context.appVersion.isEmpty then .error .appVersion
  else if e.context.platform.isEmpty then .error .platform
  else if e.context.deviceId.isEmpty then .error .deviceId
  else if e.context.sessionId.isEmpty then .error .sessionId
  -- all types of events share the requirements so far; those of one type come last
  else checkDetails e.details

end Limits

end SpikeWatch
