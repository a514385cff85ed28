import SpikeWatch.Event.Decode
import SpikeWatch.Ingest.Envelope
import SpikeWatch.Ingest.Limits
import SpikeWatch.Label

/-!
# Judging one event

`judge` turns a raw event into an accepted one, or says why it is rejected.  It looks at nothing
but the event, the limits and the present, so each event of a batch is judged on its own.
-/

set_option autoImplicit false

namespace SpikeWatch

open Json (Value)

/-- Why an event is rejected. -/
inductive Rejection where
  /-- The event has no envelope. -/
  | invalidFormat
  | unknownType (name : String)
  /-- The timestamp lies outside the range of instants. -/
  | unrepresentableTime
  | malformed (type : EventType) (mismatch : Mismatch)
  | invalid (violation : Violation)

/-- What the response says about a rejected event, behind the number of its place. -/
def Rejection.message : Rejection → String
  | invalidFormat => "invalid format"
  | unknownType name => "unknown event type \"" ++ name ++ "\""
  | unrepresentableTime => "invalid timestamp"
  | malformed type mismatch =>
    "malformed " ++ type.name ++ " payload: " ++ mismatch.message .exchange
  | invalid violation => violation.message

/-- The instant that a timestamp means: the present, if it is absent or zero. -/
def resolveTime (now : Instant) (timestamp : Option Int) : Except Rejection Instant :=
  match timestamp with
  | none => .ok now
  | some millis =>
    if millis = 0 then .ok now
    else match Instant.ofMillis? millis with
      | some t => .ok t
      | none => .error .unrepresentableTime

/-- Puts the timestamp into an event, and its labels in the place of what the client wrote. -/
def Event.settle (timestamp : Instant) (e : Event) : Event :=
  { e with
    context := { e.context with
      timestamp
      platform := platformLabel e.context.platform
      deviceModel := deviceModelLabel e.context.deviceModel } }

/-- The accepted event that a raw event stands for, or why it is rejected. -/
def judge (limits : Limits) (now : Instant) (raw : Value) : Except Rejection Event :=
  match Envelope.ofValue? raw with
  | none => .error .invalidFormat
  | some envelope =>
    -- the type is looked up before the timestamp is, so an event with neither is rejected for its
    -- type
    match EventType.ofName? envelope.typeName with
    | none => .error (.unknownType envelope.typeName)
    | some type =>
      match resolveTime now envelope.timestamp with
      | .error r => .error r
      | .ok timestamp =>
        match Event.decode type raw with
        | .error m => .error (.malformed type m)
        | .ok decoded =>
          let event := decoded.settle timestamp
          -- the labels are checked, and not what the client wrote: a platform of blanks only has
          -- none
          match limits.check now event with
          | .error v => .error (.invalid v)
          | .ok () => .ok event

end SpikeWatch
