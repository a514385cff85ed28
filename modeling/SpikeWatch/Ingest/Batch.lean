import SpikeWatch.Json.Record

/-!
# Batches

The body of a request: a record with the raw events, and a key of the application that is read but
not used.
-/

set_option autoImplicit false

namespace SpikeWatch

open Json (Value Failure)

/-- A batch of raw events as far as it was read. -/
structure Batch where
  /-- Read, and possibly nothing. -/
  appKey : Option (Option String) := none
  events : Option (List Value) := none

namespace Batch

/-- The fields of a batch.  Both may be absent: a body without events is a batch of none. -/
def record : Json.Record Batch where
  name := "EventBatch"
  fields := [
    { name := "app_key"
      optional := true
      isSet := fun batch => batch.appKey.isSome
      read := fun _ batch cur =>
        (Json.readOptionalText cur).map fun (key, cur) =>
          ({ batch with appKey := some key }, cur) },
    { name := "events"
      optional := true
      isSet := fun batch => batch.events.isSome
      read := fun depth batch cur =>
        (Json.readList depth Json.readValue cur).map fun (events, cur) =>
          ({ batch with events := some events }, cur) }]

/-- The raw events in the body of a request. -/
def eventsOfText (body : String) : Except Failure (List Value) :=
  (record.ofText {} body).map fun batch => batch.events.getD []

end Batch

end SpikeWatch
