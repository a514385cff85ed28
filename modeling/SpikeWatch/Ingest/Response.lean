import SpikeWatch.Json.Record
import SpikeWatch.Json.Writing

/-!
# Responses

What is answered to a batch: how many events were accepted, how many were rejected, and a line for
each rejected one.  A response is written as an object, without the lines if there are none, and
read back from it.
-/

set_option autoImplicit false

namespace SpikeWatch

/-- The answer to a batch. -/
structure Response where
  accepted : Nat
  rejected : Nat
  errors : List String
  deriving DecidableEq

namespace Response

/-- The response as text. -/
def text (r : Response) : String :=
  String.ofList <| Json.writeObject <|
    [("accepted", Json.writeNat r.accepted), ("rejected", Json.writeNat r.rejected)] ++
      if r.errors.isEmpty then [] else [("errors", Json.writeList (r.errors.map Json.writeText))]

/-- A response as far as it was read. -/
structure Draft where
  accepted : Option Nat := none
  rejected : Option Nat := none
  errors : Option (List String) := none

/-- The fields of a response.  Only the lines may be left out, since they are not written if there
are none. -/
def record : Json.Record Draft where
  name := "IngestResponse"
  fields := [
    { name := "accepted"
      optional := false
      isSet := fun d => d.accepted.isSome
      read := fun _ d cur =>
        (Json.readSize cur).map fun (n, cur) => ({ d with accepted := some n }, cur) },
    { name := "rejected"
      optional := false
      isSet := fun d => d.rejected.isSome
      read := fun _ d cur =>
        (Json.readSize cur).map fun (n, cur) => ({ d with rejected := some n }, cur) },
    { name := "errors"
      optional := true
      isSet := fun d => d.errors.isSome
      read := fun depth d cur =>
        (Json.readList depth (fun _ => Json.readText) cur).map fun (errors, cur) =>
          ({ d with errors := some errors }, cur) }]

/-- The response that a text stands for. -/
def ofText (s : String) : Except Json.Failure Response :=
  (record.ofText {} s).map fun d =>
    ⟨d.accepted.getD 0, d.rejected.getD 0, d.errors.getD []⟩

end Response

end SpikeWatch
