import SpikeWatch.Alert.Rule
import SpikeWatch.Json.Record
import SpikeWatch.Json.Writing
import SpikeWatch.Time.Rfc3339

/-!
# What a webhook is sent

An alert is sent to a webhook as an object, which leaves out an empty version, and can be read back
from it.
-/

set_option autoImplicit false

namespace SpikeWatch

/-- The message about an alert. -/
structure Webhook where
  alertName : String
  alertType : String
  version : String
  value : Double
  threshold : Double
  message : String
  /-- Date and time of day in universal time. -/
  timestamp : String
  deriving DecidableEq

namespace Webhook

/-- The message about an alert.  It is put together from the rule and from what the alert itself
holds, which is what it was made with. -/
def ofAlert (a : Alert) : Webhook where
  alertName := a.rule.name
  alertType := a.rule.metric.alertType
  version := a.version
  value := a.value
  threshold := a.threshold
  message := a.message
  timestamp := a.timestamp.text

/-- The message as text. -/
def text (w : Webhook) : String :=
  String.ofList <| Json.writeObject <|
    [("alert_name", Json.writeText w.alertName), ("alert_type", Json.writeText w.alertType)] ++
      (if w.version.isEmpty then [] else [("app_version", Json.writeText w.version)]) ++
      [("value", Json.writeDouble w.value), ("threshold", Json.writeDouble w.threshold),
        ("message", Json.writeText w.message), ("timestamp", Json.writeText w.timestamp)]

/-- A message as far as it was read. -/
structure Draft where
  alertName : Option String := none
  alertType : Option String := none
  version : Option String := none
  value : Option Double := none
  threshold : Option Double := none
  message : Option String := none
  timestamp : Option String := none

/-- A field that holds a text. -/
def textField (name : String) (optional : Bool) (get : Draft → Option String)
    (set : String → Draft → Draft) : Json.Field Draft where
  name
  optional
  isSet := fun d => (get d).isSome
  read := fun _ d cur => (Json.readText cur).map fun (s, cur) => (set s d, cur)

/-- A field that holds a number. -/
def numberField (name : String) (get : Draft → Option Double) (set : Double → Draft → Draft) :
    Json.Field Draft where
  name
  optional := false
  isSet := fun d => (get d).isSome
  read := fun _ d cur => (Json.readDouble cur).map fun (x, cur) => (set x d, cur)

/-- The fields of a message.  Only the version may be left out, since an empty one is not
written. -/
def record : Json.Record Draft where
  name := "WebhookPayload"
  fields := [
    textField "alert_name" false Draft.alertName fun s d => { d with alertName := some s },
    textField "alert_type" false Draft.alertType fun s d => { d with alertType := some s },
    textField "app_version" true Draft.version fun s d => { d with version := some s },
    numberField "value" Draft.value fun x d => { d with value := some x },
    numberField "threshold" Draft.threshold fun x d => { d with threshold := some x },
    textField "message" false Draft.message fun s d => { d with message := some s },
    textField "timestamp" false Draft.timestamp fun s d => { d with timestamp := some s }]

/-- The message that a text stands for. -/
def ofText (s : String) : Except Json.Failure Webhook :=
  (record.ofText {} s).map fun d => {
    alertName := d.alertName.getD ""
    alertType := d.alertType.getD ""
    version := d.version.getD ""
    value := d.value.getD (.zero false)
    threshold := d.threshold.getD (.zero false)
    message := d.message.getD ""
    timestamp := d.timestamp.getD "" }

end Webhook

end SpikeWatch
