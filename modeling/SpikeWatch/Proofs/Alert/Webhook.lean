import SpikeWatch.Alert.Webhook
import SpikeWatch.Proofs.Json.Doubles
import SpikeWatch.Proofs.Json.Records
import SpikeWatch.Proofs.Time.Rfc3339

/-!
# Messages are read back

A message for a webhook can be read back from its text, whatever its texts are, and with an empty
version as it was although none is written.  Its numbers come back as far as reading rounds no more
than writing does.

* `Webhook.fills_text` says what is read of the fields.
* `Webhook.ofText_text_of_isFinite` is the whole message.  Its value and its threshold keep their
  signs; they are what they were if they are whole numbers up to fifteen digits, or if their digits
  alone make a number of sixty-four bits and their power of ten is not beyond `10 ^ 22` either way.
  Otherwise each rounding may move them to a neighbour.
* `Webhook.timestamp_exact` is its timestamp, which tells the instant of the alert to the
  nanosecond.
-/

set_option autoImplicit false

namespace SpikeWatch.Webhook

open Json

/-- What is read of a message, with the numbers that are read. -/
def draft (w : Webhook) (value threshold : Double) : Draft where
  alertName := some w.alertName
  alertType := some w.alertType
  version := if w.version.isEmpty then none else some w.version
  value := some value
  threshold := some threshold
  message := some w.message
  timestamp := some w.timestamp

theorem reads_textField (name : String) (optional : Bool) (get : Draft → Option String)
    (set : String → Draft → Draft) (depth : Nat) (d : Draft) (s : String) :
    Reads ((textField name optional get set).read depth d) (writeText s) (some (set s d)) :=
  (Reads.readText s).map fun s => set s d

theorem reads_numberField (name : String) (get : Draft → Option Double)
    (set : Double → Draft → Draft) (depth : Nat) (d : Draft) {text : List Char} {x : Double}
    (h : Reads readDouble text (some x)) :
    Reads ((numberField name get set).read depth d) text (some (set x d)) :=
  h.map fun x => set x d

theorem fills_text (w : Webhook) {value threshold : Double}
    (hvalue : Reads readDouble (writeDouble w.value) (some value))
    (hthreshold : Reads readDouble (writeDouble w.threshold) (some threshold)) :
    record.Fills (maxDepth - 1) {}
      ([("alert_name", writeText w.alertName), ("alert_type", writeText w.alertType)] ++
        (if w.version.isEmpty then [] else [("app_version", writeText w.version)]) ++
        [("value", writeDouble w.value), ("threshold", writeDouble w.threshold),
          ("message", writeText w.message), ("timestamp", writeText w.timestamp)])
      (w.draft value threshold) := by
  have hrest (version : Option String) :
      record.Fills (maxDepth - 1)
        { alertName := some w.alertName, alertType := some w.alertType, version }
        [("value", writeDouble w.value), ("threshold", writeDouble w.threshold),
          ("message", writeText w.message), ("timestamp", writeText w.timestamp)]
        { w.draft value threshold with version } :=
    .cons _ rfl rfl (reads_numberField _ _ _ _ _ hvalue) <|
    .cons _ rfl rfl (reads_numberField _ _ _ _ _ hthreshold) <|
    .cons _ rfl rfl (reads_textField _ _ _ _ _ _ _) <|
    .cons _ rfl rfl (reads_textField _ _ _ _ _ _ _) (.nil _)
  refine .cons _ rfl rfl (reads_textField _ _ _ _ _ _ _)
    (.cons _ rfl rfl (reads_textField _ _ _ _ _ _ _) ?_)
  rw [draft]
  cases w.version.isEmpty with
  | true => exact hrest none
  | false => exact .cons _ rfl rfl (reads_textField _ _ _ _ _ _ _) (hrest (some w.version))

theorem getD_version (w : Webhook) (value threshold : Double) :
    (w.draft value threshold).version.getD "" = w.version := by
  rw [draft]
  cases hversion : w.version.isEmpty with
  | true => exact (String.isEmpty_iff.1 hversion).symm
  | false => rfl

/-- **Messages are read back.**  All texts are as they were, also an empty version, which is not
written; the value and the threshold are up to roundings. -/
theorem ofText_text_of_isFinite (w : Webhook) (hvalue : w.value.isFinite = true)
    (hthreshold : w.threshold.isFinite = true) :
    ∃ value threshold : Double, ofText w.text = .ok { w with value, threshold } ∧
      ReadBack w.value value ∧ ReadBack w.threshold threshold := by
  obtain ⟨value, hreadValue, hvalueBack⟩ := Reads.readDouble hvalue
  obtain ⟨threshold, hreadThreshold, hthresholdBack⟩ := Reads.readDouble hthreshold
  refine ⟨value, threshold, ?_, hvalueBack, hthresholdBack⟩
  rw [ofText, text, record.ofText_writeObject (fills_text w hreadValue hreadThreshold) rfl]
  exact congrArg (fun version => Except.ok { w with version, value, threshold })
    (getD_version w value threshold)

/-- A message of any characters, without a version and with a number below the normal ones. -/
theorem ofText_text_of_isFinite_small :
    let w : Webhook := ⟨"\x00\"\\", "\u2028", "", .ofDecimal true 5 (-324), .ofNat 15, "\n", "é"⟩
    (w.value.isFinite = true ∧ w.threshold.isFinite = true) ∧
      ∃ value threshold : Double, ofText w.text = .ok { w with value, threshold } ∧
        ReadBack w.value value ∧ ReadBack w.threshold threshold :=
  ⟨⟨by decide +kernel, by decide +kernel⟩,
    ofText_text_of_isFinite _ (by decide +kernel) (by decide +kernel)⟩

/-- The digits of `99.99999999999999` alone have to be rounded: it is read as one hundred. -/
theorem ofText_text_ne :
    let w : Webhook := ⟨"Slow starts", "jank_rate", "1.4.0",
      .ofDecimal false 9999999999999999 (-14), .ofNat 15, "above 15", "2024-05-01T12:00:00+00:00"⟩
    (w.value.isFinite = true ∧ w.threshold.isFinite = true) ∧
      (ofText w.text).toOption = some { w with value := .ofNat 100 } ∧ ofText w.text ≠ .ok w := by
  intro w
  have hread : (ofText w.text).toOption = some { w with value := .ofNat 100 } := by decide +kernel
  refine ⟨⟨by decide +kernel, by decide +kernel⟩, hread, fun h => ?_⟩
  rw [h] at hread
  exact absurd hread (by decide +kernel)

/-- **The timestamp of a message is the instant of its alert.**  It is a date and a time of day of
the calendar, which make up the seconds of the instant, and its fraction is the nanoseconds.  So no
alert of another instant has the same timestamp. -/
theorem timestamp_exact (a : Alert) :
    let text := (ofAlert a).timestamp
    (∃ m days, Moment.ofText? text = some m ∧ m.IsValid ∧ Date.IsDay days m.date ∧
      a.timestamp.seconds = days * 86400 + m.hour * 3600 + m.minute * 60 + m.second ∧
      a.timestamp.subsecond = m.nanos) ∧
    Instant.ofText? text = some a.timestamp ∧
    ∀ b : Alert, (ofAlert b).timestamp = text → b.timestamp = a.timestamp := by
  intro text
  have hvalid := a.timestamp.isValid_moment
  have hread : Moment.ofText? text = some a.timestamp.moment := Moment.ofText?_text hvalid
  have hday : Date.IsDay a.timestamp.moment.date.toDays a.timestamp.moment.date :=
    Date.isDay_iff.2 ⟨hvalid.date, rfl⟩
  exact ⟨⟨_, _, hread, hvalid, hday, a.timestamp.seconds_eq, rfl⟩, a.timestamp.ofText?_text,
    fun b heq => Instant.text_injective heq⟩

end SpikeWatch.Webhook
