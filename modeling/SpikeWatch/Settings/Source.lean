import SpikeWatch.Settings.Check
import SpikeWatch.Settings.Decode

/-!
# Where settings come from

Settings are read from a text, or from a file and the environment: a variable of the environment
goes before the address of the webhook in the file.  Settings from a text or a file are checked;
those of the environment alone are not.
-/

set_option autoImplicit false

namespace SpikeWatch

/-- Why there are no settings. -/
inductive SettingsError where
  | unreadable (reason : String)
  | unparsable (reason : String)
  | invalid (reason : String)
  /-- The text is no TOML. -/
  | notToml
  | misfit (m : Misfit)

/-- What is said when there are no settings. -/
def SettingsError.message : SettingsError → String
  | unreadable reason => "Failed to read config file: " ++ reason
  | unparsable reason => "Failed to parse config: " ++ reason
  | invalid reason => "Invalid configuration value: " ++ reason
  | notToml => "TOML parse error: invalid document"
  | misfit m => "TOML parse error: " ++ m.message

namespace Settings

/-- The settings in a TOML text, not checked. -/
def ofToml (s : String) : Except SettingsError Settings :=
  match Toml.ofText? s with
  | none => .error .notToml
  | some entries => (ofEntries entries).mapError .misfit

/-- The settings, if they can be used. -/
def checked (s : Settings) : Except SettingsError Settings :=
  match s.check with
  | .ok () => .ok s
  | .error i => .error (.invalid i.message)

/-- The settings in a TOML text, if they can be used. -/
def ofCheckedToml (s : String) : Except SettingsError Settings := (ofToml s).bind checked

/-- The variable of the environment that holds the address of the webhook. -/
def webhookVariable : String := "VITALS_ALERT_WEBHOOK_URL"

/-- Puts another address in the place of that of the webhook, unless it is blank. -/
def withWebhook (url : Option String) (s : Settings) : Settings :=
  match url with
  | none => s
  | some url =>
    if Text.isBlankText url then s
    else { s with alerts := { s.alerts with webhookUrl := Text.trim url } }

/-- The defaults, with the address of the webhook from the environment. -/
def ofEnvironment (url : Option String) : Settings := withWebhook url {}

/-- The settings in a file, given what came of reading it, with the address of the webhook from the
environment. -/
def ofFile (path : String) (contents : Except String ByteArray) (url : Option String) :
    Except SettingsError Settings :=
  match contents with
  | .error reason => .error (.unreadable (path ++ ": " ++ reason))
  | .ok bytes =>
    match String.fromUTF8? bytes with
    | none => .error (.unreadable (path ++ ": stream did not contain valid UTF-8"))
    | some s =>
      match ofToml s with
      | .error e => .error (.unparsable (path ++ ": " ++ e.message))
      | .ok settings => checked (withWebhook url settings)

/-- The settings in a file if one is named and can be read, else those of the environment. -/
def load (file : Option (String × Except String ByteArray)) (url : Option String) :
    Except SettingsError Settings :=
  match file with
  | none => .ok (ofEnvironment url)
  | some (path, contents) =>
    match ofFile path contents url with
    -- a file that cannot be read counts as none, but one that cannot be used does not; and what
    -- comes from the environment alone is given unchecked
    | .error (.unreadable _) => .ok (ofEnvironment url)
    | result => result

end Settings

end SpikeWatch
