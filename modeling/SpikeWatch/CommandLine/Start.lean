import SpikeWatch.CommandLine.Arguments
import SpikeWatch.Settings.Source
import SpikeWatch.Text.Utf8

/-!
# Before the first line

What the program finds out before it reads any batch: whether the named files are files, and which
settings hold.  A missing file of settings is no fault, but a path that leads to something else is
one.
-/

set_option autoImplicit false

namespace SpikeWatch.CommandLine

/-- What a path leads to. -/
inductive Target where
  | missing
  /-- Something that is not a file, such as a directory. -/
  | notAFile
  /-- A file, with what came of reading it. -/
  | file (contents : Except String ByteArray)

namespace Target

/-- Whether a path leads to a file, be it one that can be read or not. -/
def isFile : Target → Bool
  | file _ => true
  | _ => false

/-- What comes of reading what a path leads to. -/
def contents : Target → Except String ByteArray
  | missing => .error "No such file or directory (os error 2)"
  | notAFile => .error "Is a directory (os error 21)"
  | file contents => contents

end Target

/-- Why the program does not start its work. -/
inductive Refusal where
  /-- The path to the settings leads to something that is not a file. -/
  | configNotAFile (path : Path)
  /-- The path to the batches does not lead to a file. -/
  | inputNotAFile (path : Path)
  /-- The path to the settings is not text. -/
  | configNotText (path : Path)
  | settings (e : SettingsError)

/-- What is said when the program does not start its work. -/
def Refusal.message : Refusal → String
  | configNotAFile path => "Configuration path is not a file: " ++ Text.showBytes path
  | inputNotAFile path => "Input is not a readable file: " ++ Text.showBytes path
  | configNotText path =>
    "Configuration file path contains invalid UTF-8 characters: " ++ Text.showBytes path
  | settings e => e.message

namespace Arguments

/-- Checks what the paths lead to, the one to the settings first. -/
def checkPaths (a : Arguments) (target : Path → Target) : Except Refusal Unit :=
  match a.config, a.input with
  | some config, some input =>
    match checkConfig config with
    | .error r => .error r
    | .ok () => checkInput input
  | some config, none => checkConfig config
  | none, some input => checkInput input
  | none, none => .ok ()
where
  checkConfig (path : Path) : Except Refusal Unit :=
    match target path with
    | .notAFile => .error (.configNotAFile path)
    | _ => .ok ()
  checkInput (path : Path) : Except Refusal Unit :=
    if (target path).isFile then .ok () else .error (.inputNotAFile path)

/-- The settings that hold, given what paths lead to and the address of the webhook from the
environment. -/
def settings (a : Arguments) (target : Path → Target) (url : Option String) :
    Except Refusal Settings :=
  match a.checkPaths target with
  | .error r => .error r
  | .ok () =>
    match a.config with
    | none => (Settings.load none url).mapError .settings
    | some path =>
      match String.fromUTF8? ⟨path.toArray⟩ with
      | none => .error (.configNotText path)
      | some name =>
        (Settings.load (some (name, (target path).contents)) url).mapError .settings

end Arguments

end SpikeWatch.CommandLine
