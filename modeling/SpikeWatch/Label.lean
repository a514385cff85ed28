import SpikeWatch.Text.Blank
import SpikeWatch.Text.LowerCase

/-!
# Labels that clients write freely

Clients name their platform and their device model as they please.  `platformLabel` maps the names
in use to one label for each platform, and `deviceModelLabel` cleans up the name of a model.
-/

set_option autoImplicit false

namespace SpikeWatch

/-- The names of platforms, in lower case, and their labels. -/
def platformNames : List (String × String) :=
  [("android", "Android"), ("androidplayer", "Android"),
    ("ios", "iOS"), ("iphone", "iOS"), ("iphoneplayer", "iOS"),
    ("windows", "Windows"), ("windowsplayer", "Windows"), ("windowseditor", "Windows"),
    ("osx", "macOS"), ("osxplayer", "macOS"), ("osxeditor", "macOS"), ("macos", "macOS"),
    ("linux", "Linux"), ("linuxplayer", "Linux"), ("linuxeditor", "Linux"),
    ("webgl", "WebGL")]

/-- The label of a platform.  A name that is not known is its own label, in lower case and without
blanks at its ends. -/
def platformLabel (name : String) : String :=
  let name := Text.lower (Text.trim name)
  (platformNames.lookup name).getD name

theorem ne_empty_of_mem_platformNames :
    ∀ p ∈ platformNames, p.1 ≠ "" ∧ p.2 ≠ "" := by decide

/-- A platform has a label unless its name is blank. -/
theorem platformLabel_eq_empty_iff {name : String} :
    platformLabel name = "" ↔ Text.isBlankText name = true := by
  have hlower : Text.lower (Text.trim name) = "" ↔ Text.isBlankText name = true := by
    rw [Text.lower, String.ofList_eq_empty_iff, Text.lowerFrom_eq_nil_iff, Text.trim,
      String.toList_ofList, Text.trimChars_eq_nil_iff, Text.isBlankText, List.all_eq_true]
  rw [platformLabel]
  cases hlabel : platformNames.lookup (Text.lower (Text.trim name)) with
  | none => simpa [hlabel] using hlower
  | some label =>
    obtain ⟨before, after, hsplit, -⟩ := List.lookup_eq_some_iff.1 hlabel
    have hknown := ne_empty_of_mem_platformNames (Text.lower (Text.trim name), label)
      (by simp [hsplit])
    simpa [hlabel, hknown.2] using fun hblank => hknown.1 (hlower.2 hblank)

/-- A maker's name that is left out in front of its models. -/
def omittedMaker : List Char := ['s', 'a', 'm', 's', 'u', 'n', 'g', ' ']

/-- What stands behind the omitted maker, if the name begins with it in any mixture of cases. -/
def withoutMaker? (name : List Char) : Option (List Char) :=
  if (name.take omittedMaker.length).map Char.toLower = omittedMaker then
    some (name.drop omittedMaker.length)
  else none

/-- The label of a device model. -/
def deviceModelLabel (model : String) : String :=
  match Text.trimChars model.toList with
  | [] => "Unknown"
  | name => String.ofList ((withoutMaker? name).getD name)

end SpikeWatch
