import SpikeWatch.Settings.Source

/-!
# Which settings are known to be usable

Settings are checked behind the address that the environment gives, so whatever comes of a file can
be used, that address included.  Without a file, or with one that cannot be read, the defaults are
taken with the address from the environment, and nobody looks at the outcome.

* `fileText?` is the text in a file, and `Fits` says of an address from the environment that it is
  left out or leads to the web.
* `check_ofEnvironment` is the check that nobody makes.
* `check_of_load_iff` says when all that can be loaded can be used, and what is wrong if not.
-/

set_option autoImplicit false

namespace SpikeWatch.Settings

/-! ## With a file -/

/-- The text in a file, given what came of reading it. -/
def fileText? : Except String ByteArray → Option String
  | .ok bytes => String.fromUTF8? bytes
  | .error _ => none

variable (path : String) (url : Option String)

/-- Of a file that is no text only the environment remains. -/
theorem load_of_fileText?_eq_none {contents : Except String ByteArray}
    (h : fileText? contents = none) :
    load (some (path, contents)) url = .ok (ofEnvironment url) := by
  rw [load, ofFile.eq_def]
  cases contents with
  | error reason => rfl
  | ok bytes =>
    change String.fromUTF8? bytes = none at h
    simp only [h]

theorem load_of_fileText?_eq_some {contents : Except String ByteArray} {text : String}
    (h : fileText? contents = some text) :
    load (some (path, contents)) url =
      match ofToml text with
      | .error e => .error (.unparsable (path ++ ": " ++ e.message))
      | .ok s => (withWebhook url s).checked := by
  rw [load, ofFile.eq_def]
  cases contents with
  | error reason => cases h
  | ok bytes =>
    change String.fromUTF8? bytes = some text at h
    simp only [h]
    cases ofToml text with
    | error e => rfl
    | ok s =>
      -- a check may fail, but not because the file could not be read
      simp only [checked]
      cases (withWebhook url s).check <;> rfl

theorem checked_eq_ok_iff {s t : Settings} : s.checked = .ok t ↔ s.check = .ok () ∧ s = t := by
  rw [checked]
  cases s.check <;> simp

/-- What comes of a text was checked. -/
theorem check_of_load_of_fileText? {contents : Except String ByteArray} {text : String}
    (htext : fileText? contents = some text) {s : Settings}
    (h : load (some (path, contents)) url = .ok s) : s.check = .ok () := by
  rw [load_of_fileText?_eq_some path url htext] at h
  cases htoml : ofToml text with
  | error e => simp [htoml] at h
  | ok t =>
    simp only [htoml] at h
    obtain ⟨hcheck, rfl⟩ := checked_eq_ok_iff.1 h
    exact hcheck

/-! ## Without a file -/

/-- An address from the environment can be used: it is blank, and so left out, or it leads to the
web. -/
def Fits (url : Option String) : Prop :=
  ∀ address ∈ url, Text.isBlankText address = true ∨ isWebUrl (Text.trim address) = true

/-- All defaults can be used, so nothing but the address may be at fault. -/
theorem check_ofEnvironment :
    (ofEnvironment url).check =
      if isWebUrl (ofEnvironment url).alerts.webhookUrl then .ok ()
      else .error (.notWebUrl (ofEnvironment url).alerts.webhookUrl) := by
  have hdefaults (address : String) :
      ({ alerts := { webhookUrl := address } } : Settings).check =
        if isWebUrl address then .ok () else .error (.notWebUrl address) := rfl
  rw [ofEnvironment, withWebhook.eq_def]
  split
  · exact hdefaults ""
  · split
    · exact hdefaults ""
    · exact hdefaults _

theorem isWebUrl_ofEnvironment_iff :
    isWebUrl (ofEnvironment url).alerts.webhookUrl = true ↔ Fits url := by
  rw [ofEnvironment, withWebhook.eq_def, Fits]
  have hnone : isWebUrl ({} : Settings).alerts.webhookUrl = true := rfl
  cases url with
  | none => simp [hnone]
  | some address =>
    by_cases hblank : Text.isBlankText address = true
    · simp [hblank, hnone]
    · simp [hblank]

theorem check_ofEnvironment_eq_ok_iff : (ofEnvironment url).check = .ok () ↔ Fits url := by
  rw [check_ofEnvironment, ← isWebUrl_ofEnvironment_iff]
  cases isWebUrl (ofEnvironment url).alerts.webhookUrl <;> simp

/-- Nothing is loaded unchecked unless there is no text to load it from. -/
theorem load_of_no_text {file : Option (String × Except String ByteArray)}
    (h : (file.bind fun f => fileText? f.2) = none) : load file url = .ok (ofEnvironment url) := by
  cases file with
  | none => rfl
  | some f => exact load_of_fileText?_eq_none f.1 url h

/-- **When everything that is loaded can be used**: if there is a text to load it from, or if the
address from the environment fits.  In all other cases the defaults are loaded with an address that
the check would refuse. -/
theorem check_of_load_iff (file : Option (String × Except String ByteArray)) :
    ((∀ s, load file url = .ok s → s.check = .ok ()) ↔
      (file.bind fun f => fileText? f.2).isSome ∨ Fits url) ∧
    ∀ s, load file url = .ok s → s.check ≠ .ok () →
      s = ofEnvironment url ∧ s.check = .error (.notWebUrl s.alerts.webhookUrl) := by
  cases htext : file.bind fun f => fileText? f.2 with
  | none =>
    rw [load_of_no_text url htext, ← check_ofEnvironment_eq_ok_iff]
    simp only [Except.ok.injEq, forall_eq', Option.isSome_none, Bool.false_eq_true, false_or,
      true_and]
    intro hrefused
    rw [check_ofEnvironment] at hrefused ⊢
    rw [if_neg fun hweb => hrefused (if_pos hweb)]
  | some text =>
    obtain ⟨f, rfl, hcontents⟩ := Option.bind_eq_some_iff.1 htext
    have hall : ∀ s, load (some f) url = .ok s → s.check = .ok () := fun s =>
      check_of_load_of_fileText? f.1 url hcontents
    exact ⟨iff_of_true hall (.inl rfl), fun s hs hrefused => absurd (hall s hs) hrefused⟩

/-- Without a file nobody looks at the address that the environment gives, and with one it is
refused, be the file empty. -/
theorem not_check_of_load :
    let url := some " ftp://bad"
    (∃ s, load none url = .ok s ∧ s.check = .error (.notWebUrl "ftp://bad")) ∧
      load (some ("settings.toml", .ok .empty)) url =
        .error (.invalid "alerts.webhook_url must be an http(s) URL, got ftp://bad") := by
  refine ⟨⟨_, rfl, ?_⟩, ?_⟩
  · rfl
  · rfl

end SpikeWatch.Settings
