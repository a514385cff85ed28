import SpikeWatch.Label
import SpikeWatch.Proofs.Text.Letters
import SpikeWatch.Proofs.Text.LowerCase

/-!
# Labels are settled

A label that was made once is not made anew, and a label shows something.

* `platformLabel_platformLabel`: the label of a platform is its own label, whether it stands in the
  table or is the name in lower case.
* `FollowsMaker` says what stands behind the maker in the name of a device model, and
  `withoutMaker?` finds just that (`withoutMaker?_eq_some_iff`).  So there are three cases
  (`deviceModelLabel_cases`): blank names, names that begin with the maker, and others.
* `exists_isBlank_eq_false_deviceModelLabel`: the label of a device model is never blank, though the
  maker was taken off its front.
-/

set_option autoImplicit false

namespace SpikeWatch

open Text

/-! ## Trimmed names -/

theorem toList_trim (s : String) : (trim s).toList = trimChars s.toList := String.toList_ofList

theorem trimmed_trim (s : String) : Trimmed (trim s).toList := by
  rw [toList_trim]
  exact trimmed_trimChars s.toList

/-- Trimming changes a text just if there is a blank at one of its ends. -/
theorem trim_eq_self_iff {s : String} : trim s = s ↔ Trimmed s.toList := by
  rw [← trimChars_eq_self_iff, trim]
  constructor
  · intro h
    rw [← String.toList_ofList (l := trimChars s.toList), h]
  · intro h
    rw [h, String.ofList_toList]

/-- A name in lower case and without blanks at its ends is in that form for good. -/
theorem lower_trim_lower_trim (name : String) :
    lower (trim (lower (trim name))) = lower (trim name) := by
  have htrimmed : Trimmed (lower (trim name)).toList := by
    rw [lower, String.toList_ofList]
    exact trimmed_lowerFrom (trimmed_trim name)
  rw [trim_eq_self_iff.2 htrimmed, lower_lower]

/-! ## Platforms -/

/-- No name in the table hides another one. -/
theorem lookup_of_mem_platformNames :
    ∀ p ∈ platformNames, platformNames.lookup p.1 = some p.2 := by decide

theorem lookup_platformNames_eq_some_iff {name label : String} :
    platformNames.lookup name = some label ↔ (name, label) ∈ platformNames := by
  constructor
  · intro h
    obtain ⟨before, after, hsplit, -⟩ := List.lookup_eq_some_iff.1 h
    simp [hsplit]
  · intro h
    exact lookup_of_mem_platformNames (name, label) h

/-- The labels in the table are their own labels. -/
theorem platformLabel_of_mem_platformNames :
    ∀ p ∈ platformNames, platformLabel p.2 = p.2 := by decide +kernel

/-- A label of a platform is its own label. -/
theorem platformLabel_platformLabel (name : String) :
    platformLabel (platformLabel name) = platformLabel name := by
  cases hlabel : platformNames.lookup (lower (trim name)) with
  | some label =>
    have hname : platformLabel name = label := by
      simp only [platformLabel, hlabel, Option.getD_some]
    have hmem := lookup_platformNames_eq_some_iff.1 hlabel
    rw [hname]
    exact platformLabel_of_mem_platformNames (lower (trim name), label) hmem
  | none =>
    have hname : platformLabel name = lower (trim name) := by
      simp only [platformLabel, hlabel, Option.getD_none]
    rw [hname]
    simp only [platformLabel, lower_trim_lower_trim, hlabel, Option.getD_none]

/-! ## The omitted maker -/

/-- The name begins with the omitted maker in any mixture of cases, and goes on with the rest. -/
def FollowsMaker (name rest : List Char) : Prop :=
  ∃ maker, maker.map Char.toLower = omittedMaker ∧ name = maker ++ rest

/-- The maker is found just where a name begins with it. -/
theorem withoutMaker?_eq_some_iff {name rest : List Char} :
    withoutMaker? name = some rest ↔ FollowsMaker name rest := by
  rw [withoutMaker?]
  constructor
  · intro h
    split at h
    · next hmaker =>
      rw [← Option.some.inj h]
      exact ⟨_, hmaker, (List.take_append_drop _ _).symm⟩
    · cases h
  · rintro ⟨maker, hmaker, rfl⟩
    have hlength : omittedMaker.length = maker.length := by rw [← hmaker, List.length_map]
    rw [hlength, List.take_left, List.drop_left, if_pos hmaker]

theorem withoutMaker?_eq_none_iff {name : List Char} :
    withoutMaker? name = none ↔ ∀ rest, ¬ FollowsMaker name rest := by
  simp only [← withoutMaker?_eq_some_iff, Option.eq_none_iff_forall_ne_some]

/-- What stands behind the maker is known from the name. -/
theorem FollowsMaker.unique {name rest rest' : List Char} (h : FollowsMaker name rest)
    (h' : FollowsMaker name rest') : rest = rest' :=
  Option.some.inj <| (withoutMaker?_eq_some_iff.2 h).symm.trans (withoutMaker?_eq_some_iff.2 h')

/-! ## Device models -/

variable {model : String} {rest : List Char}

/-- A name with the maker at its front is not blank. -/
theorem FollowsMaker.ne_empty (h : FollowsMaker (trim model).toList rest) : trim model ≠ "" := by
  intro hblank
  obtain ⟨maker, hmaker, hname⟩ := h
  rw [hblank, String.toList_empty] at hname
  rw [(List.append_eq_nil_iff.1 hname.symm).1] at hmaker
  cases hmaker

theorem deviceModelLabel_of_blank (h : trim model = "") : deviceModelLabel model = "Unknown" := by
  rw [deviceModelLabel, ← toList_trim, h, String.toList_empty]

theorem deviceModelLabel_of_ne (h : trim model ≠ "") : deviceModelLabel model =
    String.ofList ((withoutMaker? (trim model).toList).getD (trim model).toList) := by
  rw [deviceModelLabel, ← toList_trim]
  split
  · next hnil => exact absurd (String.toList_eq_nil_iff.1 hnil) h
  · rfl

theorem deviceModelLabel_of_followsMaker (h : FollowsMaker (trim model).toList rest) :
    deviceModelLabel model = String.ofList rest := by
  rw [deviceModelLabel_of_ne h.ne_empty, withoutMaker?_eq_some_iff.2 h, Option.getD_some]

example : deviceModelLabel " SAMSUNG SM-G998B" = "SM-G998B" := by decide +kernel

theorem deviceModelLabel_of_not_followsMaker (hne : trim model ≠ "")
    (h : ∀ rest, ¬ FollowsMaker (trim model).toList rest) :
    deviceModelLabel model = trim model := by
  rw [deviceModelLabel_of_ne hne, withoutMaker?_eq_none_iff.2 h, Option.getD_none,
    String.ofList_toList]

example : deviceModelLabel "SamsungGalaxy" = "SamsungGalaxy" := by decide +kernel

/-- The three cases for a device model, which exclude each other. -/
theorem deviceModelLabel_cases (model : String) :
    (trim model = "" ∧ deviceModelLabel model = "Unknown") ∨
      (∃ rest, FollowsMaker (trim model).toList rest ∧
        deviceModelLabel model = String.ofList rest) ∨
      (trim model ≠ "" ∧ (∀ rest, ¬ FollowsMaker (trim model).toList rest) ∧
        deviceModelLabel model = trim model) := by
  by_cases hblank : trim model = ""
  · exact .inl ⟨hblank, deviceModelLabel_of_blank hblank⟩
  by_cases hmaker : ∃ rest, FollowsMaker (trim model).toList rest
  · obtain ⟨rest, hrest⟩ := hmaker
    exact .inr (.inl ⟨rest, hrest, deviceModelLabel_of_followsMaker hrest⟩)
  · have hnone := not_exists.1 hmaker
    exact .inr (.inr ⟨hblank, hnone, deviceModelLabel_of_not_followsMaker hblank hnone⟩)

/-- The end of a name stands behind the omitted maker. -/
theorem FollowsMaker.getLast?_eq {name : List Char} (h : FollowsMaker name rest)
    (hname : Trimmed name) : rest.getLast? = name.getLast? := by
  obtain ⟨maker, hmaker, rfl⟩ := h
  cases rest with
  | nil =>
    -- the name would be the maker alone, which ends with a blank
    have hlast : maker.getLast?.map Char.toLower = some ' ' := by
      rw [← List.getLast?_map, hmaker]
      rfl
    obtain ⟨c, hc, hspace⟩ := Option.map_eq_some_iff.1 hlast
    rw [(toLower_eq_iff (by decide) c).1 hspace] at hc
    rw [List.append_nil] at hname
    exact absurd (hname.back ' ' hc) (by decide)
  | cons c rest =>
    have hsome := List.getLast?_isSome.2 (List.cons_ne_nil c rest)
    rw [List.getLast?_append, Option.or_of_isSome hsome]

theorem exists_mem_getLast?_trim (h : trim model ≠ "") :
    ∃ c ∈ (trim model).toList.getLast?, isBlank c = false := by
  have hne : (trim model).toList ≠ [] := fun hnil => h (String.toList_eq_nil_iff.1 hnil)
  obtain ⟨c, hc⟩ := Option.isSome_iff_exists.1 (List.getLast?_isSome.2 hne)
  exact ⟨c, hc, (trimmed_trim model).back c hc⟩

/-- A label of a device model shows something. -/
theorem exists_isBlank_eq_false_deviceModelLabel (model : String) :
    ∃ c ∈ (deviceModelLabel model).toList, isBlank c = false := by
  rcases deviceModelLabel_cases model with ⟨-, hlabel⟩ | ⟨rest, hrest, hlabel⟩ |
    ⟨hne, -, hlabel⟩
  · rw [hlabel]
    exact ⟨'U', by decide, by decide⟩
  · obtain ⟨c, hc, hblank⟩ := exists_mem_getLast?_trim hrest.ne_empty
    rw [← hrest.getLast?_eq (trimmed_trim model)] at hc
    rw [hlabel, String.toList_ofList]
    exact ⟨c, List.mem_of_getLast? hc, hblank⟩
  · obtain ⟨c, hc, hblank⟩ := exists_mem_getLast?_trim hne
    rw [hlabel]
    exact ⟨c, List.mem_of_getLast? hc, hblank⟩

end SpikeWatch
