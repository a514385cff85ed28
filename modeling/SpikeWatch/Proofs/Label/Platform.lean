import SpikeWatch.Proofs.Label

/-!
# Which platforms are the same

A label stands for all names of one platform, however they are written, and for no others.

* `Restyled` names differ in the case of their basic letters and in the blanks at their ends.  Both
  are gone in the form that is looked up (`lower_trim_of_restyled`), also where the lower case of a
  letter depends on those around it.
* `SamePlatform` names have that form in common, or are known for the same platform.
  `platformLabel_eq_iff` says that these are the names that get the same label: no label is in lower
  case, so a name that is not known has none of theirs.
-/

set_option autoImplicit false

namespace SpikeWatch

open Text

/-! ## Names written anew -/

/-- The ways to write a name anew: basic letters in another case, blanks put on the ends, and blanks
taken off them. -/
inductive Restyled : String → String → Prop
  | recased {name other : String}
      (h : name.toList.map Char.toLower = other.toList.map Char.toLower) : Restyled name other
  | padded (front name back : String) (hfront : isBlankText front = true)
      (hback : isBlankText back = true) : Restyled name (front ++ name ++ back)
  | stripped (front name back : String) (hfront : isBlankText front = true)
      (hback : isBlankText back = true) : Restyled (front ++ name ++ back) name
  | trans {name between other : String} (h : Restyled name between)
      (hmore : Restyled between other) : Restyled name other

theorem trim_append {front back : String} (hfront : isBlankText front = true)
    (hback : isBlankText back = true) (name : String) :
    trim (front ++ name ++ back) = trim name := by
  rw [isBlankText, List.all_eq_true] at hfront hback
  rw [trim, trim, String.toList_append, String.toList_append, trimChars_append hfront hback]

/-- The form that is looked up does not depend on the case of basic letters. -/
theorem lower_trim_eq (name : String) : lower (trim name) =
    String.ofList (lowerFrom [] (trimChars (name.toList.map Char.toLower))) := by
  rw [lower, trim, String.toList_ofList, trimChars_map_toLower]
  -- the beginning of the text has nothing in front of it, in whatever case
  exact congrArg String.ofList (lowerFrom_map_toLower [] _).symm

/-- A name that is written anew is looked up in the same form. -/
theorem lower_trim_of_restyled {name other : String} (h : Restyled name other) :
    lower (trim other) = lower (trim name) := by
  induction h with
  | recased h => rw [lower_trim_eq, ← h, ← lower_trim_eq]
  | padded front name back hfront hback => rw [trim_append hfront hback]
  | stripped front name back hfront hback => rw [trim_append hfront hback]
  | trans _ _ ih ihmore => exact ihmore.trans ih

/-! ## Names of one platform -/

/-- Names that are looked up in the same form, or under which the same platform is known. -/
def SamePlatform (name other : String) : Prop :=
  lower (trim name) = lower (trim other) ∨ ∃ label,
    (lower (trim name), label) ∈ platformNames ∧ (lower (trim other), label) ∈ platformNames

/-- All labels have capitals in them. -/
theorem lower_ne_of_mem_platformNames : ∀ p ∈ platformNames, lower p.2 ≠ p.2 := by decide +kernel

theorem lower_ne_of_lookup_eq_some {name label : String}
    (h : platformNames.lookup name = some label) (other : String) : lower other ≠ label := by
  intro heq
  have hne := lower_ne_of_mem_platformNames (name, label) (lookup_platformNames_eq_some_iff.1 h)
  rw [← heq, lower_lower] at hne
  exact hne rfl

/-- A name that is known never has the label of one that is not, since the latter is in lower
case. -/
theorem lookup_eq_of_platformLabel_eq {name other : String}
    (h : platformLabel name = platformLabel other) :
    platformNames.lookup (lower (trim name)) = platformNames.lookup (lower (trim other)) := by
  rw [platformLabel, platformLabel] at h
  cases hname : platformNames.lookup (lower (trim name)) with
  | none =>
    cases hother : platformNames.lookup (lower (trim other)) with
    | none => rfl
    | some label =>
      rw [hname, hother] at h
      exact absurd h (lower_ne_of_lookup_eq_some hother (trim name))
  | some label =>
    cases hother : platformNames.lookup (lower (trim other)) with
    | none =>
      rw [hname, hother] at h
      exact absurd h.symm (lower_ne_of_lookup_eq_some hname (trim other))
    | some label' =>
      rw [hname, hother] at h
      exact congrArg some h

/-- The names that get the same label are those of one platform. -/
theorem platformLabel_eq_iff {name other : String} :
    platformLabel name = platformLabel other ↔ SamePlatform name other := by
  constructor
  · intro h
    have hlookup := lookup_eq_of_platformLabel_eq h
    cases hname : platformNames.lookup (lower (trim name)) with
    | none =>
      rw [platformLabel, platformLabel, ← hlookup, hname] at h
      exact .inl h
    | some label =>
      rw [hname] at hlookup
      exact .inr ⟨label, lookup_platformNames_eq_some_iff.1 hname,
        lookup_platformNames_eq_some_iff.1 hlookup.symm⟩
  · rintro (hform | ⟨label, hname, hother⟩)
    · rw [platformLabel, platformLabel, hform]
    · rw [platformLabel, platformLabel, lookup_platformNames_eq_some_iff.2 hname,
        lookup_platformNames_eq_some_iff.2 hother, Option.getD_some, Option.getD_some]

theorem Restyled.samePlatform {name other : String} (h : Restyled name other) :
    SamePlatform other name :=
  .inl (lower_trim_of_restyled h)

/-- **Labels of platforms are canonical.**  A label is its own label, a name that is written anew
keeps its label, and other names only share it if the same platform is known under them. -/
theorem platformLabel_canonical (name : String) :
    platformLabel (platformLabel name) = platformLabel name ∧
    (∀ other, Restyled name other → platformLabel other = platformLabel name) ∧
    ∀ other, platformLabel other = platformLabel name ↔ SamePlatform other name := by
  refine ⟨platformLabel_platformLabel name, ?_, ?_⟩
  · intro other h
    exact platformLabel_eq_iff.2 h.samePlatform
  · intro other
    exact platformLabel_eq_iff

/-- What stands behind an apostrophe decides how the capital in front of it is written small, and
it does so in either case. -/
theorem platformLabel_canonical_sigma :
    let name := "\t " ++ "ΟΔΟΣ'S" ++ ""
    let other := "" ++ "ΟΔΟΣ's" ++ "\u3000"
    Restyled name other ∧ platformLabel other = platformLabel name ∧
      platformLabel name = "οδοσ's" := by
  intro name other
  have hstripped : Restyled name "ΟΔΟΣ'S" := .stripped _ _ _ (by decide) (by decide)
  have hrecased : Restyled "ΟΔΟΣ'S" "ΟΔΟΣ's" := .recased (by decide)
  have hpadded : Restyled "ΟΔΟΣ's" other := .padded _ _ _ (by decide) (by decide)
  have h : Restyled name other := hstripped.trans (hrecased.trans hpadded)
  have hsame := (platformLabel_canonical name).2.1 other h
  have hlabel : platformLabel name = "οδοσ's" := by decide +kernel
  exact ⟨h, hsame, hlabel⟩

end SpikeWatch
