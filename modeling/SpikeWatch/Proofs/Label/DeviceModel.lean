import SpikeWatch.Proofs.Label
import SpikeWatch.Proofs.Text.Bytes

/-!
# What is left of the name of a device model

The label of a device model is its name without blanks at the ends, or what stands there behind the
omitted maker.

* Blanks are taken off before the maker is, so a label may begin with one, but it never ends with
  one (`deviceModelLabel_clean_iff`).
* `slicedLabel?` looks for the maker in the bytes of the name, and cuts the name at a place given in
  bytes.  The cut never fails, and what is left is the label (`slicedLabel?_eq`).
-/

set_option autoImplicit false

namespace SpikeWatch

open Text

/-! ## Blanks -/

/-- A label of a device model is never empty. -/
theorem deviceModelLabel_ne_empty (model : String) : deviceModelLabel model ≠ "" := by
  intro hempty
  obtain ⟨c, hc, -⟩ := exists_isBlank_eq_false_deviceModelLabel model
  rw [hempty] at hc
  cases hc

/-- **How clean a label is.**  It shows something and does not end with a blank.  It begins with one
just if another blank follows the one between the omitted maker and its model. -/
theorem deviceModelLabel_clean_iff (model : String) :
    deviceModelLabel model ≠ "" ∧
    (∀ c ∈ (deviceModelLabel model).toList.getLast?, isBlank c = false) ∧
    (Trimmed (deviceModelLabel model).toList ↔
      ∀ c rest, FollowsMaker (trim model).toList (c :: rest) → isBlank c = false) := by
  refine ⟨deviceModelLabel_ne_empty model, ?_⟩
  rcases deviceModelLabel_cases model with ⟨hblank, hlabel⟩ | ⟨rest, hrest, hlabel⟩ |
    ⟨-, hnone, hlabel⟩
  · have htrimmed : Trimmed "Unknown".toList := trimChars_eq_self_iff.1 (by decide)
    rw [hlabel]
    exact ⟨htrimmed.back, iff_of_true htrimmed fun c rest h => absurd hblank h.ne_empty⟩
  · have hback : ∀ c ∈ rest.getLast?, isBlank c = false := by
      -- What stands behind the maker ends where the name ends.
      rw [hrest.getLast?_eq (trimmed_trim model)]
      exact (trimmed_trim model).back
    rw [hlabel, String.toList_ofList]
    refine ⟨hback, ?_, ?_⟩
    · intro htrimmed c rest' hrest'
      rw [hrest.unique hrest'] at htrimmed
      exact htrimmed.front c rfl
    · intro h
      refine ⟨fun c hc => ?_, hback⟩
      obtain ⟨rest', rfl⟩ := List.head?_eq_some_iff.1 hc
      exact h c rest' hrest
  · have htrimmed := trimmed_trim model
    rw [hlabel]
    exact ⟨htrimmed.back, iff_of_true htrimmed fun c rest h => absurd h (hnone _)⟩

/-- A second blank behind the maker stays in front of the label. -/
theorem not_trimmed_deviceModelLabel :
    deviceModelLabel "samsung  S21" = " S21" ∧
      ¬ ∀ model, deviceModelLabel model ≠ "" ∧ Trimmed (deviceModelLabel model).toList := by
  have hlabel : deviceModelLabel "samsung  S21" = " S21" := by decide +kernel
  refine ⟨hlabel, fun h => ?_⟩
  have htrimmed := (h "samsung  S21").2
  rw [hlabel] at htrimmed
  exact absurd (htrimmed.front ' ' rfl) (by decide)

/-! ## Bytes -/

/-- The bytes of the omitted maker. -/
def omittedBytes : List UInt8 := textBytes (String.ofList omittedMaker)

/-- The bytes spell the omitted maker in any mixture of cases. -/
def SpellMaker (bytes : List UInt8) : Prop := bytes.map UInt8.toAsciiLower = omittedBytes

instance (bytes : List UInt8) : Decidable (SpellMaker bytes) :=
  inferInstanceAs (Decidable (_ = _))

/-- Spelling the maker is the same for bytes and for characters: all characters of the maker are
single bytes, and no byte of a longer character looks like one of them. -/
theorem spellMaker_textBytes_iff {maker : List Char} :
    SpellMaker (textBytes (String.ofList maker)) ↔ maker.map Char.toLower = omittedMaker := by
  rw [SpellMaker, ← textBytes_map_toLower, omittedBytes, textBytes_inj, String.ofList_inj]

/-- The cut is eight bytes into the name. -/
theorem length_omittedBytes : omittedBytes.length = 8 := by decide

theorem SpellMaker.length_eq {bytes : List UInt8} (h : SpellMaker bytes) : bytes.length = 8 := by
  rw [← length_omittedBytes, ← h, List.length_map]

/-- Bytes that spell the maker are the characters that do. -/
theorem spellMaker_take_iff {name : String} :
    SpellMaker ((textBytes name).take 8) ↔ ∃ rest, FollowsMaker name.toList rest := by
  constructor
  · intro h
    have hprefix : omittedBytes <+: textBytes (String.ofList (name.toList.map Char.toLower)) := by
      rw [textBytes_map_toLower, String.ofList_toList, ← h]
      exact (List.take_prefix 8 (textBytes name)).map _
    obtain ⟨rest, hrest⟩ := prefix_of_textBytes_prefix hprefix
    obtain ⟨maker, rest, hname, hmaker, -⟩ := List.map_eq_append_iff.1 hrest.symm
    exact ⟨rest, maker, hmaker, hname⟩
  · rintro ⟨rest, maker, hmaker, hname⟩
    have hspell := spellMaker_textBytes_iff.2 hmaker
    rw [← String.ofList_toList (s := name), hname, String.ofList_append, textBytes_append,
      List.take_left' hspell.length_eq]
    exact hspell

/-- The label of a device model, made by cutting its name at a place given in bytes; nothing if the
last cut fails. -/
def slicedLabel? (model : String) : Option String :=
  let name := trim model
  if name = "" then some "Unknown"
  else
    match sliceTo? name omittedBytes.length with
    | some front =>
      if SpellMaker (textBytes front) then sliceFrom? name omittedBytes.length else some name
    | none => some name

/-- A name that begins with the maker can be cut behind it. -/
theorem slices_of_followsMaker {name : String} {rest : List Char}
    (h : FollowsMaker name.toList rest) :
    ∃ front, SpellMaker (textBytes front) ∧ sliceTo? name 8 = some front ∧
      sliceFrom? name 8 = some (String.ofList rest) ∧
      textBytes name = textBytes front ++ textBytes (String.ofList rest) := by
  obtain ⟨maker, hmaker, hname⟩ := h
  have hspell := spellMaker_textBytes_iff.2 hmaker
  have hsplit : name = String.ofList maker ++ String.ofList rest := by
    rw [← String.ofList_append, ← hname, String.ofList_toList]
  obtain ⟨hfront, hback⟩ := slices_append (String.ofList maker) (String.ofList rest)
  rw [← hsplit, ← length_textBytes, hspell.length_eq] at hfront hback
  exact ⟨_, hspell, hfront, hback, by rw [hsplit, textBytes_append]⟩

/-- **The cut is between two characters**, and gives the label. -/
theorem slicedLabel?_eq (model : String) : slicedLabel? model = some (deviceModelLabel model) := by
  rw [slicedLabel?, length_omittedBytes]
  rcases deviceModelLabel_cases model with ⟨hblank, hlabel⟩ | ⟨rest, hrest, hlabel⟩ |
    ⟨hne, hnone, hlabel⟩
  · rw [if_pos hblank, hlabel]
  · obtain ⟨front, hspell, hfront, hback, -⟩ := slices_of_followsMaker hrest
    simp only [if_neg hrest.ne_empty, hfront, hback, if_pos hspell, hlabel]
  · rw [if_neg hne, hlabel]
    cases hfront : sliceTo? (trim model) 8 with
    | none => rfl
    | some front =>
      -- if the front spelled the maker, so would the first bytes of the name
      have hspell : ¬ SpellMaker (textBytes front) := by
        intro hspell
        obtain ⟨back, hsplit, -⟩ := exists_of_sliceTo?_eq_some hfront
        refine not_exists.2 hnone (spellMaker_take_iff.1 ?_)
        rw [hsplit, textBytes_append, List.take_left' hspell.length_eq]
        exact hspell
      simp only [if_neg hspell]

/-- **What is left of the name of a device model**, in bytes: all of it but the eight that spell the
omitted maker, if they do.  No cut fails that would have to succeed, and something is left to be
seen. -/
theorem deviceModelLabel_exact (model : String) :
    let name := trim model
    let bytes := textBytes name
    (name = "" → deviceModelLabel model = "Unknown") ∧
    (SpellMaker (bytes.take 8) → textBytes (deviceModelLabel model) = bytes.drop 8) ∧
    (name ≠ "" → ¬ SpellMaker (bytes.take 8) → deviceModelLabel model = name) ∧
    (name ≠ "" → sliceTo? name 8 = none → deviceModelLabel model = name) ∧
    (∃ c ∈ (deviceModelLabel model).toList, isBlank c = false) ∧
    slicedLabel? model = some (deviceModelLabel model) := by
  intro name bytes
  refine ⟨deviceModelLabel_of_blank, ?_, ?_, ?_,
    exists_isBlank_eq_false_deviceModelLabel model, slicedLabel?_eq model⟩
  · intro hspell
    obtain ⟨rest, hrest⟩ := spellMaker_take_iff.1 hspell
    obtain ⟨front, hfront, -, -, hsplit⟩ := slices_of_followsMaker hrest
    show textBytes (deviceModelLabel model) = (textBytes name).drop 8
    rw [deviceModelLabel_of_followsMaker hrest, hsplit, List.drop_left' hfront.length_eq]
  · intro hne hspell
    refine deviceModelLabel_of_not_followsMaker hne fun rest h => hspell ?_
    exact spellMaker_take_iff.2 ⟨rest, h⟩
  · intro hne hcut
    refine deviceModelLabel_of_not_followsMaker hne fun rest h => ?_
    obtain ⟨front, -, hfront, -⟩ := slices_of_followsMaker h
    rw [hcut] at hfront
    cases hfront

/-- Eight bytes end within a character of the one name, and in front of one in the other. -/
theorem deviceModelLabel_exact_multibyte :
    let short := " SAMSUNG Ü\n"
    let long := "小米小米"
    (SpellMaker ((textBytes (trim short)).take 8) ∧
      textBytes (deviceModelLabel short) = textBytes "Ü") ∧
    sliceTo? (trim long) 8 = none ∧ deviceModelLabel long = trim long := by
  intro short long
  have hspell : SpellMaker ((textBytes (trim short)).take 8) := by decide +kernel
  have hcut : sliceTo? (trim long) 8 = none := by decide +kernel
  have hne : trim long ≠ "" := by decide +kernel
  obtain ⟨-, hshort, -⟩ := deviceModelLabel_exact short
  obtain ⟨-, -, -, hlong, -⟩ := deviceModelLabel_exact long
  have hrest : (textBytes (trim short)).drop 8 = textBytes "Ü" := by decide +kernel
  exact ⟨⟨hspell, (hshort hspell).trans hrest⟩, hcut, hlong hne hcut⟩

end SpikeWatch
