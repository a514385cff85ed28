import SpikeWatch.Text.Blank
import SpikeWatch.Text.LowerCase

/-!
# Basic letters in another case, and blanks at the ends

What a text is trimmed to, and what it is in lower case, hardly depends on how its basic letters are
written.  A capital among them is blank, cased or ignorable just if its small letter is, so nothing
around it sees the difference, and both have the same lower case.

* `apply_toLower` reduces all such facts to the twenty-six capitals.
* `trimChars_map_toLower` and `lowerFrom_map_toLower` are what follows for whole texts.
* `trimChars_append`: blanks put on the ends of a text are taken off again.
-/

set_option autoImplicit false

namespace SpikeWatch.Text

/-! ## Capitals -/

/-- The capitals of the basic alphabet. -/
def capitals : List Char := (List.range 26).map fun i => Char.ofNat (65 + i)

theorem mem_capitals_iff {c : Char} : c ∈ capitals ↔ 65 ≤ c.toNat ∧ c.toNat ≤ 90 := by
  constructor
  · intro h
    have hrange : (capitals.all fun c => 65 ≤ c.toNat ∧ c.toNat ≤ 90) = true := by decide
    exact of_decide_eq_true (List.all_eq_true.1 hrange c h)
  · rintro ⟨hfirst, hlast⟩
    refine List.mem_map.2 ⟨c.toNat - 65, List.mem_range.2 (by omega), ?_⟩
    rw [show 65 + (c.toNat - 65) = c.toNat by omega, Char.ofNat_toNat]

/-- Only capitals have another letter as their basic small letter. -/
theorem toLower_eq_self {c : Char} (h : c ∉ capitals) : c.toLower = c := by
  refine dif_neg fun hupper => h (mem_capitals_iff.2 ⟨?_, ?_⟩)
  · exact UInt32.le_iff_toNat_le.1 hupper.1
  · exact UInt32.le_iff_toNat_le.1 hupper.2

/-- What does not tell a capital from its small letter does not tell any basic letters apart by
their case. -/
theorem apply_toLower {α : Type} [DecidableEq α] {f : Char → α}
    (h : (capitals.all fun c => f c.toLower = f c) = true) (c : Char) : f c.toLower = f c := by
  by_cases hc : c ∈ capitals
  · exact of_decide_eq_true (List.all_eq_true.1 h c hc)
  · rw [toLower_eq_self hc]

theorem isBlank_toLower : ∀ c : Char, isBlank c.toLower = isBlank c :=
  apply_toLower (by decide)

theorem caseIgnorable_toLower (c : Char) :
    caseIgnorable.holds c.toLower.toNat = caseIgnorable.holds c.toNat :=
  apply_toLower (f := fun c => caseIgnorable.holds c.toNat) (by decide +kernel) c

theorem cased_toLower (c : Char) : cased.holds c.toLower.toNat = cased.holds c.toNat :=
  apply_toLower (f := fun c => cased.holds c.toNat) (by decide +kernel) c

theorem lowerChar_toLower : ∀ c : Char, lowerChar c.toLower = lowerChar c :=
  apply_toLower (by decide +kernel)

theorem toLower_eq_iff {d : Char} (h : (capitals.all fun c => (c.toLower == d) = (c == d)) = true)
    (c : Char) : c.toLower = d ↔ c = d := by
  have hsame := apply_toLower (f := (· == d)) h c
  rw [← beq_iff_eq, hsame, beq_iff_eq]

/-! ## Lower case -/

theorem startsCased_map_toLower (cs : List Char) :
    startsCased (cs.map Char.toLower) = startsCased cs := by
  have hignorable : (fun c : Char => caseIgnorable.holds c.toNat) ∘ Char.toLower =
      fun c => caseIgnorable.holds c.toNat := funext caseIgnorable_toLower
  rw [startsCased, startsCased, List.dropWhile_map, hignorable]
  cases cs.dropWhile fun c => caseIgnorable.holds c.toNat with
  | nil => rfl
  | cons c rest => exact cased_toLower c

theorem lowerAt_map_toLower (before : List Char) (c : Char) (after : List Char) :
    lowerAt (before.map Char.toLower) c.toLower (after.map Char.toLower) =
      lowerAt before c after := by
  have hsigma : c.toLower = 'Σ' ↔ c = 'Σ' := toLower_eq_iff (by decide) c
  have hdotted : c.toLower = 'İ' ↔ c = 'İ' := toLower_eq_iff (by decide) c
  simp only [lowerAt, startsCased_map_toLower, hsigma, hdotted, lowerChar_toLower]

/-- The lower case of a text does not depend on the case of its basic letters. -/
theorem lowerFrom_map_toLower (before cs : List Char) :
    lowerFrom (before.map Char.toLower) (cs.map Char.toLower) = lowerFrom before cs := by
  induction cs generalizing before with
  | nil => rfl
  | cons c rest ih =>
    rw [List.map_cons, lowerFrom, lowerFrom, lowerAt_map_toLower, ← List.map_cons, ih]

/-! ## Ends -/

theorem trimFront_map_toLower (cs : List Char) :
    trimFront (cs.map Char.toLower) = (trimFront cs).map Char.toLower := by
  have hblank : isBlank ∘ Char.toLower = isBlank := funext isBlank_toLower
  rw [trimFront, trimFront, List.dropWhile_map, hblank]

theorem trimChars_map_toLower (cs : List Char) :
    trimChars (cs.map Char.toLower) = (trimChars cs).map Char.toLower := by
  simp only [trimChars, trimFront_map_toLower, ← List.map_reverse]

/-- Blanks behind a text stay behind what is left of it, if anything is. -/
theorem trimFront_append (cs : List Char) {back : List Char}
    (hback : ∀ c ∈ back, isBlank c = true) :
    trimFront (cs ++ back) = if (trimFront cs).isEmpty then [] else trimFront cs ++ back := by
  have hnil : trimFront back = [] := trimFront_eq_nil_iff.2 hback
  rw [trimFront, List.dropWhile_append, ← trimFront, ← trimFront, hnil]

/-- Blanks that were put on the ends of a text are taken off again. -/
theorem trimChars_append {front back : List Char} (hfront : ∀ c ∈ front, isBlank c = true)
    (hback : ∀ c ∈ back, isBlank c = true) (cs : List Char) :
    trimChars (front ++ cs ++ back) = trimChars cs := by
  have hskip : trimFront (front ++ cs ++ back) = trimFront (cs ++ back) := by
    rw [trimFront, List.append_assoc, List.dropWhile_append_of_pos hfront, ← trimFront]
  rw [trimChars, trimChars, hskip, trimFront_append cs hback]
  by_cases hempty : (trimFront cs).isEmpty = true
  · rw [if_pos hempty, List.isEmpty_iff.1 hempty]
  · -- from behind, the blanks stand in front
    have hreverse : ∀ c ∈ back.reverse, isBlank c = true := fun c hc =>
      hback c (List.mem_reverse.1 hc)
    rw [if_neg hempty, List.reverse_append, trimFront, List.dropWhile_append_of_pos hreverse,
      ← trimFront]

end SpikeWatch.Text
