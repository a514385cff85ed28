import SpikeWatch.Text.Blank
import SpikeWatch.Text.LowerCase

/-!
# A text in lower case stays as it is

The mappings to lower case are given as runs of code points that move by the same shift.  None of
them moves a character to where another run, or the same one, would move it again, nor to a blank.
Both are facts about the table, and `CaseRun.misses` is what is looked at in it: where all
characters of one run go, and not where each goes.

* `IsLower` characters are their own lower case wherever they stand, and there are no others in a
  text that is in lower case (`isLower_of_mem_lowerFrom`).  So `lower_lower`.
* `Trimmed` texts have no blanks at their ends.  `trim` makes such texts and leaves them as they are
  (`trimChars_eq_self_iff`), and they stay so in lower case (`trimmed_lowerFrom`).
-/

set_option autoImplicit false

namespace SpikeWatch.Text

/-! ## Where a run goes -/

namespace CaseRun

/-- Where the run maps a code point to. -/
def image (r : CaseRun) (code : Nat) : Nat := (code + r.shift).toNat

/-- The run maps to characters, and not to the code points that are none. -/
def MapsToChars (r : CaseRun) : Prop :=
  0 ≤ r.first + r.shift ∧ (r.image r.last < 0xD800 ∨
    0xDFFF < r.image r.first ∧ r.image r.last < 0x110000)

instance (r : CaseRun) : Decidable r.MapsToChars :=
  inferInstanceAs (Decidable (_ ∧ _))

/-- The run maps to nothing that the other one holds: it goes to another place, or between the code
points of the other one. -/
def misses (r other : CaseRun) : Bool :=
  other.last.blt (r.image r.first) || (r.image r.last).blt other.first ||
    (other.stride == 2 && (r.stride == 2 || r.first == r.last) &&
      (r.image r.first - other.first) % 2 == 1)

variable {r other : CaseRun} {code : Nat}

/-- A run holds every code between its ends that is a whole number of strides from the first. -/
theorem holds_iff : r.holds code = true ↔
    r.first ≤ code ∧ code ≤ r.last ∧ (code - r.first) % r.stride = 0 := by
  simp [holds, and_assoc]

/-- A run misses another one if its images lie in front of that, or behind it, or between its
codes. -/
theorem misses_iff : r.misses other = true ↔
    other.last < r.image r.first ∨ r.image r.last < other.first ∨
      (other.stride = 2 ∧ (r.stride = 2 ∨ r.first = r.last) ∧
        (r.image r.first - other.first) % 2 = 1) := by
  simp [misses, Nat.blt_eq, or_assoc, and_assoc]

/-- A run that maps to characters does so for each code it holds, since all its images lie on one
side of the surrogates. -/
theorem MapsToChars.isValidChar_image (h : r.MapsToChars) (hcode : r.holds code = true) :
    (r.image code).isValidChar := by
  obtain ⟨hfirst, hlast, -⟩ := holds_iff.1 hcode
  obtain ⟨hnonneg, hvalid⟩ := h
  simp only [image] at *
  unfold Nat.isValidChar
  omega

/-- No image of a run is held by a run that it misses. -/
theorem MapsToChars.holds_image (h : r.MapsToChars) (hmisses : r.misses other = true)
    (hcode : r.holds code = true) : other.holds (r.image code) = false := by
  obtain ⟨hfirst, hlast, hstep⟩ := holds_iff.1 hcode
  have hnonneg := h.1
  rw [misses_iff] at hmisses
  rw [← Bool.not_eq_true, holds_iff]
  rintro ⟨hfirst', hlast', hstep'⟩
  simp only [image] at *
  rcases hmisses with hmisses | hmisses | ⟨hother, hr, hodd⟩
  · omega
  · omega
  · -- the run moves by twos, or not at all, and begins between the code points of the other one
    rw [hother] at hstep'
    rcases hr with hr | hr
    · rw [hr] at hstep
      omega
    · omega

end CaseRun

/-- A range of code points as a run. -/
def rangeRun (range : Nat × Nat) : CaseRun := ⟨range.1, range.2, 1, 0⟩

/-- What nothing is mapped to: all that is mapped itself, blanks, and `İ`. -/
def avoidedRuns : List CaseRun := rangeRun (0x130, 0x130) :: whiteSpace.map rangeRun ++ lowerRuns

/-- The runs of the table map to characters. -/
theorem mapsToChars_of_mem_lowerRuns : ∀ r ∈ lowerRuns, r.MapsToChars := by decide +kernel

/-- No run of the table leads to one that is to be avoided: neither to a run of the table nor to
blanks.  This looks at the ends of the runs, so it does not go through their characters. -/
theorem misses_avoidedRuns :
    (lowerRuns.all fun r => avoidedRuns.all r.misses) = true := by decide +kernel

theorem holds_image_of_mem {r other : CaseRun} (hr : r ∈ lowerRuns) (hother : other ∈ avoidedRuns)
    {code : Nat} (hcode : r.holds code = true) : other.holds (r.image code) = false := by
  have hmisses := List.all_eq_true.1 (List.all_eq_true.1 misses_avoidedRuns r hr) other hother
  exact (mapsToChars_of_mem_lowerRuns r hr).holds_image hmisses hcode

theorem CodeRanges.exists_of_holds {ranges : CodeRanges} {code : Nat}
    (h : ranges.holds code = true) : ∃ range ∈ ranges, (rangeRun range).holds code = true := by
  induction ranges with
  | nil => cases h
  | cons range ranges ih =>
    rw [holds] at h
    split at h
    · cases h
    · next hfirst =>
      split at h
      · next hlast =>
        have hholds : (rangeRun range).holds code = true :=
          CaseRun.holds_iff.2 ⟨Nat.le_of_not_lt hfirst, hlast, Nat.mod_one _⟩
        exact ⟨range, List.mem_cons_self, hholds⟩
      · obtain ⟨range', hmem, hholds⟩ := ih h
        exact ⟨range', List.mem_cons_of_mem _ hmem, hholds⟩

/-! ## Characters -/

/-- A character moves by a run, or stays because no run holds it. -/
theorem lowerChar_cases (c : Char) :
    (∃ r ∈ lowerRuns, r.holds c.toNat = true ∧ (lowerChar c).toNat = r.image c.toNat) ∨
      ((∀ r ∈ lowerRuns, r.holds c.toNat = false) ∧ lowerChar c = c) := by
  rw [lowerChar]
  cases hfind : lowerRuns.find? (·.holds c.toNat) with
  | none => exact .inr ⟨by simpa using hfind, rfl⟩
  | some r =>
    have hmem := List.mem_of_find?_eq_some hfind
    have hholds := List.find?_some hfind
    have hvalid := (mapsToChars_of_mem_lowerRuns r hmem).isValidChar_image hholds
    refine .inl ⟨r, hmem, hholds, ?_⟩
    change (Char.ofNat (r.image c.toNat)).toNat = r.image c.toNat
    rw [Char.ofNat, dif_pos hvalid]
    rfl

/-- A character that has come to lie where nothing is mapped to was there before. -/
theorem lowerChar_eq_self_of_mem {c : Char} {other : CaseRun} (hother : other ∈ avoidedRuns)
    (h : other.holds (lowerChar c).toNat = true) : lowerChar c = c := by
  rcases lowerChar_cases c with ⟨r, hr, hholds, himage⟩ | ⟨-, hself⟩
  · rw [himage, holds_image_of_mem hr hother hholds] at h
    cases h
  · exact hself

/-- **A character in lower case is its own lower case.** -/
theorem lowerChar_lowerChar (c : Char) : lowerChar (lowerChar c) = lowerChar c := by
  rcases lowerChar_cases (lowerChar c) with ⟨r, hr, hholds, -⟩ | ⟨-, hself⟩
  · exact congrArg lowerChar (lowerChar_eq_self_of_mem (List.mem_append_right _ hr) hholds)
  · exact hself

/-- A character that is no blank does not become one. -/
theorem isBlank_lowerChar {c : Char} (h : isBlank c = false) : isBlank (lowerChar c) = false := by
  rw [← Bool.not_eq_true]
  intro hblank
  obtain ⟨range, hrange, hholds⟩ := CodeRanges.exists_of_holds hblank
  have hother : rangeRun range ∈ avoidedRuns :=
    List.mem_append_left _ (List.mem_cons_of_mem _ (List.mem_map_of_mem hrange))
  rw [lowerChar_eq_self_of_mem hother hholds, h] at hblank
  cases hblank

/-- A character that is its own lower case wherever it stands. -/
def IsLower (c : Char) : Prop := lowerChar c = c ∧ c ≠ 'İ'

/-- All characters but one become lower case.  That one is written as two characters, which are
lower case both. -/
theorem isLower_lowerChar {c : Char} (h : c ≠ 'İ') : IsLower (lowerChar c) := by
  refine ⟨lowerChar_lowerChar c, fun hcapital => h ?_⟩
  have hother : rangeRun (0x130, 0x130) ∈ avoidedRuns := List.mem_cons_self
  exact (lowerChar_eq_self_of_mem hother (by rw [hcapital]; rfl)).symm.trans hcapital

/-- A character in lower case stays as it is, whatever stands around it. -/
theorem lowerAt_of_isLower {c : Char} (h : IsLower c) (before after : List Char) :
    lowerAt before c after = [c] := by
  have hsigma : c ≠ 'Σ' := by
    rintro rfl
    exact absurd h.1 (by decide +kernel)
  rw [lowerAt, if_neg hsigma, if_neg h.2, h.1]

/-- The characters in the lower case of `Σ` and `İ`. -/
def specials : List Char := ['ς', 'σ', 'i', '\u0307']

/-- What a character is turned into: the lower case of this character, or one of a few special
ones. -/
theorem mem_lowerAt {before after : List Char} {c d : Char} (h : d ∈ lowerAt before c after) :
    d ∈ specials ∨ (c ≠ 'İ' ∧ d = lowerChar c) := by
  rw [lowerAt] at h
  split at h
  · split at h <;> simp_all [specials]
  · split at h
    · simp_all [specials]
    · next hcapital => exact .inr ⟨hcapital, List.mem_singleton.1 h⟩

/-- Whatever a character is turned into is in lower case. -/
theorem isLower_of_mem_lowerAt {before after : List Char} {c d : Char}
    (h : d ∈ lowerAt before c after) : IsLower d := by
  rcases mem_lowerAt h with h | ⟨hcapital, rfl⟩
  · have hspecials : (specials.all fun d => lowerChar d == d && d != 'İ') = true := by
      decide +kernel
    simpa [IsLower] using List.all_eq_true.1 hspecials d h
  · exact isLower_lowerChar hcapital

/-- What a character is turned into is no blank, unless the character was one. -/
theorem isBlank_of_mem_lowerAt {before after : List Char} {c d : Char} (hc : isBlank c = false)
    (h : d ∈ lowerAt before c after) : isBlank d = false := by
  rcases mem_lowerAt h with h | ⟨-, rfl⟩
  · have hspecials : (specials.all fun d => !isBlank d) = true := by decide
    simpa using List.all_eq_true.1 hspecials d h
  · exact isBlank_lowerChar hc

/-! ## Texts -/

/-- A text that was put into lower case has lower case in it only. -/
theorem isLower_of_mem_lowerFrom {before cs : List Char} {d : Char}
    (h : d ∈ lowerFrom before cs) : IsLower d := by
  induction cs generalizing before with
  | nil => cases h
  | cons c rest ih =>
    rcases List.mem_append.1 h with h | h
    · exact isLower_of_mem_lowerAt h
    · exact ih h

example : lowerFrom [] ['O', 'Δ', 'Ο', 'Σ', ' ', 'Σ'] = ['o', 'δ', 'ο', 'ς', ' ', 'σ'] := by
  decide +kernel

/-- Such a text stays as it is.  What stands around a character matters for capitals alone. -/
theorem lowerFrom_eq_self {before cs : List Char} (h : ∀ c ∈ cs, IsLower c) :
    lowerFrom before cs = cs := by
  induction cs generalizing before with
  | nil => rfl
  | cons c rest ih =>
    obtain ⟨hc, hrest⟩ := List.forall_mem_cons.1 h
    rw [lowerFrom, lowerAt_of_isLower hc, ih hrest, List.singleton_append]

/-- **A text in lower case stays as it is.** -/
theorem lower_lower (s : String) : lower (lower s) = lower s := by
  rw [lower, lower, String.toList_ofList, lowerFrom_eq_self fun c => isLower_of_mem_lowerFrom]

/-! ## Blanks at the ends -/

/-- Characters with no blank at either end. -/
structure Trimmed (cs : List Char) : Prop where
  front : ∀ c ∈ cs.head?, isBlank c = false
  back : ∀ c ∈ cs.getLast?, isBlank c = false

theorem trimFront_eq_self {cs : List Char} (h : ∀ c ∈ cs.head?, isBlank c = false) :
    trimFront cs = cs := by
  cases cs with
  | nil => rfl
  | cons c rest => rw [trimFront, List.dropWhile_cons, h c rfl, if_neg Bool.false_ne_true]

theorem isBlank_of_mem_head?_trimFront {cs : List Char} :
    ∀ c ∈ (trimFront cs).head?, isBlank c = false := by
  intro c hc
  have hhead := List.head?_dropWhile_not isBlank cs
  rw [← trimFront, Option.mem_def.1 hc] at hhead
  simpa using hhead

/-- Trimming leaves no blank at either end. -/
theorem trimmed_trimChars (cs : List Char) : Trimmed (trimChars cs) where
  front c hc := by
    -- what is left after the back begins as what is left after the front does
    rw [trimChars, List.head?_reverse] at hc
    obtain ⟨rest, hrest⟩ := List.dropWhile_suffix (l := (trimFront cs).reverse) isBlank
    have hfront : c ∈ (trimFront cs).reverse.getLast? := by
      rw [← hrest, List.getLast?_append, ← trimFront, Option.mem_def.1 hc]
      rfl
    rw [List.getLast?_reverse] at hfront
    exact isBlank_of_mem_head?_trimFront c hfront
  back c hc := by
    rw [trimChars, List.getLast?_reverse] at hc
    exact isBlank_of_mem_head?_trimFront c hc

example : trimChars ['\t', 'a', ' ', 'b', '\n', ' '] = ['a', ' ', 'b'] := by decide

/-- Trimming changes a text just if there is a blank at one of its ends. -/
theorem trimChars_eq_self_iff {cs : List Char} : trimChars cs = cs ↔ Trimmed cs := by
  constructor
  · intro h
    rw [← h]
    exact trimmed_trimChars cs
  · rintro ⟨hfront, hback⟩
    rw [trimChars, trimFront_eq_self hfront, trimFront_eq_self, List.reverse_reverse]
    rwa [List.head?_reverse]

theorem isBlank_of_mem_getLast?_lowerFrom {before cs : List Char}
    (h : ∀ c ∈ cs.getLast?, isBlank c = false) :
    ∀ d ∈ (lowerFrom before cs).getLast?, isBlank d = false := by
  induction cs generalizing before with
  | nil => exact fun d hd => nomatch hd
  | cons c rest ih =>
    intro d hd
    rw [lowerFrom] at hd
    cases rest with
    | nil =>
      rw [lowerFrom, List.append_nil] at hd
      exact isBlank_of_mem_lowerAt (h c rfl) (List.mem_of_getLast? hd)
    | cons c' rest =>
      have hne : lowerFrom (c :: before) (c' :: rest) ≠ [] := by
        rw [Ne, lowerFrom_eq_nil_iff]
        exact List.cons_ne_nil _ _
      rw [List.getLast?_append, Option.or_of_isSome (List.getLast?_isSome.2 hne)] at hd
      exact ih (by rwa [List.getLast?_cons_cons] at h) d hd

/-- A trimmed text stays so in lower case: its ends are turned into characters that are no
blanks. -/
theorem trimmed_lowerFrom {before cs : List Char} (h : Trimmed cs) :
    Trimmed (lowerFrom before cs) where
  front d hd := by
    cases cs with
    | nil => cases hd
    | cons c rest =>
      have hsome := List.isSome_head?.2 (lowerAt_ne_nil before c rest)
      rw [lowerFrom, List.head?_append, Option.or_of_isSome hsome] at hd
      exact isBlank_of_mem_lowerAt (h.front c rfl) (List.mem_of_head? hd)
  back := isBlank_of_mem_getLast?_lowerFrom h.back

end SpikeWatch.Text
