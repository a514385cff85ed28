import SpikeWatch.Text.CodeRanges

/-!
# White space

A character is blank if it has Unicode's `White_Space` property.  `trim` takes blanks off both ends
of a text.
-/

set_option autoImplicit false

namespace SpikeWatch.Text

/-- The characters with the property `White_Space`. -/
def whiteSpace : CodeRanges :=
  [(0x9, 0xD), (0x20, 0x20), (0x85, 0x85), (0xA0, 0xA0), (0x1680, 0x1680), (0x2000, 0x200A),
    (0x2028, 0x2029), (0x202F, 0x202F), (0x205F, 0x205F), (0x3000, 0x3000)]

def isBlank (c : Char) : Bool := whiteSpace.holds c.toNat

/-- The characters without the blanks in front of the first other one. -/
def trimFront (cs : List Char) : List Char := cs.dropWhile isBlank

/-- The characters without the blanks at either end. -/
def trimChars (cs : List Char) : List Char := (trimFront (trimFront cs).reverse).reverse

/-- The text without the blanks at either end. -/
def trim (s : String) : String := String.ofList (trimChars s.toList)

/-- Nothing but blanks, or nothing at all. -/
def isBlankText (s : String) : Bool := s.toList.all isBlank

theorem trimFront_eq_nil_iff {cs : List Char} :
    trimFront cs = [] ↔ ∀ c ∈ cs, isBlank c = true := by
  rw [trimFront]
  induction cs with
  | nil => simp
  | cons c rest ih => cases hc : isBlank c <;> simp [hc, ih]

/-- Nothing is left of a text just if it is blank. -/
theorem trimChars_eq_nil_iff {cs : List Char} :
    trimChars cs = [] ↔ ∀ c ∈ cs, isBlank c = true := by
  rw [trimChars, List.reverse_eq_nil_iff, trimFront_eq_nil_iff]
  constructor
  · intro h
    -- all that is left after the front is blank, but it begins with a character that is not
    refine trimFront_eq_nil_iff.1 ?_
    cases hfront : trimFront cs with
    | nil => rfl
    | cons c rest =>
      have hblank : isBlank c = true := h c (by simp [hfront])
      have hhead := List.head?_dropWhile_not isBlank cs
      rw [← trimFront, hfront] at hhead
      simp [hblank] at hhead
  · intro h c hc
    rw [List.mem_reverse] at hc
    exact h c ((List.dropWhile_suffix isBlank).mem hc)

end SpikeWatch.Text
