/-!
# Classes of characters as ranges

A class of characters is a list of ranges of code points, in increasing order and apart from each
other, so that a search can end at the first range that starts too late.
-/

set_option autoImplicit false

namespace SpikeWatch.Text

/-- Ranges of code points with both ends included, in increasing order. -/
abbrev CodeRanges := List (Nat × Nat)

/-- Whether some range holds the code point. -/
def CodeRanges.holds : CodeRanges → Nat → Bool
  | [], _ => false
  | (first, last) :: rest, code =>
    if code < first then false else if code ≤ last then true else holds rest code

end SpikeWatch.Text
