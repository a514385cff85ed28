import SpikeWatch.CommandLine.Start

/-!
# How the program ends

Every way in which a run can end, with the status that it ends with and what is said about it.
-/

set_option autoImplicit false

namespace SpikeWatch.CommandLine

/-- How a run of the program ends. -/
inductive Ending where
  /-- All lines were read. -/
  | finished
  /-- Help was asked for and shown. -/
  | help
  | misused (m : Misuse)
  | refused (r : Refusal)
  /-- A line of the input is not text. -/
  | brokenInput

namespace Ending

/-- The ending of a run that does not go on to work. -/
def ofStop : Stop → Ending
  | .help => help
  | .misuse m => misused m

/-- The ending of a run that took lines, given whether all of them were text. -/
def ofComplete (complete : Bool) : Ending := if complete then finished else brokenInput

/-- The status that the program ends with. -/
def status : Ending → UInt32
  | finished | help => 0
  | refused _ | brokenInput => 1
  | misused _ => 2

/-- What is said about an ending that is no success. -/
def complaint? : Ending → Option String
  | finished | help => none
  | misused m => some ("error: " ++ m.message)
  | refused r => some ("Error: " ++ r.message)
  | brokenInput => some "Error: failed to read input"

end Ending

end SpikeWatch.CommandLine
