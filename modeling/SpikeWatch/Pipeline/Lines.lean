import SpikeWatch.Pipeline.Basic
import SpikeWatch.Text.Blank

/-!
# Lines of input

A pipeline is fed with lines: each line that is not blank is the body of a batch and is answered by
one line.  A body that is no batch is answered as well, and changes nothing.  Only a line that is
not UTF-8 ends the reading, with all earlier lines answered and no later one looked at.

* `cutLines` cuts bytes behind each line feed, and `lineText?` is the text of a line without its
  end.
* `Pipeline.takeLine` takes one line, and `Pipeline.takeLines` takes them all.
-/

set_option autoImplicit false

namespace SpikeWatch

/-! ## Lines -/

/-- The byte that ends a line. -/
def lineFeed : UInt8 := 10

/-- Cuts bytes behind each line feed.  What follows the last one is a line as well, unless it is
nothing. -/
def cutLines (bytes : List UInt8) : List (List UInt8) :=
  match _h : bytes.dropWhile (· != lineFeed) with
  | [] => if bytes.isEmpty then [] else [bytes]
  | b :: rest => (bytes.takeWhile (· != lineFeed) ++ [b]) :: cutLines rest
termination_by bytes.length
decreasing_by
  have hle := (List.dropWhile_suffix (fun b => b != lineFeed) (l := bytes)).length_le
  rw [_h, List.length_cons] at hle
  exact hle

/-- The characters of a line without its end: a line feed, or a carriage return and a line feed. -/
def withoutLineEnd (line : List Char) : List Char :=
  match line.reverse with
  | '\n' :: '\r' :: rest => rest.reverse
  | '\n' :: rest => rest.reverse
  | _ => line

/-- The text of a line without its end.  Bytes that are not UTF-8 have none. -/
def lineText? (line : List UInt8) : Option String :=
  (String.fromUTF8? ⟨line.toArray⟩).map fun s => String.ofList (withoutLineEnd s.toList)

/-! ## Answers -/

/-- The answer to a body that is no batch. -/
def refusalLine (body : String) (failure : Json.Failure) : String :=
  String.ofList (Json.writeObject [("error", Json.writeText (failure.bodyMessage body))])

namespace Pipeline

/-- Dispatches the batch in a body, and writes the answer on one line. -/
def answer (p : Pipeline) (body : String) : Pipeline × String :=
  match p.dispatchText body with
  | .ok (p, response) => (p, response.text)
  | .error failure => (p, refusalLine body failure)

/-- Takes a line, and answers it unless it is blank.  A line that is not text cannot be taken. -/
def takeLine (p : Pipeline) (line : List UInt8) : Option (Pipeline × Option String) :=
  (lineText? line).map fun body =>
    if Text.isBlankText body then (p, none)
    else
      let (p, answer) := p.answer body
      (p, some answer)

end Pipeline

/-- What came of taking lines. -/
structure Transcript where
  pipeline : Pipeline
  /-- The answers, each on a line of its own. -/
  answers : List String
  /-- All lines were text. -/
  complete : Bool

namespace Pipeline

/-- Takes lines one after the other, each at its own instant, up to the first that is not text. -/
def takeLines (p : Pipeline) : List (Instant × List UInt8) → Transcript
  | [] => ⟨p, [], true⟩
  | (now, line) :: rest =>
    match { p with now }.takeLine line with
    | none => ⟨p, [], false⟩
    | some (p, answer) =>
      let transcript := p.takeLines rest
      { transcript with answers := answer.toList ++ transcript.answers }

end Pipeline

end SpikeWatch
