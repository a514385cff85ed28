import SpikeWatch.Proofs.Ingest.Response
import SpikeWatch.Proofs.Pipeline.Lines
import SpikeWatch.Proofs.Pipeline.Readings

/-!
# Line by line

Whoever feeds a pipeline with lines can tell its answers apart by counting: each line that is not
blank is answered by one line, and a line that is refused leaves no other trace.

* `bodies` is what is answered, and `Pipeline.takeLinesAt_append` takes lines part by part; what is
  shown of all lines goes by `Pipeline.takeLinesAt_induct`.
* `Pipeline.Follows` is the protocol: what holds of a transcript and the lines that it is of.
  `Pipeline.follows_process` says that every transcript follows it, whatever the bytes, the pipeline
  and the readings of the clock are.
-/

set_option autoImplicit false

namespace SpikeWatch

open Json (Value Legible)
open Json.Grammar (Tree)

/-! ## What is answered -/

/-- The line is UTF-8. -/
def isText (line : List UInt8) : Bool := (lineText? line).isSome

/-- What is dispatched of a line: its text without its end, unless that is blank. -/
def body? (line : List UInt8) : Option String :=
  (lineText? line).filter fun s => !Text.isBlankText s

/-- The bodies in lines, up to the first line that is not text. -/
def bodies (lines : List (Readings × List UInt8)) : List String :=
  (lines.takeWhile fun line => isText line.2).filterMap fun line => body? line.2

/-- Each answer on a line of its own. -/
def Transcript.output (t : Transcript) : List UInt8 :=
  t.answers.flatMap fun answer => terminated (textBytes answer)

/-- A text is an object of the grammar, without blanks. -/
def IsObject (s : String) : Prop :=
  ∃ members : List (String × Tree), s.toList = (Tree.ofMembers members).chars

theorem isText_of_body? {line : List UInt8} {body : String} (h : body? line = some body) :
    isText line = true := by
  rw [isText, (Option.filter_eq_some_iff.1 h).1]
  rfl

variable {before after lines : List (Readings × List UInt8)} {clock : Readings}
  {line : List UInt8}

namespace Pipeline

variable (p : Pipeline)

/-! ## Answers -/

theorem takeLineAt_eq (clock : Readings) (line : List UInt8) :
    p.takeLineAt clock line = (lineText? line).map fun _ =>
      match body? line with
      | none => (p, none)
      | some body => ((p.answerAt clock body).1, some (p.answerAt clock body).2) := by
  rw [takeLineAt, body?]
  cases lineText? line with
  | none => rfl
  | some s => cases hblank : Text.isBlankText s <;> simp [hblank, Option.filter]

/-- A line with a body in front of others. -/
theorem takeLinesAt_cons {body : String} (h : body? line = some body) :
    p.takeLinesAt ((clock, line) :: lines) =
      let t := (p.answerAt clock body).1.takeLinesAt lines
      { t with answers := (p.answerAt clock body).2 :: t.answers } := by
  obtain ⟨s, hs⟩ := Option.isSome_iff_exists.1 (isText_of_body? h)
  rw [takeLinesAt, takeLineAt_eq, hs, h]
  rfl

/-- A blank line in front of others. -/
theorem takeLinesAt_cons_blank (htext : isText line = true) (h : body? line = none) :
    p.takeLinesAt ((clock, line) :: lines) = p.takeLinesAt lines := by
  obtain ⟨s, hs⟩ := Option.isSome_iff_exists.1 htext
  rw [takeLinesAt, takeLineAt_eq, hs, h]
  rfl

/-- A line that is not text ends the reading. -/
theorem takeLinesAt_cons_of_not (h : isText line = false) :
    p.takeLinesAt ((clock, line) :: lines) = ⟨p, [], false⟩ := by
  rw [takeLinesAt, takeLineAt_eq, Option.isSome_eq_false_iff.1 h |> Option.isNone_iff_eq_none.1]
  rfl

/-- What holds without lines, in front of a line that is not text, and behind a blank or another
line if it holds of the lines behind it, holds of all lines. -/
theorem takeLinesAt_induct {motive : Pipeline → List (Readings × List UInt8) → Prop}
    (nil : ∀ p, motive p [])
    (bad : ∀ p clock line lines, isText line = false → motive p ((clock, line) :: lines))
    (blank : ∀ p clock line lines, isText line = true → body? line = none → motive p lines →
      motive p ((clock, line) :: lines))
    (body : ∀ p clock line lines body, body? line = some body →
      motive (p.answerAt clock body).1 lines → motive p ((clock, line) :: lines))
    (p : Pipeline) (lines : List (Readings × List UInt8)) : motive p lines := by
  induction lines generalizing p with
  | nil => exact nil p
  | cons l lines ih =>
    obtain ⟨clock, line⟩ := l
    cases htext : isText line with
    | false => exact bad p clock line lines htext
    | true =>
      cases hbody : body? line with
      | none => exact blank p clock line lines htext hbody (ih p)
      | some s => exact body p clock line lines s hbody (ih _)

/-- One answer for each body. -/
theorem length_answers (lines : List (Readings × List UInt8)) :
    (p.takeLinesAt lines).answers.length = (bodies lines).length := by
  induction p, lines using takeLinesAt_induct with
  | nil p => rfl
  | bad p clock line lines htext => simp [takeLinesAt_cons_of_not _ htext, bodies, htext]
  | blank p clock line lines htext hbody ih =>
    simp [takeLinesAt_cons_blank _ htext hbody, bodies, htext, hbody, ih]
  | body p clock line lines s hbody ih =>
    simp [takeLinesAt_cons _ hbody, bodies, isText_of_body? hbody, hbody, ih]

theorem complete_iff (lines : List (Readings × List UInt8)) :
    (p.takeLinesAt lines).complete = true ↔ ∀ l ∈ lines, isText l.2 = true := by
  induction p, lines using takeLinesAt_induct with
  | nil p => simp [takeLinesAt]
  | bad p clock line lines htext => simp [takeLinesAt_cons_of_not _ htext, htext]
  | blank p clock line lines htext hbody ih =>
    simp [takeLinesAt_cons_blank _ htext hbody, htext, ih]
  | body p clock line lines s hbody ih =>
    simp [takeLinesAt_cons _ hbody, isText_of_body? hbody, ih]

/-- Lines are taken behind others as long as those are text. -/
theorem takeLinesAt_append (h : ∀ l ∈ before, isText l.2 = true) :
    p.takeLinesAt (before ++ after) =
      let t := (p.takeLinesAt before).pipeline.takeLinesAt after
      { t with answers := (p.takeLinesAt before).answers ++ t.answers } := by
  induction p, before using takeLinesAt_induct with
  | nil p => rfl
  | bad p clock line lines htext =>
    rw [(List.forall_mem_cons.1 h).1] at htext
    cases htext
  | blank p clock line lines htext hbody ih =>
    rw [List.cons_append, takeLinesAt_cons_blank _ htext hbody,
      takeLinesAt_cons_blank _ htext hbody, ih (List.forall_mem_cons.1 h).2]
  | body p clock line lines s hbody ih =>
    rw [List.cons_append, takeLinesAt_cons _ hbody, takeLinesAt_cons _ hbody,
      ih (List.forall_mem_cons.1 h).2]
    rfl

/-! ## Objects on one line -/

theorem isObject_text (r : Response) : IsObject r.text ∧ Legible r.text.toList := by
  refine ⟨⟨_, by rw [Response.text_eq, String.toList_ofList]; rfl⟩, ?_⟩
  rw [Response.text, String.toList_ofList]
  refine Json.legible_writeObject fun m hm => ?_
  rcases List.mem_append.1 hm with hm | hm
  · simp only [List.mem_cons, List.not_mem_nil, or_false] at hm
    rcases hm with rfl | rfl <;> exact Json.legible_digits _
  · split at hm
    · cases hm
    · obtain rfl := List.mem_singleton.1 hm
      refine Json.legible_writeList fun item hitem => ?_
      obtain ⟨line, -, rfl⟩ := List.mem_map.1 hitem
      exact Json.legible_writeText line

/-- The text of a refusal in the grammar. -/
def refusalTree (body : String) (failure : Json.Failure) : Tree :=
  .ofMembers [("error", .ofText (failure.bodyMessage body))]

theorem refusalLine_eq (body : String) (failure : Json.Failure) :
    refusalLine body failure = String.ofList (refusalTree body failure).chars := by
  rw [refusalLine, refusalTree, Tree.chars_ofMembers, ← Tree.chars_ofText]
  rfl

theorem isObject_refusalLine (body : String) (failure : Json.Failure) :
    IsObject (refusalLine body failure) ∧ Legible (refusalLine body failure).toList := by
  refine ⟨⟨_, by rw [refusalLine_eq, String.toList_ofList]; rfl⟩, ?_⟩
  rw [refusalLine, String.toList_ofList]
  refine Json.legible_writeObject fun m hm => ?_
  obtain rfl := List.mem_singleton.1 hm
  exact Json.legible_writeText _

theorem ofText_refusalLine (body : String) (failure : Json.Failure) :
    Value.ofText (refusalLine body failure) =
      .ok (.object [("error", .text (failure.bodyMessage body))]) := by
  have hmember : Tree.MeansAt (Json.maxDepth - 1) ("error", .ofText (failure.bodyMessage body))
      ("error", .text (failure.bodyMessage body)) := ⟨rfl, Tree.value?_ofText _ _⟩
  rw [refusalLine_eq]
  exact Value.ofText_eq (Tree.value?_ofMembers (.cons hmember .nil))

/-- Every answer is a response or a refusal. -/
theorem isObject_answer {answer : String} (h : answer ∈ (p.takeLinesAt lines).answers) :
    IsObject answer ∧ Legible answer.toList := by
  induction p, lines using takeLinesAt_induct with
  | nil p => cases h
  | bad p clock line lines htext =>
    rw [takeLinesAt_cons_of_not _ htext] at h
    cases h
  | blank p clock line lines htext hbody ih =>
    rw [takeLinesAt_cons_blank _ htext hbody] at h
    exact ih h
  | body p clock line lines s hbody ih =>
    rw [takeLinesAt_cons _ hbody] at h
    rcases List.mem_cons.1 h with rfl | h
    · rw [answerAt]
      split
      · exact isObject_text _
      · exact isObject_refusalLine ..
    · exact ih h

/-! ## The protocol -/

/-- A transcript answers lines that a pipeline took as the protocol has it. -/
structure Follows (p : Pipeline) (lines : List (Readings × List UInt8)) (t : Transcript) :
    Prop where
  /-- One answer for each line with a body in front of the first line that is not text. -/
  length : t.answers.length = (bodies lines).length
  /-- Each answer is an object without control characters. -/
  object : ∀ answer ∈ t.answers, IsObject answer ∧ Legible answer.toList
  /-- So the output read line by line is the answers. -/
  output : cutLines t.output = t.answers.map fun answer => terminated (textBytes answer)
  /-- A line is answered in its place, as the pipeline that the lines in front of it leave has it:
  by a response, or by the reason why it is refused.  If it is refused, the pipeline stays the
  same, and without the line there would be all the other answers. -/
  answer : ∀ before clock line after body, lines = before ++ (clock, line) :: after →
    (∀ l ∈ before, isText l.2 = true) → body? line = some body →
    let place := (bodies before).length
    let old := (p.takeLinesAt before).pipeline
    let new := (p.takeLinesAt (before ++ [(clock, line)])).pipeline
    match old.dispatchTextAt clock body with
    | .ok (next, response) => t.answers[place]? = some response.text ∧ new = next
    | .error failure =>
      t.answers[place]? = some (refusalLine body failure) ∧ new = old ∧
        p.takeLinesAt (before ++ after) = { t with answers := t.answers.eraseIdx place }
  /-- All lines are taken if all are text, -/
  complete : t.complete = true ↔ ∀ l ∈ lines, isText l.2 = true
  /-- and otherwise those in front of the first that is not. -/
  incomplete : ∀ before clock line after, lines = before ++ (clock, line) :: after →
    (∀ l ∈ before, isText l.2 = true) → isText line = false →
    t = { p.takeLinesAt before with complete := false }

theorem cutLines_output (lines : List (Readings × List UInt8)) :
    cutLines (p.takeLinesAt lines).output =
      (p.takeLinesAt lines).answers.map fun answer => terminated (textBytes answer) := by
  have hfeed : ∀ line ∈ (p.takeLinesAt lines).answers.map textBytes, lineFeed ∉ line := by
    intro line hline
    obtain ⟨answer, hanswer, rfl⟩ := List.mem_map.1 hline
    exact lineFeed_not_mem_textBytes (isObject_answer p hanswer).2
  have hcut := cutLines_flatMap_terminated hfeed
  rwa [List.flatMap_map, List.map_map] at hcut

theorem follows_takeLinesAt (lines : List (Readings × List UInt8)) :
    p.Follows lines (p.takeLinesAt lines) where
  length := p.length_answers lines
  object := fun _ h => isObject_answer p h
  output := p.cutLines_output lines
  complete := p.complete_iff lines
  incomplete := by
    rintro before clock line after rfl hbefore hline
    rw [takeLinesAt_append p hbefore, takeLinesAt_cons_of_not _ hline]
    simp
  answer := by
    rintro before clock line after body rfl hbefore hbody
    -- The place of an answer is the number of bodies in front of it, since blank lines have none.
    have hplace := p.length_answers before
    have hnew : (p.takeLinesAt (before ++ [(clock, line)])).pipeline =
        ((p.takeLinesAt before).pipeline.answerAt clock body).1 := by
      rw [takeLinesAt_append p hbefore, takeLinesAt_cons _ hbody]
      rfl
    rw [hnew, takeLinesAt_append p hbefore, takeLinesAt_append p hbefore, takeLinesAt_cons _ hbody,
      ← hplace, answerAt]
    cases hdispatch : (p.takeLinesAt before).pipeline.dispatchTextAt clock body with
    | ok done => simp [hdispatch]
    | error failure => simp [hdispatch, List.eraseIdx_append_of_length_le]

/-- The lines of some bytes, each with its readings, taken one after the other. -/
def process (p : Pipeline) (clock : Nat → Readings) (bytes : List UInt8) : Transcript :=
  p.takeLinesAt ((cutLines bytes).mapIdx fun place line => (clock place, line))

/-- **The protocol is followed**, and a refusal is an object with its reason as a text.  Taking
lines with one instant for each is taking them with readings that are always the same. -/
theorem follows_process (p : Pipeline) (clock : Nat → Readings) (bytes : List UInt8) :
    IsCut bytes (cutLines bytes) ∧
      p.Follows ((cutLines bytes).mapIdx fun place line => (clock place, line))
        (p.process clock bytes) ∧
      (∀ body failure, Value.ofText (refusalLine body failure) =
        .ok (.object [("error", .text (failure.bodyMessage body))])) ∧
      ∀ lines : List (Instant × List UInt8), ∃ now, p.takeLines lines =
        (p.takeLinesAt (lines.map fun (now, line) => (.still now, line))).withNow now :=
  ⟨isCut_cutLines bytes, p.follows_takeLinesAt _, ofText_refusalLine, p.takeLines_eq⟩

end Pipeline

end SpikeWatch
