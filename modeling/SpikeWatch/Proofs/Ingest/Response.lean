import SpikeWatch.Ingest.Response
import SpikeWatch.Proofs.Json.Records

/-!
# Responses are read back

A response is written as an object and read back from it as it was: strings whatever characters are
in them, counts as long as they fit sixty-four bits, and no lines for a list that was left out.

Both directions meet in the grammar.  What is written is the text of a tree, and what is read is the
value of that tree, so neither the writer nor the reader is looked into a second time.

* `Response.tree` is the text of a response in the grammar, and `Response.members` what a reader who
  knows nothing of responses finds in it.
* `Response.ofText_text` says that a response is read back.
-/

set_option autoImplicit false

namespace SpikeWatch

open Json Json.Grammar

namespace Json

variable {key k : String} {value v : Value} {rest : List (String × Value)}

/-- A member whose key is first stays first. -/
theorem insertMember_front (h : key < k) :
    insertMember key value ((k, v) :: rest) = (key, value) :: (k, v) :: rest := if_pos h

/-- A member whose key is further behind goes on to the rest. -/
theorem insertMember_behind (h : ¬ key < k) (hne : key ≠ k) :
    insertMember key value ((k, v) :: rest) = (k, v) :: insertMember key value rest :=
  (if_neg h).trans (if_neg hne)

namespace Grammar.Tree

/-- The value of a written string is the string, whatever is in it. -/
theorem value?_ofText (s : String) (depth : Nat) : (ofText s).value? depth = some (.text s) := by
  cases depth <;> simp only [ofText, value?, ScalarText.value?, spelled?_pieces, Option.map_some,
    String.ofList_toList]

/-- The value of a written count is the count, if it fits. -/
theorem value?_ofNat {n : Nat} (h : n ≤ maxSignificand) (depth : Nat) :
    (ofNat n).value? depth = some (.number (.whole n)) := by
  cases depth <;> simp only [ofNat, value?, ScalarText.value?, NumberText.numeral?_ofNat h,
    Option.map_some]

/-- The same for all lines of a list. -/
theorem values?_ofText (lines : List String) (depth : Nat) :
    values? depth ((lines.map ofText).map fun t => ⟨.none, t, .none⟩) =
      some (lines.map .text) := by
  induction lines with
  | nil => rfl
  | cons line lines ih =>
    simp only [List.map_cons, values?, value?_ofText, ih, Option.bind_some, Option.map_some]

/-- A member has a value, with so many levels of brackets left. -/
def MeansAt (depth : Nat) (m : String × Tree) (v : String × Value) : Prop :=
  m.1 = v.1 ∧ m.2.value? depth = some v.2

/-- Members are put in their places one after the other. -/
theorem value?_ofMembers {members : List (String × Tree)} {values : List (String × Value)}
    {depth : Nat}
    (h : List.Forall₂ (MeansAt depth) members values) :
    (ofMembers members).value? (depth + 1) =
      some (.object (values.foldl (fun done v => insertMember v.1 v.2 done) [])) := by
  have hmembers (done : List (String × Value)) :
      members? depth done (members.map member) =
        some (values.foldl (fun done v => insertMember v.1 v.2 done) done) := by
    induction h generalizing done with
    | nil => rfl
    | @cons m v members values hm _ ih =>
      simp only [List.map_cons, member, members?, spelled?_pieces, Option.bind_some, hm.2,
        String.ofList_toList, ih, List.foldl_cons, hm.1]
  rw [ofMembers, value?, hmembers, Option.map_some]

end Grammar.Tree

end Json

namespace Response

/-- The text of a response in the grammar. -/
def tree (r : Response) : Tree :=
  .ofMembers <| [("accepted", .ofNat r.accepted), ("rejected", .ofNat r.rejected)] ++
    if r.errors.isEmpty then [] else [("errors", .ofList (r.errors.map .ofText))]

/-- The members of a response, sorted by their keys: the lines are there unless there are none. -/
def members (r : Response) : List (String × Value) :=
  [("accepted", .number (.whole r.accepted))] ++
    (if r.errors.isEmpty then [] else [("errors", .array (r.errors.map .text))]) ++
    [("rejected", .number (.whole r.rejected))]

/-- The writer writes the tree. -/
theorem text_eq (r : Response) : r.text = String.ofList r.tree.chars := by
  have htexts : Tree.chars ∘ Tree.ofText = writeText := funext Tree.chars_ofText
  rw [text, tree, Tree.chars_ofMembers]
  congr 2
  cases r.errors.isEmpty with
  | true => simp [Tree.chars_ofNat]
  | false => simp [Tree.chars_ofNat, Tree.chars_ofList, htexts]

/-- The tree means the members.  The depth is enough, as a response is two levels deep. -/
theorem value?_tree {r : Response} (haccepted : r.accepted ≤ maxSignificand)
    (hrejected : r.rejected ≤ maxSignificand) :
    r.tree.value? maxDepth = some (.object r.members) := by
  have hlines : (Tree.ofList (r.errors.map .ofText)).value? (maxDepth - 1) =
      some (.array (r.errors.map .text)) :=
    congrArg (Option.map Value.array) (Tree.values?_ofText r.errors (maxDepth - 2))
  have hcounts {members : List (String × Tree)} {values : List (String × Value)}
      (h : List.Forall₂ (Tree.MeansAt (maxDepth - 1)) members values) :
      List.Forall₂ (Tree.MeansAt (maxDepth - 1))
        (("accepted", .ofNat r.accepted) :: ("rejected", .ofNat r.rejected) :: members)
        (("accepted", .number (.whole r.accepted)) ::
          ("rejected", .number (.whole r.rejected)) :: values) :=
    .cons ⟨rfl, Tree.value?_ofNat haccepted _⟩ (.cons ⟨rfl, Tree.value?_ofNat hrejected _⟩ h)
  have hbehind (value v : Value) :
      insertMember "rejected" value [("accepted", v)] = [("accepted", v), ("rejected", value)] :=
    insertMember_behind (by decide) (by decide)
  rw [tree, members]
  cases herrors : r.errors with
  | nil =>
    refine (Tree.value?_ofMembers (hcounts .nil)).trans ?_
    rw [List.foldl_cons, List.foldl_cons, List.foldl_nil]
    exact congrArg (fun members => some (Value.object members)) (hbehind _ _)
  | cons line lines =>
    have hmember : Tree.MeansAt (maxDepth - 1) ("errors", .ofList (r.errors.map .ofText))
        ("errors", .array (r.errors.map .text)) := ⟨rfl, hlines⟩
    rw [herrors] at hmember
    refine (Tree.value?_ofMembers (hcounts (.cons hmember .nil))).trans ?_
    refine congrArg (fun members => some (Value.object members)) ?_
    change insertMember "errors" _ (insertMember "rejected" _ [_]) = _
    rw [hbehind, insertMember_behind (by decide) (by decide), insertMember_front (by decide)]
    rfl

/-- What is read of a response. -/
def draft (r : Response) : Draft where
  accepted := some r.accepted
  rejected := some r.rejected
  errors := if r.errors.isEmpty then none else some r.errors

/-- The members fill in the draft of a response, in the order in which they are written. -/
theorem fills_text {r : Response} (haccepted : r.accepted ≤ maxSignificand)
    (hrejected : r.rejected ≤ maxSignificand) :
    record.Fills (maxDepth - 1) {}
      ([("accepted", writeNat r.accepted), ("rejected", writeNat r.rejected)] ++
        if r.errors.isEmpty then [] else [("errors", writeList (r.errors.map writeText))])
      r.draft := by
  refine .cons _ rfl rfl ((Reads.readSize haccepted).map fun n => Draft.mk (some n) none none) ?_
  refine .cons _ rfl rfl
    ((Reads.readSize hrejected).map fun n => Draft.mk (some r.accepted) (some n) none) ?_
  rw [draft]
  cases r.errors.isEmpty with
  | true => exact .nil _
  | false =>
    have hlines : Reads (readList (maxDepth - 2 + 1) fun _ => readText)
        (writeList (r.errors.map writeText)) (r.errors.mapM some) :=
      Reads.readList r.errors (fun line _ => Reads.readText line) fun line _ =>
        Tree.chars_ofText line ▸ begins_chars (.ofText line)
    have hall : r.errors.mapM some = some r.errors :=
      List.mapM_pure.trans (congrArg some (List.map_id' r.errors))
    rw [hall] at hlines
    exact .cons _ rfl rfl
      (hlines.map fun lines => Draft.mk (some r.accepted) (some r.rejected) (some lines)) (.nil _)

/-- **Responses are read back**, and written again as they were.  Any reader of such texts finds a
list of lines in it just if there are lines. -/
theorem ofText_text (r : Response) (haccepted : r.accepted < UInt64.size)
    (hrejected : r.rejected < UInt64.size) :
    ofText r.text = .ok r ∧ (ofText r.text).map text = .ok r.text ∧
      Value.ofText r.text = .ok (.object r.members) ∧
      ("errors" ∈ r.members.map Prod.fst ↔ r.errors ≠ []) := by
  have haccepted : r.accepted ≤ maxSignificand := Nat.le_pred_of_lt haccepted
  have hrejected : r.rejected ≤ maxSignificand := Nat.le_pred_of_lt hrejected
  have hread : ofText r.text = .ok r := by
    rw [ofText, text, record.ofText_writeObject (fills_text haccepted hrejected) rfl]
    cases r with
    | mk accepted rejected errors => cases errors <;> rfl
  refine ⟨hread, by rw [hread]; rfl, ?_, ?_⟩
  · rw [text_eq]
    exact Value.ofText_eq (value?_tree haccepted hrejected)
  · rw [members]
    cases r.errors <;> simp

/-- Lines of any characters, and the greatest count. -/
theorem ofText_text_escaped :
    let r : Response := ⟨18446744073709551615, 1, ["event 0: \"\\\x00\n\u2028"]⟩
    (r.accepted < UInt64.size ∧ r.rejected < UInt64.size) ∧
      r.text = "\x7b\"accepted\":18446744073709551615,\"rejected\":1," ++
        "\"errors\":[\"event 0: \\\"\\\\\\u0000\\n\u2028\"]\x7d" ∧
      ofText r.text = .ok r ∧ (ofText r.text).map text = .ok r.text ∧
      Value.ofText r.text = .ok (.object r.members) ∧
      ("errors" ∈ r.members.map Prod.fst ↔ r.errors ≠ []) :=
  ⟨⟨by decide, by decide⟩, by decide +kernel, ofText_text _ (by decide) (by decide)⟩

end Response

end SpikeWatch
