import SpikeWatch.Pipeline.Lines
import SpikeWatch.Proofs.Json.Written
import SpikeWatch.Proofs.Text.Bytes

/-!
# Lines of bytes

Cutting loses nothing and ends each line at a line feed, and texts without control characters that
are written line by line are cut into the same lines again.

* `IsCut` says what it means that bytes are cut into lines, and `isCut_cutLines` that they are.
* `cutLines_flatMap_terminated`: what was written line by line is read line by line.
-/

set_option autoImplicit false

namespace SpikeWatch

/-! ## Cutting -/

/-- Lines that make up some bytes.  All but the last end in a line feed, and the last may; there is
no line feed in front of the end of a line. -/
structure IsCut (bytes : List UInt8) (lines : List (List UInt8)) : Prop where
  flatten : lines.flatten = bytes
  nonempty : ∀ line ∈ lines, line ≠ []
  inner : ∀ line ∈ lines, lineFeed ∉ line.dropLast
  ends : ∀ line ∈ lines.dropLast, line.getLast? = some lineFeed

variable {front bytes rest : List UInt8}

/-- A line behind its end. -/
def terminated (front : List UInt8) : List UInt8 := front ++ [lineFeed]

theorem bne_lineFeed (h : lineFeed ∉ front) : ∀ b ∈ front, (b != lineFeed) = true :=
  fun _ hb => bne_iff_ne.2 fun heq => h (heq ▸ hb)

theorem cutLines_of_not_mem (h : lineFeed ∉ bytes) :
    cutLines bytes = if bytes.isEmpty then [] else [bytes] := by
  rw [cutLines]
  split
  · rfl
  · next heq =>
    rw [← List.append_nil bytes, List.dropWhile_append_of_pos (bne_lineFeed h)] at heq
    cases heq

/-- The first line feed ends the first line. -/
theorem cutLines_append (h : lineFeed ∉ front) (rest : List UInt8) :
    cutLines (front ++ lineFeed :: rest) = terminated front :: cutLines rest := by
  rw [cutLines]
  split
  · next heq =>
    rw [List.dropWhile_append_of_pos (bne_lineFeed h)] at heq
    simp at heq
  · next b behind heq =>
    rw [List.dropWhile_append_of_pos (bne_lineFeed h)] at heq
    rw [List.takeWhile_append_of_pos (bne_lineFeed h)]
    simp at heq
    obtain ⟨rfl, rfl⟩ := heq
    simp [terminated]

/-- What holds of bytes without a line feed, and behind a line feed if it holds of the bytes behind
it, holds of all bytes. -/
theorem lines_induct {motive : List UInt8 → Prop}
    (last : ∀ bytes, lineFeed ∉ bytes → motive bytes)
    (line : ∀ front rest, lineFeed ∉ front → motive rest → motive (front ++ lineFeed :: rest))
    (bytes : List UInt8) : motive bytes := by
  induction hlength : bytes.length using Nat.strong_induction_on generalizing bytes with
  | _ n ih =>
    by_cases hfeed : lineFeed ∈ bytes
    · obtain ⟨front, rest, rfl, hfront⟩ := List.eq_append_cons_of_mem hfeed
      refine line front rest hfront (ih rest.length ?_ rest rfl)
      simp only [← hlength, List.length_append, List.length_cons]
      omega
    · exact last bytes hfeed

theorem IsCut.cons {lines : List (List UInt8)} (hfront : lineFeed ∉ front) (h : IsCut rest lines) :
    IsCut (front ++ lineFeed :: rest) (terminated front :: lines) where
  flatten := by rw [List.flatten_cons, h.flatten, terminated, List.append_assoc]; rfl
  nonempty := List.forall_mem_cons.2 ⟨by simp [terminated], h.nonempty⟩
  inner := List.forall_mem_cons.2 ⟨by simpa [terminated] using hfront, h.inner⟩
  ends := by
    cases lines with
    | nil => exact List.forall_mem_nil _
    | cons next lines =>
      rw [List.dropLast_cons_cons]
      exact List.forall_mem_cons.2 ⟨by simp [terminated], h.ends⟩

theorem isCut_cutLines (bytes : List UInt8) : IsCut bytes (cutLines bytes) := by
  induction bytes using lines_induct with
  | last bytes hfeed =>
    rw [cutLines_of_not_mem hfeed]
    cases bytes with
    | nil => exact ⟨rfl, by simp, by simp, by simp⟩
    | cons b bytes =>
      refine ⟨List.append_nil _, by simp, ?_, by simp⟩
      exact List.forall_mem_singleton.2 fun hmem => hfeed (List.mem_of_mem_dropLast hmem)
  | line front rest hfront ih =>
    rw [cutLines_append hfront]
    exact ih.cons hfront

/-- **Lines are read as they were written.** -/
theorem cutLines_flatMap_terminated {lines : List (List UInt8)}
    (h : ∀ line ∈ lines, lineFeed ∉ line) :
    cutLines (lines.flatMap terminated) = lines.map terminated := by
  induction lines with
  | nil => exact cutLines_of_not_mem List.not_mem_nil
  | cons line lines ih =>
    obtain ⟨hline, hlines⟩ := List.forall_mem_cons.1 h
    rw [List.flatMap_cons, List.map_cons, ← ih hlines, terminated, List.append_assoc]
    exact cutLines_append hline _

/-! ## Bytes of texts -/

theorem lineFeed_not_mem_textBytes {s : String} (h : Json.Legible s.toList) :
    lineFeed ∉ textBytes s := by
  rw [textBytes_eq, List.mem_flatMap]
  rintro ⟨c, hc, hfeed⟩
  refine h c hc (Json.Grammar.lt_space_iff.2 ?_)
  rw [Text.toNat_eq_of_mem_utf8EncodeChar hfeed (by decide)]
  decide

end SpikeWatch
