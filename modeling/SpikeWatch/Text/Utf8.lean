/-!
# Showing bytes that may not be text

Bytes are read as UTF-8.  Where they are not, each longest run of bytes that begins a character and
is then broken off stands for one replacement character, and so does each byte that cannot begin
one.
-/

set_option autoImplicit false

namespace SpikeWatch.Text

/-- Stands for bytes that are not text. -/
def replacement : Char := '\uFFFD'

/-- What a leading byte promises: the bits that it holds of the code point, and for each byte that
has to follow the range of its values.  The narrower second ranges keep out code points written too
long, surrogates, and numbers beyond the last code point. -/
def leadByte? (b : Nat) : Option (Nat × List (Nat × Nat)) :=
  let tail := (0x80, 0xBF)
  if b < 0x80 then some (b, [])
  else if b < 0xC2 then none
  else if b < 0xE0 then some (b - 0xC0, [tail])
  else if b = 0xE0 then some (0, [(0xA0, 0xBF), tail])
  else if b = 0xED then some (0xD, [(0x80, 0x9F), tail])
  else if b < 0xF0 then some (b - 0xE0, [tail, tail])
  else if b = 0xF0 then some (0, [(0x90, 0xBF), tail, tail])
  else if b < 0xF4 then some (b - 0xF0, [tail, tail, tail])
  else if b = 0xF4 then some (4, [(0x80, 0x8F), tail, tail])
  else none

/-- Reads the bytes that have to follow, as far as they do. -/
def followBytes : List (Nat × Nat) → Nat → List UInt8 → Option Nat × List UInt8
  | [], code, bs => (some code, bs)
  | _ :: _, _, [] => (none, [])
  | (low, high) :: ranges, code, b :: bs =>
    if low ≤ b.toNat ∧ b.toNat ≤ high then followBytes ranges (64 * code + b.toNat % 64) bs
    else (none, b :: bs)

theorem length_followBytes_le (ranges : List (Nat × Nat)) (code : Nat) (bs : List UInt8) :
    (followBytes ranges code bs).2.length ≤ bs.length := by
  induction ranges generalizing code bs with
  | nil => simp [followBytes]
  | cons range ranges ih =>
    cases bs with
    | nil => simp [followBytes]
    | cons b bs =>
      simp only [followBytes]
      split
      · exact Nat.le_trans (ih _ _) (by simp)
      · simp

/-- The bytes as text, with a replacement character for whatever is none. -/
def decodeLossy : List UInt8 → List Char
  | [] => []
  | b :: bs =>
    match leadByte? b.toNat with
    | none => replacement :: decodeLossy bs
    | some (code, ranges) =>
      let followed := followBytes ranges code bs
      (match followed.1 with
        | some code => Char.ofNat code
        | none => replacement) :: decodeLossy followed.2
termination_by bs => bs.length
decreasing_by
  · simp
  · simpa using Nat.lt_succ_of_le (length_followBytes_le ranges code bs)

/-- The bytes as text, with a replacement character for whatever is none. -/
def showBytes (bytes : List UInt8) : String := String.ofList (decodeLossy bytes)

end SpikeWatch.Text
