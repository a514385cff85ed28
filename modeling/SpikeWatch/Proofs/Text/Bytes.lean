import Mathlib.Tactic.SplitIfs
import SpikeWatch.Proofs.Text.Letters

/-!
# The bytes of a text

A text is kept as UTF-8, and a place in it may be given in bytes.  A cut there fails if the text is
shorter, or if the place lies within a character.

* `sliceTo?` and `sliceFrom?` are the two parts of such a cut.  Both are there at the end of a front
  of the text (`slices_append`), and nowhere else (`exists_of_sliceTo?_eq_some`).
* Bytes below 128 are characters of their own (`toNat_eq_of_mem_utf8EncodeChar`).  So basic letters
  may be written small before or after a text is turned into bytes (`utf8EncodeChar_toLower`), and
  bytes at the beginning of a text that are those of a text are those of its beginning
  (`prefix_of_textBytes_prefix`).
-/

set_option autoImplicit false

namespace SpikeWatch

/-- The bytes of a text. -/
def textBytes (s : String) : List UInt8 := s.toUTF8.data.toList

theorem textBytes_eq (s : String) : textBytes s = s.toList.flatMap String.utf8EncodeChar := by
  rw [textBytes, String.toUTF8_eq_toByteArray, ← String.utf8Encode_toList, List.utf8Encode,
    List.data_toByteArray]

namespace Text

/-! ## Bytes of characters -/

/-- All bytes of characters that take more than one are large. -/
theorem toNat_eq_of_mem_utf8EncodeChar {c : Char} {b : UInt8}
    (h : b ∈ String.utf8EncodeChar c) (hb : b.toNat < 128) : c.toNat = b.toNat := by
  have hbyte {n : Nat} (hn : n < 256) (heq : b = UInt8.ofNat n) : b.toNat = n := by
    rw [heq, UInt8.toNat_ofNat', Nat.mod_eq_of_lt hn]
  rw [String.utf8EncodeChar] at h
  split_ifs at h with hone htwo hthree <;>
    simp only [List.mem_cons, List.not_mem_nil, or_false] at h
  case pos => exact (hbyte (Nat.lt_of_le_of_lt hone (by decide)) h).symm
  case pos => rcases h with h | h <;> have := hbyte (by omega) h <;> omega
  case pos => rcases h with h | h | h <;> have := hbyte (by omega) h <;> omega
  case neg => rcases h with h | h | h | h <;> have := hbyte (by omega) h <;> omega

theorem toAsciiLower_eq_self {b : UInt8} (h : ¬ (65 ≤ b.toNat ∧ b.toNat ≤ 90)) :
    b.toAsciiLower = b := by
  have hshift : ¬ b - 65 < 26 := by
    have hbyte := b.toNat_lt
    rw [UInt8.lt_iff_toNat_lt, UInt8.toNat_sub]
    simp only [UInt8.reduceToNat]
    omega
  have hzero : false.toUInt8 <<< 5 = 0 := by decide
  rw [UInt8.toAsciiLower, decide_eq_false hshift, hzero, UInt8.add_zero]

/-- Small letters have the bytes of their capitals, made small. -/
theorem utf8EncodeChar_toLower (c : Char) :
    String.utf8EncodeChar c.toLower = (String.utf8EncodeChar c).map UInt8.toAsciiLower := by
  by_cases hc : c ∈ capitals
  · have hcapitals : (capitals.all fun c => String.utf8EncodeChar c.toLower =
        (String.utf8EncodeChar c).map UInt8.toAsciiLower) = true := by decide
    exact of_decide_eq_true (List.all_eq_true.1 hcapitals c hc)
  · -- no byte of another character is that of a capital
    have hbytes : ∀ b ∈ String.utf8EncodeChar c, b.toAsciiLower = b := by
      intro b hb
      refine toAsciiLower_eq_self fun hrange => hc (mem_capitals_iff.2 ?_)
      rwa [toNat_eq_of_mem_utf8EncodeChar hb (by omega)]
    rw [toLower_eq_self hc, List.map_congr_left hbytes, List.map_id']

theorem textBytes_map_toLower (cs : List Char) :
    textBytes (String.ofList (cs.map Char.toLower)) =
      (textBytes (String.ofList cs)).map UInt8.toAsciiLower := by
  simp only [textBytes_eq, String.toList_ofList, List.flatMap_map, List.map_flatMap,
    utf8EncodeChar_toLower]

theorem textBytes_append (s t : String) : textBytes (s ++ t) = textBytes s ++ textBytes t := by
  simp only [textBytes_eq, String.toList_append, List.flatMap_append]

theorem length_textBytes (s : String) : (textBytes s).length = s.utf8ByteSize := rfl

theorem textBytes_inj {s t : String} : textBytes s = textBytes t ↔ s = t := by
  rw [textBytes, textBytes, Array.toList_inj, ← ByteArray.ext_iff, String.toUTF8_eq_toByteArray,
    String.toUTF8_eq_toByteArray, String.toByteArray_inj]

/-- Bytes of a text that a text begins with are those of its beginning. -/
theorem prefix_of_textBytes_prefix {cs ds : List Char}
    (h : textBytes (String.ofList cs) <+: textBytes (String.ofList ds)) : cs <+: ds := by
  obtain ⟨rest, hrest⟩ := h
  simp only [textBytes_eq, String.toList_ofList] at hrest
  refine List.isPrefix_of_utf8Encode_append_eq_utf8Encode rest.toByteArray ?_
  rw [List.utf8Encode, List.utf8Encode, ← List.toByteArray_append, hrest]

/-! ## Cuts -/

/-- The text in front of a place given in bytes; nothing if the text is shorter, or if the place
lies within a character. -/
def sliceTo? (s : String) (place : Nat) : Option String :=
  if h : String.Pos.Raw.IsValid s ⟨place⟩ then some (s.sliceTo ⟨⟨place⟩, h⟩).copy else none

/-- The text behind a place given in bytes, under the same conditions. -/
def sliceFrom? (s : String) (place : Nat) : Option String :=
  if h : String.Pos.Raw.IsValid s ⟨place⟩ then some (s.sliceFrom ⟨⟨place⟩, h⟩).copy else none

theorem slices_append (front back : String) :
    sliceTo? (front ++ back) front.utf8ByteSize = some front ∧
      sliceFrom? (front ++ back) front.utf8ByteSize = some back := by
  have hvalid : String.Pos.Raw.IsValid (front ++ back) ⟨front.utf8ByteSize⟩ :=
    String.Pos.Raw.isValid_iff_exists_append.2 ⟨front, back, rfl, rfl⟩
  let place : (front ++ back).Pos := ⟨⟨front.utf8ByteSize⟩, hvalid⟩
  have hsplits : place.Splits front back := ⟨rfl, rfl⟩
  obtain ⟨hfront, hback⟩ := place.splits.eq hsplits
  rw [sliceTo?, sliceFrom?, dif_pos hvalid, dif_pos hvalid, hfront, hback]
  exact ⟨rfl, rfl⟩

theorem exists_of_sliceTo?_eq_some {s front : String} {place : Nat}
    (h : sliceTo? s place = some front) :
    ∃ back, s = front ++ back ∧ front.utf8ByteSize = place := by
  by_cases hvalid : String.Pos.Raw.IsValid s ⟨place⟩
  · rw [sliceTo?, dif_pos hvalid] at h
    have hsplits := String.Pos.splits ⟨⟨place⟩, hvalid⟩
    rw [Option.some.inj h] at hsplits
    have hsize := congrArg String.Pos.Raw.byteIdx hsplits.offset_eq_rawEndPos
    exact ⟨_, hsplits.eq_append, hsize.symm⟩
  · rw [sliceTo?, dif_neg hvalid] at h
    cases h

end Text

end SpikeWatch
