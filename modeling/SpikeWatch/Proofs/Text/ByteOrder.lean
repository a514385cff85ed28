import Mathlib.Data.String.Basic
import SpikeWatch.Proofs.Text.Bytes

/-!
# The order of texts and the order of their bytes

Texts are compared character by character, and characters by their numbers.  To compare the bytes of
the texts comes to the same, which is why listings may be sorted by either.

What makes it so is that the bytes of two characters part within both of them: neither are the bytes
of one a beginning of those of the other, nor does what follows ever matter.  `PartsBelow` is this
strict form of the order of lists, and `partsBelow_utf8EncodeChar` says that characters keep it.
-/

set_option autoImplicit false

namespace SpikeWatch.Text

/-! ## Lists that part -/

/-- At the first place where two lists differ, both have a byte, and the first has the smaller. -/
inductive PartsBelow : List UInt8 → List UInt8 → Prop
  | here {b c : UInt8} {bs cs : List UInt8} (h : b < c) : PartsBelow (b :: bs) (c :: cs)
  | later {b : UInt8} {bs cs : List UInt8} (h : PartsBelow bs cs) :
    PartsBelow (b :: bs) (b :: cs)

theorem partsBelow_cons_iff {b c : UInt8} {bs cs : List UInt8} :
    PartsBelow (b :: bs) (c :: cs) ↔
      b.toNat < c.toNat ∨ b.toNat = c.toNat ∧ PartsBelow bs cs := by
  rw [← UInt8.lt_iff_toNat_lt, UInt8.toNat_inj]
  constructor
  · rintro (h | h)
    · exact .inl h
    · exact .inr ⟨rfl, h⟩
  · rintro (h | ⟨rfl, h⟩)
    · exact .here h
    · exact .later h

theorem not_partsBelow_nil (bs : List UInt8) : ¬ PartsBelow bs [] := nofun

/-- Whatever follows, lists that part are in the order of the place where they do. -/
theorem PartsBelow.append_lt_append {bs cs : List UInt8} (h : PartsBelow bs cs)
    (ds es : List UInt8) : bs ++ ds < cs ++ es := by
  induction h with
  | here h => exact List.cons_lt_cons_iff.2 (.inl h)
  | later _ ih => exact List.cons_lt_cons_iff.2 (.inr ⟨rfl, ih⟩)

/-! ## Characters -/

/-- **The bytes of two characters part in the order of the characters.**  The first byte tells how
many there are, and more of them are begun with a larger one; of equally many, the bytes hold the
number of the character in their order. -/
theorem partsBelow_utf8EncodeChar {c d : Char} (h : c < d) :
    PartsBelow (String.utf8EncodeChar c) (String.utf8EncodeChar d) := by
  have hlt : c.val.toNat < d.val.toNat := h
  have hmax : d.val.toNat < 0x110000 := by
    have hvalid := d.valid
    simp only [UInt32.isValidChar, Nat.isValidChar] at hvalid
    omega
  rw [String.utf8EncodeChar, String.utf8EncodeChar]
  generalize c.val.toNat = m at hlt ⊢
  generalize d.val.toNat = n at hlt hmax ⊢
  split_ifs <;>
    simp (disch := omega) only [partsBelow_cons_iff, not_partsBelow_nil, and_false, or_false,
      UInt8.toNat_ofNat', Nat.mod_eq_of_lt] <;>
    omega

/-! ## Texts -/

theorem flatMap_utf8EncodeChar_lt {cs ds : List Char} (h : cs < ds) :
    cs.flatMap String.utf8EncodeChar < ds.flatMap String.utf8EncodeChar := by
  change List.Lex (· < ·) cs ds at h
  induction h with
  | @nil d ds =>
    obtain ⟨b, bs, hd⟩ := List.exists_cons_of_ne_nil (String.utf8EncodeChar_ne_nil (c := d))
    rw [List.flatMap_cons, hd]
    exact List.nil_lt_cons ..
  | cons _ ih =>
    rw [List.flatMap_cons, List.flatMap_cons]
    exact List.append_left_lt ih
  | rel h =>
    rw [List.flatMap_cons, List.flatMap_cons]
    exact (partsBelow_utf8EncodeChar h).append_lt_append ..

/-- **Texts are in the order of their bytes.** -/
theorem textBytes_lt_iff {s t : String} : textBytes s < textBytes t ↔ s < t := by
  have hmono {s t : String} (h : s < t) : textBytes s < textBytes t := by
    rw [textBytes_eq, textBytes_eq]
    exact flatMap_utf8EncodeChar_lt (String.lt_iff_toList_lt.1 h)
  refine ⟨fun h => ?_, hmono⟩
  rcases lt_trichotomy s t with hst | rfl | hts
  · exact hst
  · exact absurd h (List.lt_irrefl _)
  · exact absurd (hmono hts) (List.lt_asymm h)

end SpikeWatch.Text
