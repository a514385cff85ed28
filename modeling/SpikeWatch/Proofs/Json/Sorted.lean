import Mathlib.Data.String.Basic
import SpikeWatch.Json.Reading

/-!
# Members in the order of their keys

An object that was read has its members in the order of their keys, and no key twice, whatever order
and repetition its text had.

* `Sorted` is that order, for keys with anything behind them, and `Value.sorted_ofText` says that it
  is the order of what is read.  Members come in one by one, and `insertMember` keeps it.
* `firstShared` goes through one list while looking its keys up in another, and stops where it
  finds something.  Two sorted lists have the keys that they share in the same order, so it does
  not matter which of the two one goes through (`firstShared_comm`).
-/

set_option autoImplicit false

namespace SpikeWatch.Json

variable {α β γ : Type}

/-- Each key lies behind all those in front of it. -/
def Sorted (l : List (String × α)) : Prop := l.Pairwise fun a b => a.1 < b.1

instance (l : List (String × α)) : Decidable (Sorted l) :=
  inferInstanceAs (Decidable (l.Pairwise fun a b => a.1 < b.1))

/-- A list is sorted if its rest is, and if all keys there come behind the first. -/
theorem sorted_cons_iff {a : String × α} {l : List (String × α)} :
    Sorted (a :: l) ↔ (∀ b ∈ l, a.1 < b.1) ∧ Sorted l := List.pairwise_cons

theorem Sorted.filter {l : List (String × α)} (h : Sorted l) (keep : String × α → Bool) :
    Sorted (l.filter keep) := List.Pairwise.filter keep h

/-! ## Keys that two lists share -/

theorem lookup_cons_of_ne {key : String} {a : String × α} {l : List (String × α)}
    (h : key ≠ a.1) : (a :: l).lookup key = l.lookup key := by
  rw [List.lookup_cons, beq_false_of_ne h]

/-- In a sorted list, no member hides another one. -/
theorem Sorted.lookup_of_mem {l : List (String × α)} (h : Sorted l) {a : String × α} (ha : a ∈ l) :
    l.lookup a.1 = some a.2 := by
  induction l with
  | nil => cases ha
  | cons b l ih =>
    obtain ⟨hb, hl⟩ := sorted_cons_iff.1 h
    rcases List.mem_cons.1 ha with rfl | ha
    · exact List.lookup_cons_self
    · rw [lookup_cons_of_ne (hb a ha).ne', ih hl ha]

/-- The first that is found for a key that two lists share, in the order of the first list. -/
def firstShared (f : α → β → Option γ) (as : List (String × α)) (bs : List (String × β)) :
    Option γ :=
  as.findSome? fun a => (bs.lookup a.1).bind (f a.2)

section FirstShared

variable {f : α → β → Option γ} {a : String × α} {as : List (String × α)} {b : String × β}
  {bs : List (String × β)}

/-- The first shared key is that of the first member, or else one further down. -/
theorem firstShared_cons :
    firstShared f (a :: as) bs = ((bs.lookup a.1).bind (f a.2)).or (firstShared f as bs) := by
  rw [firstShared, List.findSome?_cons]
  cases (bs.lookup a.1).bind (f a.2) <;> rfl

theorem firstShared_nil_right : firstShared f as [] = none :=
  List.findSome?_eq_none_iff.2 fun _ _ => rfl

/-- A key of the first list that lies in front of all those of the second is not shared. -/
theorem firstShared_cons_left_of_lt (h : ∀ b ∈ bs, a.1 < b.1) :
    firstShared f (a :: as) bs = firstShared f as bs := by
  have hnone : bs.lookup a.1 = none :=
    List.lookup_eq_none_iff.2 fun b hb => bne_iff_ne.2 (h b hb).ne
  rw [firstShared_cons, hnone]
  rfl

/-- Nor is a key of the second list that lies in front of all those of the first. -/
theorem firstShared_cons_right_of_lt (h : ∀ a ∈ as, b.1 < a.1) :
    firstShared f as (b :: bs) = firstShared f as bs := by
  induction as with
  | nil => rfl
  | cons a as ih =>
    obtain ⟨ha, has⟩ := List.forall_mem_cons.1 h
    rw [firstShared_cons, firstShared_cons, lookup_cons_of_ne ha.ne', ih has]

/-- **It does not matter which of two sorted lists one goes through.** -/
theorem firstShared_comm (has : Sorted as) (hbs : Sorted bs) :
    firstShared f as bs = firstShared (fun y x => f x y) bs as := by
  induction as generalizing bs with
  | nil => exact firstShared_nil_right.symm
  | cons a as ih =>
    induction bs with
    | nil => exact firstShared_nil_right
    | cons b bs ihb =>
      obtain ⟨ha, has'⟩ := sorted_cons_iff.1 has
      obtain ⟨hb, hbs'⟩ := sorted_cons_iff.1 hbs
      -- The lesser of the two first keys is in one list only, and is passed over on both sides.
      rcases lt_trichotomy a.1 b.1 with hlt | heq | hgt
      · have hfront : ∀ c ∈ b :: bs, a.1 < c.1 :=
          List.forall_mem_cons.2 ⟨hlt, fun c hc => hlt.trans (hb c hc)⟩
        rw [firstShared_cons_left_of_lt hfront, firstShared_cons_right_of_lt hfront, ih has' hbs]
      · have hshared : (b :: bs).lookup a.1 = some b.2 := by
          rw [heq]
          exact List.lookup_cons_self
        have hshared' : (a :: as).lookup b.1 = some a.2 := by
          rw [← heq]
          exact List.lookup_cons_self
        rw [firstShared_cons, firstShared_cons, hshared, hshared',
          firstShared_cons_right_of_lt (heq ▸ ha), firstShared_cons_right_of_lt (heq ▸ hb),
          ih has' hbs']
        rfl
      · have hfront : ∀ c ∈ a :: as, b.1 < c.1 :=
          List.forall_mem_cons.2 ⟨hgt, fun c hc => hgt.trans (ha c hc)⟩
        rw [firstShared_cons_left_of_lt hfront, firstShared_cons_right_of_lt hfront, ihb hbs']

end FirstShared

/-! ## What is read -/

/-- Putting in a member brings in no other key. -/
theorem fst_mem_of_mem_insertMember {members : List (String × Value)} {key : String}
    {value : Value} {m : String × Value} (h : m ∈ insertMember key value members) :
    m.1 = key ∨ m ∈ members := by
  induction members with
  | nil =>
    obtain rfl := List.mem_singleton.1 h
    exact .inl rfl
  | cons first rest ih =>
    rw [insertMember] at h
    split at h
    · rcases List.mem_cons.1 h with rfl | h
      · exact .inl rfl
      · exact .inr h
    · split at h
      · rcases List.mem_cons.1 h with rfl | h
        · exact .inl rfl
        · exact .inr (List.mem_cons_of_mem _ h)
      · rcases List.mem_cons.1 h with rfl | h
        · exact .inr List.mem_cons_self
        · exact (ih h).imp_right (List.mem_cons_of_mem _)

/-- Putting in a member keeps the order, and a key that is there already is not there twice. -/
theorem sorted_insertMember {members : List (String × Value)} (h : Sorted members) (key : String)
    (value : Value) : Sorted (insertMember key value members) := by
  induction members with
  | nil => exact List.pairwise_singleton ..
  | cons first rest ih =>
    obtain ⟨hfirst, hrest⟩ := sorted_cons_iff.1 h
    rw [insertMember]
    split
    · next hlt =>
      exact sorted_cons_iff.2 ⟨List.forall_mem_cons.2 ⟨hlt, fun m hm => hlt.trans (hfirst m hm)⟩, h⟩
    · next hnlt =>
      split
      · next heq => exact sorted_cons_iff.2 ⟨heq ▸ hfirst, hrest⟩
      · next hne =>
        have hgt : first.1 < key := lt_of_le_of_ne (not_lt.1 hnlt) (Ne.symm hne)
        refine sorted_cons_iff.2 ⟨fun m hm => ?_, ih hrest⟩
        rcases fst_mem_of_mem_insertMember hm with hkey | hm
        · exact hkey ▸ hgt
        · exact hfirst m hm

/-- Reading members one after the other keeps the order of those that are there. -/
theorem sorted_readMembersFrom {read : Cursor → Result Value} {fuel : Nat} {first : Bool}
    {done members : List (String × Value)} {cur behind : Cursor} (hdone : Sorted done)
    (h : readMembersFrom read fuel first done cur = .ok (members, behind)) : Sorted members := by
  induction fuel generalizing first done cur with
  | zero => cases h
  | succ fuel ih =>
    rw [readMembersFrom] at h
    split at h
    · cases h
    · cases h
      exact hdone
    · split at h
      · cases h
      · split at h
        · cases h
        · split at h
          · cases h
          · exact ih (sorted_insertMember hdone _ _) h

/-- Every object that is read is sorted, whatever reads the values in it. -/
theorem sorted_readValueWith {nested : Option (Cursor → Result Value)} {cur behind : Cursor}
    {members : List (String × Value)}
    (h : readValueWith nested cur = .ok (.object members, behind)) : Sorted members := by
  rw [readValueWith.eq_def] at h
  dsimp only at h
  split at h
  · cases h
  · simp only [bind, Except.bind, pure, Except.pure] at h
    -- of the branches only the one at an opening brace gives an object
    split at h
    case h_6 =>
      split at h
      · cases h
      · split at h
        · cases h
        · next hread =>
          cases h
          exact sorted_readMembersFrom List.Pairwise.nil hread
    all_goals
      repeat' split at h
      all_goals cases h

/-- **What is read is sorted.** -/
theorem Value.sorted_ofText {text : String} {members : List (String × Value)}
    (h : Value.ofText text = .ok (.object members)) : Sorted members := by
  simp only [Value.ofText, bind, Except.bind, pure, Except.pure] at h
  split at h
  · cases h
  · next read hread =>
    obtain ⟨value, behind⟩ := read
    split at h
    · cases h
    · cases h
      exact sorted_readValueWith hread

end SpikeWatch.Json
