import Mathlib.Data.List.Basic

/-!
# The first requirement that is not met

Events and settings are checked alike: there are requirements in an order, and a check stops at the
first that is not met and reports what is wrong there.  What stands behind that is left open, be it
met or not.

* A `Requirement` is given by what may be said against a subject; if it is met, that is nothing.
* `FirstUnmet` picks what is said first out of all that could be said.
* `Enforces` ties a check to requirements.  A check is followed branch by branch: one that fails is
  `enforces_of_unmet`, and one that goes on is `enforces_of_met`.
* `Enforces.exists_ok_iff` says what passes: just what meets all requirements, in any order.
-/

set_option autoImplicit false

namespace SpikeWatch

/-- A requirement, by what may be said against a subject that does not meet it. -/
abbrev Requirement (ε : Type) := ε → Prop

namespace Requirement

variable {ε : Type}

/-- A requirement is met if nothing can be said against the subject. -/
def Met (r : Requirement ε) : Prop := ∀ e, ¬ r e

/-- The requirement that a statement holds, and what is said if it does not. -/
def of (holds : Prop) (otherwise : ε) : Requirement ε := fun e => ¬ holds ∧ e = otherwise

theorem met_of_iff {holds : Prop} {otherwise : ε} : (of holds otherwise).Met ↔ holds := by
  constructor
  · intro h
    by_contra hfails
    exact h otherwise ⟨hfails, rfl⟩
  · rintro h e ⟨hfails, -⟩
    exact hfails h

/-- The same requirement, with other words for what is said. -/
def reworded {β : Type} (f : ε → β) (r : Requirement ε) : Requirement β := fun x =>
  ∃ e, r e ∧ f e = x

theorem met_reworded_iff {β : Type} {f : ε → β} {r : Requirement ε} :
    (r.reworded f).Met ↔ r.Met := by
  constructor
  · intro h e he
    exact h (f e) ⟨e, he, rfl⟩
  · rintro h _ ⟨e, he, -⟩
    exact h e he

end Requirement

open Requirement

variable {ε α β : Type}

/-! ## What is said first -/

/-- Something is said against a subject, and it meets all requirements in front of the one for which
it is said. -/
def FirstUnmet (requirements : List (Requirement ε)) (e : ε) : Prop :=
  ∃ before r after, requirements = before ++ r :: after ∧ (∀ q ∈ before, q.Met) ∧ r e

section FirstUnmet

variable {r : Requirement ε} {rs ts : List (Requirement ε)} {e : ε}

theorem not_firstUnmet_nil (e : ε) : ¬ FirstUnmet [] e := by
  rintro ⟨before, r, after, h, -⟩
  cases before <;> cases h

theorem firstUnmet_cons_iff : FirstUnmet (r :: rs) e ↔ r e ∨ (r.Met ∧ FirstUnmet rs e) := by
  constructor
  · rintro ⟨before, q, after, h, hbefore, hq⟩
    cases before with
    | nil =>
      cases h
      exact .inl hq
    | cons p before =>
      cases h
      obtain ⟨hp, hbefore⟩ := List.forall_mem_cons.1 hbefore
      exact .inr ⟨hp, before, q, after, rfl, hbefore, hq⟩
  · rintro (hr | ⟨hr, before, q, after, rfl, hbefore, hq⟩)
    · exact ⟨[], r, rs, rfl, List.forall_mem_nil _, hr⟩
    · exact ⟨r :: before, q, after, rfl, List.forall_mem_cons.2 ⟨hr, hbefore⟩, hq⟩

theorem firstUnmet_singleton_iff : FirstUnmet [r] e ↔ r e :=
  firstUnmet_cons_iff.trans (or_iff_left fun h => not_firstUnmet_nil e h.2)

theorem firstUnmet_append_iff :
    FirstUnmet (rs ++ ts) e ↔ FirstUnmet rs e ∨ ((∀ r ∈ rs, r.Met) ∧ FirstUnmet ts e) := by
  induction rs with
  | nil => simp [not_firstUnmet_nil]
  | cons r rs ih =>
    rw [List.cons_append, firstUnmet_cons_iff, firstUnmet_cons_iff, ih, List.forall_mem_cons]
    tauto

/-- Something is said first unless nothing can be said at all. -/
theorem not_exists_firstUnmet_iff : (¬ ∃ e, FirstUnmet rs e) ↔ ∀ r ∈ rs, r.Met := by
  induction rs with
  | nil => simp [not_firstUnmet_nil]
  | cons r rs ih =>
    simp only [firstUnmet_cons_iff, exists_or, not_or, List.forall_mem_cons]
    refine (and_congr_left' not_exists).trans (and_congr_right fun hr => ?_)
    rw [← ih]
    exact not_congr (exists_congr fun e => and_iff_right hr)

/-- Neighbours may change places unless neither is met. -/
theorem firstUnmet_swap {q : Requirement ε} (h : r.Met ∨ q.Met) :
    FirstUnmet (r :: q :: rs) e ↔ FirstUnmet (q :: r :: rs) e := by
  simp only [firstUnmet_cons_iff]
  rcases h with hr | hq
  · simp only [hr e, hr, false_or, true_and]
  · simp only [hq e, hq, false_or, true_and]

theorem firstUnmet_map_reworded_iff {f : ε → β} {x : β} :
    FirstUnmet (rs.map (reworded f)) x ↔ ∃ e, FirstUnmet rs e ∧ f e = x := by
  induction rs with
  | nil => simp [not_firstUnmet_nil]
  | cons r rs ih =>
    rw [List.map_cons, firstUnmet_cons_iff, ih, met_reworded_iff]
    simp only [firstUnmet_cons_iff, or_and_right, exists_or, and_assoc, exists_and_left]
    rfl

end FirstUnmet

/-! ## Checks -/

/-- A check fails just if a requirement is not met, with what is said for the first one. -/
def Enforces (check : Except ε α) (requirements : List (Requirement ε)) : Prop :=
  ∀ e, check = .error e ↔ FirstUnmet requirements e

section Enforces

variable {check : Except ε α} {r : Requirement ε} {rs ts : List (Requirement ε)}

theorem enforces_ok (a : α) : Enforces (.ok a : Except ε α) [] := fun e =>
  iff_of_false nofun (not_firstUnmet_nil e)

/-- The first requirement is not met, and there is one thing to say about that. -/
theorem enforces_of_unmet {e : ε} (hr : ∀ e', r e' ↔ e' = e) (rs : List (Requirement ε)) :
    Enforces (.error e : Except ε α) (r :: rs) := by
  intro e'
  have hunmet : ¬ r.Met := fun h => h e ((hr e).2 rfl)
  rw [firstUnmet_cons_iff, hr, or_iff_left fun h => hunmet h.1, Except.error.injEq, eq_comm]

theorem enforces_of_met (hr : r.Met) (h : Enforces check rs) : Enforces check (r :: rs) := by
  intro e
  rw [firstUnmet_cons_iff, or_iff_right (hr e), and_iff_right hr, h]

/-- A test at the front of a check. -/
theorem enforces_ite {refused : Prop} [Decidable refused] {e : ε}
    (hr : ∀ e', r e' ↔ refused ∧ e' = e) (h : ¬ refused → Enforces check rs) :
    Enforces (if refused then .error e else check) (r :: rs) := by
  split
  · next hrefused => exact enforces_of_unmet (fun e' => (hr e').trans (and_iff_right hrefused)) rs
  · next hpasses => exact enforces_of_met (fun e' he' => hpasses ((hr e').1 he').1) (h hpasses)

/-- One check behind another. -/
theorem Enforces.bind {next : α → Except ε β} (h : Enforces check rs)
    (hnext : ∀ a, Enforces (next a) ts) : Enforces (check >>= next) (rs ++ ts) := by
  intro e
  rw [firstUnmet_append_iff, ← h]
  cases check with
  | error e' =>
    have hunmet : ¬ ((∀ r ∈ rs, r.Met) ∧ FirstUnmet ts e) := fun hmet =>
      not_exists_firstUnmet_iff.2 hmet.1 ⟨e', (h e').1 rfl⟩
    show (.error e' : Except ε β) = .error e ↔ _
    rw [or_iff_left hunmet, Except.error.injEq, Except.error.injEq]
  | ok a =>
    have hmet : ∀ r ∈ rs, r.Met := by
      rw [← not_exists_firstUnmet_iff]
      rintro ⟨e', he'⟩
      cases (h e').2 he'
    rw [or_iff_right nofun, and_iff_right hmet]
    exact hnext a e

/-- What passes a check meets all requirements, in whatever order they were looked at. -/
theorem Enforces.exists_ok_iff (h : Enforces check rs) :
    (∃ a, check = .ok a) ↔ ∀ r ∈ rs, r.Met := by
  rw [← not_exists_firstUnmet_iff, ← not_congr (exists_congr h)]
  cases check with
  | error e => exact iff_of_false nofun fun hnone => hnone ⟨e, rfl⟩
  | ok a => exact iff_of_true ⟨a, rfl⟩ nofun

end Enforces

end SpikeWatch
