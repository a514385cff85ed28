import Mathlib
import SpikeWatch.Proofs.Binary.Percent
import SpikeWatch.Totals

/-!
# The share of rejected events

The two numbers of events go around the range of sixty-four bits, but their sum does not: it has to
fit, or there is none, and then there is no share of rejected events either.  Wherever there is a
share, it is what it ought to be.  It lies between zero and a hundred percent, and it is zero just
if nothing was rejected.

* `Totals.addBatches` counts some batches, and `Totals.addBatches_eq` says what comes of them.
* `Totals.total?_eq_some_iff` says when there is a number of all events, and which.
* `Totals.rejectionRate_exact` is the share after any batches: when there is one, and what it is.
-/

set_option autoImplicit false

namespace SpikeWatch.Totals

/-- Counts some batches, each given by the numbers of its accepted and its rejected events. -/
def addBatches (t : Totals) (batches : List (UInt64 × UInt64)) : Totals :=
  batches.foldl (fun t batch => t.addBatch batch.1 batch.2) t

/-- The totals are the numbers of all events, around the range of sixty-four bits. -/
theorem addBatches_eq (t : Totals) (batches : List (UInt64 × UInt64)) :
    (t.addBatches batches).accepted =
        t.accepted + .ofNat (batches.map fun batch => batch.1.toNat).sum ∧
      (t.addBatches batches).rejected =
        t.rejected + .ofNat (batches.map fun batch => batch.2.toNat).sum := by
  induction batches generalizing t with
  | nil => exact ⟨(UInt64.add_zero _).symm, (UInt64.add_zero _).symm⟩
  | cons batch batches ih =>
    obtain ⟨haccepted, hrejected⟩ := ih (t.addBatch batch.1 batch.2)
    simp only [List.map_cons, List.sum_cons, UInt64.ofNat_add, UInt64.ofNat_toNat,
      ← UInt64.add_assoc]
    exact ⟨haccepted, hrejected⟩

variable {t : Totals}

theorem toNat_pos {n : UInt64} (h : n ≠ 0) : 0 < n.toNat :=
  UInt64.lt_iff_toNat_lt.1 (UInt64.pos_iff_ne_zero.2 h)

/-- **The number of all events is the exact sum, or there is none.** -/
theorem total?_eq_some_iff {total : UInt64} :
    t.total? = some total ↔ total.toNat = t.accepted.toNat + t.rejected.toNat := by
  have hsize := total.toNat_lt_size
  rw [total?]
  split
  · next hfits =>
    rw [Option.some.injEq, ← UInt64.toNat_inj, UInt64.toNat_add, Nat.mod_eq_of_lt hfits, eq_comm]
  · next hfull =>
    refine iff_of_false (Option.some_ne_none total).symm fun hsum => ?_
    rw [hsum] at hsize
    exact hfull hsize

theorem total?_eq_none_iff :
    t.total? = none ↔ UInt64.size ≤ t.accepted.toNat + t.rejected.toNat := by
  rw [total?, ← Nat.not_lt]
  split <;> simp_all

theorem rejected_le_total {total : UInt64} (h : t.total? = some total) : t.rejected ≤ total := by
  rw [UInt64.le_iff_toNat_le, total?_eq_some_iff.1 h]
  exact Nat.le_add_left ..

/-- No events make a sum of zero, and nothing else does. -/
theorem total_eq_zero_iff {total : UInt64} (h : t.total? = some total) :
    total = 0 ↔ t.accepted = 0 ∧ t.rejected = 0 := by
  simp only [← UInt64.toNat_inj, total?_eq_some_iff.1 h, UInt64.toNat_zero]
  exact Nat.add_eq_zero_iff

theorem rejectionRate?_eq_none_iff :
    t.rejectionRate? = none ↔ UInt64.size ≤ t.accepted.toNat + t.rejected.toNat := by
  rw [rejectionRate?, Option.map_eq_none_iff, total?_eq_none_iff]

/-- The share is a percentage. -/
theorem bounds_of_rejectionRate? {rate : Double} (h : t.rejectionRate? = some rate) :
    .zero false ≤ rate ∧ rate ≤ .ofNat 100 ∧ (rate = .zero false ↔ t.rejected = 0) := by
  obtain ⟨total, htotal, rfl⟩ := Option.map_eq_some_iff.1 h
  by_cases hnone : total = 0
  · rw [if_pos hnone]
    exact ⟨by decide, by decide +kernel, iff_of_true rfl ((total_eq_zero_iff htotal).1 hnone).2⟩
  · have hpos := toNat_pos hnone
    have hle := UInt64.le_iff_toNat_le.1 (rejected_le_total htotal)
    have hsize := total.toNat_lt_size.le
    have hlower := Binary.percent_mono (Nat.zero_le _) (hle.trans hsize) hpos hsize
    have hupper := Binary.percent_mono hle hsize hpos hsize
    rw [Binary.percent_zero hpos hsize] at hlower
    rw [Binary.percent_self hpos hsize] at hupper
    rw [if_neg hnone]
    refine ⟨hlower, hupper, ?_, ?_⟩
    · intro hzero
      by_contra hsome
      have hlt := Binary.zero_lt_percent (toNat_pos hsome) (hle.trans hsize) hpos hsize
      rw [show Binary.percent _ _ = _ from hzero] at hlt
      exact absurd hlt (by decide)
    · intro hrejected
      rw [hrejected]
      exact Binary.percent_zero hpos hsize

/-- **When there is a share of rejected events, and what it is.**  Both totals are the exact
numbers, up to the range of sixty-four bits.  The number of all events is the exact sum of the two,
at least its second part, and zero for no events alone; if the sum does not fit, there is no such
number.  The share lies between zero and a hundred percent, and is zero just if nothing was
rejected; there is one unless the sum does not fit. -/
theorem rejectionRate_exact (batches : List (UInt64 × UInt64)) :
    let t : Totals := addBatches {} batches
    let accepted := (batches.map fun batch => batch.1.toNat).sum
    let rejected := (batches.map fun batch => batch.2.toNat).sum
    (t.accepted.toNat = accepted % UInt64.size ∧ t.rejected.toNat = rejected % UInt64.size) ∧
    (∀ total, t.total? = some total ↔ total.toNat = t.accepted.toNat + t.rejected.toNat) ∧
    (∀ total, t.total? = some total →
      t.rejected ≤ total ∧ (total = 0 ↔ t.accepted = 0 ∧ t.rejected = 0)) ∧
    (∀ rate, t.rejectionRate? = some rate →
      .zero false ≤ rate ∧ rate ≤ .ofNat 100 ∧ (rate = .zero false ↔ t.rejected = 0)) ∧
    (t.rejectionRate? = none ↔ UInt64.size ≤ t.accepted.toNat + t.rejected.toNat) ∧
    (accepted + rejected < UInt64.size → t.rejectionRate? ≠ none) := by
  intro t accepted rejected
  have hcounts : t.accepted.toNat = accepted % UInt64.size ∧
      t.rejected.toNat = rejected % UInt64.size := by
    obtain ⟨haccepted, hrejected⟩ := addBatches_eq {} batches
    have haccepted : t.accepted = 0 + .ofNat accepted := haccepted
    have hrejected : t.rejected = 0 + .ofNat rejected := hrejected
    rw [haccepted, hrejected, UInt64.zero_add, UInt64.zero_add]
    exact ⟨UInt64.toNat_ofNat', UInt64.toNat_ofNat'⟩
  refine ⟨hcounts, fun total => total?_eq_some_iff,
    fun total htotal => ⟨rejected_le_total htotal, total_eq_zero_iff htotal⟩,
    fun rate => bounds_of_rejectionRate?, rejectionRate?_eq_none_iff, fun hfew hnone => ?_⟩
  have hfull := rejectionRate?_eq_none_iff.1 hnone
  rw [hcounts.1, hcounts.2, Nat.mod_eq_of_lt (by omega), Nat.mod_eq_of_lt (by omega)] at hfull
  exact Nat.not_le_of_lt hfew hfull

/-- Ten events of two batches leave much room.  In the other runs the first total has gone around
once, and there is just room for the sum.  With one more event there is none. -/
theorem rejectionRate_exact_full :
    let few : List (UInt64 × UInt64) := [(8, 1), (0, 1)]
    let full : List (UInt64 × UInt64) := [(18446744073709551615, 0), (3, 18446744073709551613)]
    let t : Totals := addBatches {} few
    let u : Totals := addBatches {} full
    let v : Totals := addBatches {} (full ++ [(1, 0)])
    (t.total? = some 10 ∧ t.rejectionRate? = some (.ofNat 20)) ∧
      (u.accepted.toNat = 2 ∧ u.rejected.toNat = 18446744073709551613 ∧
        u.total? = some 18446744073709551615 ∧
        ∃ rate, u.rejectionRate? = some rate ∧ .zero false ≤ rate ∧ rate ≤ .ofNat 100) ∧
      UInt64.size ≤ v.accepted.toNat + v.rejected.toNat ∧ v.rejectionRate? = none := by
  intro few full t u v
  obtain ⟨-, htotal, -⟩ := rejectionRate_exact few
  obtain ⟨⟨haccepted, hrejected⟩, hsum, -, hshare, hfails, -⟩ := rejectionRate_exact full
  obtain ⟨-, -, -, -, hnone, -⟩ := rejectionRate_exact (full ++ [(1, 0)])
  have hfits : ¬ UInt64.size ≤ u.accepted.toNat + u.rejected.toNat := by decide
  have hfull : UInt64.size ≤ v.accepted.toNat + v.rejected.toNat := by decide
  obtain ⟨rate, hrate⟩ := Option.ne_none_iff_exists'.1 (mt hfails.1 hfits)
  obtain ⟨hlower, hupper, -⟩ := hshare rate hrate
  exact ⟨⟨(htotal 10).2 (by decide), by decide +kernel⟩,
    ⟨haccepted.trans (by decide), hrejected.trans (by decide), (hsum _).2 (by decide), rate, hrate,
      hlower, hupper⟩, hfull, hnone.2 hfull⟩

/-- A single batch may be too large for a share.  Then the line about the totals is missing as
well. -/
theorem not_rejectionRate_percentage :
    let t : Totals := addBatches {} [(18446744073709551615, 2)]
    (t.accepted = 18446744073709551615 ∧ t.rejected = 2 ∧ t.rejectionRate? = none ∧
      t.summary? = none) ∧
    ¬ ∀ batches : List (UInt64 × UInt64), ∃ rate,
      (addBatches {} batches).rejectionRate? = some rate ∧ .zero false ≤ rate ∧
        rate ≤ .ofNat 100 := by
  intro t
  have hnone : t.rejectionRate? = none := by decide +kernel
  refine ⟨⟨by decide, by decide, hnone, by rw [summary?, hnone]; rfl⟩, fun hall => ?_⟩
  obtain ⟨rate, hrate, -⟩ := hall [(18446744073709551615, 2)]
  rw [hnone] at hrate
  cases hrate

end SpikeWatch.Totals
