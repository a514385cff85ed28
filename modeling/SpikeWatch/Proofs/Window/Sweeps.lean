import SpikeWatch.Proofs.Window.Occurrence

/-!
# What a sweep drops

A sweep goes through the entries of all metrics and drops the stale ones.

* `Counts.entries` are all entries in one list, and `Entry.isStale` says which of them a sweep
  drops: none, if its window reaches out of the range of instants.
* A sweep filters that list and gives the number of what it takes away (`Counts.entries_sweep`,
  `Counts.evicted_sweep`).
* For a window that does not reach into the future, staleness is a matter of exact times
  (`Entry.isStale_iff`), and what is stale stays so (`Entry.isStale_of_le`).  So a sweep drops
  whatever one before it would have dropped (`Counts.sweep_exact`).
-/

set_option autoImplicit false

namespace SpikeWatch

/-! ## Stale entries -/

namespace Entry

/-- Whether the cutoff has overtaken the last occurrence.  Without a cutoff nothing is stale. -/
def isStale (window : Duration) (now : Instant) (e : Entry) : Bool :=
  (now.sub? window).any fun cutoff => decide (e.lastSeen < cutoff)

variable {window : Duration} {now later cutoff : Instant} {e : Entry}

theorem isStale_of_sub?_eq_some (h : now.sub? window = some cutoff) (e : Entry) :
    e.isStale window now = decide (e.lastSeen < cutoff) := by
  rw [isStale, h]
  rfl

theorem isStale_of_sub?_eq_none (h : now.sub? window = none) (e : Entry) :
    e.isStale window now = false := by
  rw [isStale, h]
  rfl

/-- Only a window that reaches into the future can pass the last instant.  Before the first one
nothing has occurred, so there a cutoff that does not exist drops as little as one that did. -/
theorem isStale_iff (hwindow : 0 ≤ window.nanos) :
    e.isStale window now = true ↔ e.lastSeen.nanos < now.nanos - window.nanos := by
  constructor
  · intro h
    obtain ⟨cutoff, hcutoff, hold⟩ := (Option.any_eq_true ..).1 h
    have hold : e.lastSeen.nanos < cutoff.nanos := of_decide_eq_true hold
    rwa [Instant.sub?_eq_some_iff.1 hcutoff] at hold
  · intro h
    have hfirst := e.lastSeen.first_le
    have hlast := now.le_last
    let cutoff : Instant := ⟨now.nanos - window.nanos, by omega, by omega⟩
    rw [isStale_of_sub?_eq_some (Instant.sub?_eq_some_iff.2 (rfl : cutoff.nanos = _))]
    exact decide_eq_true h

/-- What is stale stays so as time goes on. -/
theorem isStale_of_le (hwindow : 0 ≤ window.nanos) (hlater : now ≤ later)
    (h : e.isStale window now = true) : e.isStale window later = true := by
  rw [isStale_iff hwindow] at h ⊢
  change now.nanos ≤ later.nanos at hlater
  omega

end Entry

namespace Counts

/-! ## All entries in one list -/

/-- The entries of all metrics, with their metrics and versions. -/
def entries (counts : Counts) : List (Metric × String × Entry) :=
  Metric.all.flatMap fun m => (counts.table m).toList.map fun entry => (m, entry)

variable {counts counts' : Counts}

theorem mem_entries_iff {m : Metric} {v : String} {e : Entry} :
    (m, v, e) ∈ counts.entries ↔ (counts.table m)[v]? = some e := by
  have hall : m ∈ Metric.all := by cases m <;> decide
  simp [entries, hall]

theorem length_entries (counts : Counts) : counts.entries.length = counts.size := by
  simp [entries, Metric.all, table, size, Nat.add_assoc]

theorem entries_inj : counts.entries = counts'.entries ↔ counts = counts' := by
  refine ⟨fun h => ext_getElem? fun m v => Option.ext fun e => ?_, fun h => h ▸ rfl⟩
  rw [← mem_entries_iff, h, mem_entries_iff]

theorem entries_keepFrom (counts : Counts) (cutoff : Instant) :
    (counts.keepFrom cutoff).entries =
      counts.entries.filter fun entry => decide (cutoff ≤ entry.2.2.lastSeen) := by
  rw [entries, entries, List.filter_flatMap]
  refine List.flatMap_congr fun m _ => ?_
  rw [table_keepFrom, VersionTable.keepFrom, Std.ExtTreeMap.toList_filter, List.filter_map]
  rfl

/-! ## Sweeps -/

/-- **A sweep keeps what is not stale.** -/
theorem entries_sweep (counts : Counts) (window : Duration) (now : Instant) :
    (counts.sweep window now).1.entries =
      counts.entries.filter fun entry => !entry.2.2.isStale window now := by
  rw [sweep]
  cases hcutoff : now.sub? window with
  | none => simp [Entry.isStale_of_sub?_eq_none hcutoff]
  | some cutoff =>
    simp only [entries_keepFrom, Entry.isStale_of_sub?_eq_some hcutoff, ← Instant.not_le,
      decide_not, Bool.not_not]

/-- **What a sweep gives back is the number of stale entries.** -/
theorem evicted_sweep (counts : Counts) (window : Duration) (now : Instant) :
    (counts.sweep window now).2 =
      counts.entries.countP fun entry => entry.2.2.isStale window now := by
  have hsizes : (counts.sweep window now).2 =
      counts.entries.length - (counts.sweep window now).1.entries.length := by
    rw [length_entries, length_entries, sweep]
    cases now.sub? window <;> simp
  rw [hsizes, entries_sweep, ← List.countP_eq_length_filter,
    List.length_eq_countP_add_countP fun entry => entry.2.2.isStale window now]
  simp

theorem sweep_of_sub?_eq_none {window : Duration} {now : Instant} (h : now.sub? window = none)
    (counts : Counts) : counts.sweep window now = (counts, 0) := by
  rw [sweep, h]

/-- A sweep that drops all that one before it dropped leaves what it would leave alone, and the two
numbers add up. -/
theorem sweep_sweep (counts : Counts) {window : Duration} {now later : Instant}
    (h : ∀ e : Entry, e.isStale window now = true → e.isStale window later = true) :
    ((counts.sweep window now).1.sweep window later).1 = (counts.sweep window later).1 ∧
      (counts.sweep window now).2 + ((counts.sweep window now).1.sweep window later).2 =
        (counts.sweep window later).2 := by
  have hboth (entry : Metric × String × Entry) :
      (entry.2.2.isStale window later && entry.2.2.isStale window now) =
        entry.2.2.isStale window now := by
    cases hnow : entry.2.2.isStale window now with
    | false => exact Bool.and_false _
    | true => rw [h _ hnow, Bool.and_true]
  constructor
  · rw [← entries_inj, entries_sweep, entries_sweep, entries_sweep, List.filter_filter]
    simp only [← Bool.not_or]
    refine List.filter_congr fun entry _ => ?_
    rw [← hboth entry]
    cases entry.2.2.isStale window later <;> rfl
  · rw [evicted_sweep, evicted_sweep, evicted_sweep, entries_sweep]
    -- what the later sweep drops alone is split by whether it was stale before
    rw [List.countP_eq_countP_filter_add counts.entries
      (fun entry => entry.2.2.isStale window later) fun entry => entry.2.2.isStale window now]
    simp only [List.countP_filter, hboth]

/-- **What a sweep drops, exactly.**  It drops the entries whose last occurrence lies before the
cutoff, in all metrics, leaves the others as they are, and gives the number of those dropped; where
the cutoff is out of the range of instants, nothing happens.  So a second sweep at the same instant
has nothing left to do.  And for a window that does not reach into the future, two sweeps in the
order of time do what the later one does alone, and their numbers add up. -/
theorem sweep_exact (counts : Counts) (window : Duration) (now : Instant) :
    let swept := counts.sweep window now
    (∀ cutoff : Instant, cutoff.nanos = now.nanos - window.nanos →
      (∀ (m : Metric) (v : String), (swept.1.table m)[v]? =
        (counts.table m)[v]?.filter fun e => decide (cutoff ≤ e.lastSeen)) ∧
      swept.2 = counts.entries.countP fun entry => decide (entry.2.2.lastSeen < cutoff)) ∧
    ((∀ cutoff : Instant, cutoff.nanos ≠ now.nanos - window.nanos) → swept = (counts, 0)) ∧
    swept.1.sweep window now = (swept.1, 0) ∧
    ∀ later : Instant, 0 ≤ window.nanos → now ≤ later →
      let next := swept.1.sweep window later
      let once := counts.sweep window later
      next.1 = once.1 ∧ swept.2 + next.2 = once.2 := by
  intro swept
  refine ⟨fun cutoff hcutoff => ?_, fun hnone => ?_, ?_, fun later hwindow hlater => ?_⟩
  · have hsub : now.sub? window = some cutoff := Instant.sub?_eq_some_iff.2 hcutoff
    refine ⟨fun m v => ?_, ?_⟩
    · rw [getElem?_sweep, hsub]
      rfl
    · rw [evicted_sweep]
      simp only [Entry.isStale_of_sub?_eq_some hsub]
  · refine sweep_of_sub?_eq_none (Option.eq_none_iff_forall_ne_some.2 fun cutoff hsub => ?_) counts
    exact hnone cutoff (Instant.sub?_eq_some_iff.1 hsub)
  · obtain ⟨hentries, hevicted⟩ := counts.sweep_sweep fun _ h => h
    exact Prod.ext hentries (Nat.add_eq_left.1 hevicted)
  · exact counts.sweep_sweep fun e => Entry.isStale_of_le hwindow hlater

/-- The first sweep comes so early that it has no cutoff, and drops nothing.  The second one drops
the crash, and keeps the exception, which is just as old as the window is long; a little later that
one goes as well. -/
theorem sweep_exact_first_instant :
    let now : Instant := { nanos := Instant.firstNanos + 45000000000 }
    let later : Instant := { nanos := Instant.firstNanos + 90000000000 }
    let last : Instant := { nanos := Instant.firstNanos + 95000000000 }
    let cutoff : Instant := { nanos := Instant.firstNanos + 40000000000 }
    let window := Duration.ofSeconds 50
    let crash := ({} : Counts).record { nanos := Instant.firstNanos + 20000000000 } .crash "1" "a"
    let counts := (crash.record cutoff .exception "" "b").record now .jank "1" "c"
    let swept := counts.sweep window now
    let next := swept.1.sweep window later
    let again := next.1.sweep window last
    (∀ cutoff : Instant, cutoff.nanos ≠ now.nanos - window.nanos) ∧ swept = (counts, 0) ∧
      cutoff.nanos = later.nanos - window.nanos ∧ next.2 = 1 ∧
      (next.1.table .crash)["1"]?.isNone ∧ (next.1.table .exception)[""]?.isSome ∧
      0 ≤ window.nanos ∧ later ≤ last ∧
      again.1 = (counts.sweep window last).1 ∧ next.2 + again.2 = 2 := by
  intro now later last cutoff window crash counts swept next again
  have hnone : ∀ cutoff : Instant, cutoff.nanos ≠ now.nanos - window.nanos := by
    intro cutoff hcutoff
    have hfirst := cutoff.first_le
    rw [hcutoff] at hfirst
    exact absurd hfirst (by decide)
  have hwindow : 0 ≤ window.nanos := by decide
  have hlater : later ≤ last := by decide
  have hcutoff : cutoff.nanos = later.nanos - window.nanos := by decide
  obtain ⟨-, hkept, -⟩ := sweep_exact counts window now
  have hswept : swept = (counts, 0) := hkept hnone
  have hnext : next = counts.sweep window later := by
    change swept.1.sweep window later = _
    rw [hswept]
  obtain ⟨hdropped, -, -, hagain⟩ := sweep_exact counts window later
  rw [← hnext] at hdropped hagain
  obtain ⟨hentries, hevicted⟩ := hdropped cutoff hcutoff
  obtain ⟨hlast, hsum⟩ := hagain last hwindow hlater
  refine ⟨hnone, hswept, hcutoff, hevicted.trans (by decide +kernel), ?_, ?_, hwindow, hlater,
    hlast, hsum.trans (by decide +kernel)⟩
  · rw [hentries]
    decide +kernel
  · rw [hentries]
    decide +kernel

end Counts

end SpikeWatch
