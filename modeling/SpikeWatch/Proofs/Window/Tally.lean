import SpikeWatch.Proofs.Pipeline.History
import Mathlib.Data.Finset.Card

/-!
# What live counts count

An entry holds a number, a set of sessions and an instant, and no occurrence.  This file says which
occurrences it stands for.

* `Entry.Tallies` relates an entry to the list of occurrences it has been made of.  Recording keeps
  the relation (`Entry.Tallies.again`), so a count, its sessions and its last instant are those of
  one list, the same for all three.
* `Tracks` is the same for an entry that may be absent, and absent entries stand for no occurrence.
* `Pipeline.live` is the list that belongs to a run: what was counted since the last sweep that
  dropped the entry (`Pipeline.evicts`).  `tracks_step` carries the relation through a step, and
  `tracks_run` through a run.

None of this asks for a clock that goes on: an entry that was made again after an eviction, or
touched after the clock was set back, tallies like any other.
-/

set_option autoImplicit false

namespace SpikeWatch

/-! ## Entries and occurrences -/

/-- An entry is what a list of occurrences, the last one at its end, has made of it. -/
structure Entry.Tallies (e : Entry) (os : List Occurrence) : Prop where
  count : e.count = .ofNat os.length
  lastSeen : os.getLast?.map Occurrence.time = some e.lastSeen
  mem_sessions : ∀ session, session ∈ e.sessions ↔ session ∈ os.map Occurrence.session
  size_sessions : e.sessions.size = (os.map Occurrence.session).toFinset.card

/-- A new entry tallies the occurrence that made it. -/
theorem Entry.tallies_new (v : String) (o : Occurrence) :
    ((Entry.new v o.time).again o.time o.session).Tallies [o] where
  count := rfl
  lastSeen := rfl
  mem_sessions session := by
    simp [new, Entry.again, eq_comm (a := session)]
  size_sessions := by
    simp [new, Entry.again, Std.ExtTreeSet.size_insert]

/-- **Recording keeps the tally.** -/
theorem Entry.Tallies.again {e : Entry} {os : List Occurrence} (h : e.Tallies os)
    (o : Occurrence) : (e.again o.time o.session).Tallies (os ++ [o]) where
  count := by
    change e.count + 1 = _
    rw [h.count, List.length_append, List.length_singleton, UInt64.ofNat_add]
    rfl
  lastSeen := by
    rw [List.getLast?_append]
    rfl
  mem_sessions session := by
    rw [Entry.again, Std.ExtTreeSet.mem_insert, Std.LawfulEqCmp.compare_eq_iff_eq,
      h.mem_sessions, List.map_append, List.mem_append, List.map_singleton, List.mem_singleton,
      or_comm, eq_comm]
  size_sessions := by
    -- The size of the set grows just if the session is not among those of the list.
    rw [Entry.again, Std.ExtTreeSet.size_insert, h.size_sessions, List.map_append,
      List.toFinset_append, List.map_singleton, List.toFinset_cons, List.toFinset_nil,
      Finset.union_insert, Finset.union_empty]
    split
    · next hold =>
      have hin := (h.mem_sessions o.session).1 (Std.ExtTreeSet.mem_iff_contains.2 hold)
      rw [Finset.insert_eq_of_mem (List.mem_toFinset.2 hin)]
    · next hnew =>
      have hout : o.session ∉ (os.map Occurrence.session).toFinset := fun hin =>
        hnew (Std.ExtTreeSet.mem_iff_contains.1
          ((h.mem_sessions o.session).2 (List.mem_toFinset.1 hin)))
      rw [Finset.card_insert_of_notMem hout]

/-- What there is of an entry tallies with a list of occurrences: nothing with none. -/
def Tracks : Option Entry → List Occurrence → Prop
  | none, os => os = []
  | some e, os => e.Tallies os

/-- Without an entry there is no occurrence. -/
@[simp]
theorem tracks_none_iff {os : List Occurrence} : Tracks none os ↔ os = [] := Iff.rfl

/-- An entry that is made or touched tracks one occurrence more. -/
theorem Tracks.record {e? : Option Entry} {os : List Occurrence} (h : Tracks e? os)
    (v : String) (o : Occurrence) :
    Tracks (some ((e?.getD (.new v o.time)).again o.time o.session)) (os ++ [o]) := by
  cases e? with
  | none =>
    cases tracks_none_iff.1 h
    exact Entry.tallies_new v o
  | some e => exact Entry.Tallies.again h o

/-- The live count and the sessions are those of the occurrences. -/
theorem Tracks.rate {counts : Counts} {m : Metric} {v : String} {os : List Occurrence}
    (h : Tracks (counts.table m)[v]? os) :
    counts.rate m v = (.ofNat os.length, (os.map Occurrence.session).toFinset.card) := by
  rw [Counts.rate]
  cases he : (counts.table m)[v]? with
  | none =>
    rw [he] at h
    cases tracks_none_iff.1 h
    rfl
  | some e =>
    rw [he] at h
    exact Prod.ext h.count h.size_sessions

/-- An occurrence is tracked by the entry of its metric and version, and by no other. -/
theorem Tracks.add {counts : Counts} {m : Metric} {v : String} {os : List Occurrence}
    (h : Tracks (counts.table m)[v]? os) (o : Occurrence) :
    Tracks ((counts.add o).table m)[v]? (os ++ [o].filter (·.isOf m v)) := by
  rw [Counts.getElem?_add]
  by_cases hof : o.isOf m v = true
  · rw [if_pos hof, List.filter_cons_of_pos hof]
    exact h.record v o
  · rw [if_neg hof, List.filter_cons_of_neg hof, List.filter_nil, List.append_nil]
    exact h

theorem Tracks.foldl_add {counts : Counts} {m : Metric} {v : String} {os : List Occurrence}
    (h : Tracks (counts.table m)[v]? os) (news : List Occurrence) :
    Tracks ((news.foldl Counts.add counts).table m)[v]? (os ++ news.filter (·.isOf m v)) := by
  induction news generalizing counts os with
  | nil => simpa using h
  | cons o news ih =>
    rw [List.foldl_cons, ← List.singleton_append, List.filter_append, ← List.append_assoc]
    exact ih (h.add o)

namespace Pipeline

/-! ## Live occurrences -/

/-- Whether a step is a sweep that drops the entry of a version. -/
def evicts (m : Metric) (v : String) (p : Pipeline) : Step → Bool
  | .sweep => (p.counts.table m)[v]?.isSome && (p.sweep.1.counts.table m)[v]?.isNone
  | _ => false

/-- What a step leaves of the live occurrences of a version. -/
def liveAfter (m : Metric) (v : String) (p : Pipeline) (live : List Occurrence) (s : Step) :
    List Occurrence :=
  if p.evicts m v s then [] else live ++ (p.occurrences s).filter (·.isOf m v)

/-- The live occurrences of a version after a run, if there are some before it. -/
def liveFrom (m : Metric) (v : String) (p : Pipeline) (live : List Occurrence) :
    List Step → List Occurrence
  | [] => live
  | s :: steps => liveFrom m v (p.step s).1 (p.liveAfter m v live s) steps

/-- The occurrences of a version that a run counts after the last sweep that drops its entry, or
from the start if there is none. -/
def live (m : Metric) (v : String) (p : Pipeline) (steps : List Step) : List Occurrence :=
  p.liveFrom m v [] steps

variable {m : Metric} {v : String} {p : Pipeline} {live : List Occurrence}

/-- What a sweep leaves of an entry.  If the window reaches back beyond the first instant, it leaves
everything. -/
theorem getElem?_sweep (m : Metric) (v : String) (p : Pipeline) :
    (p.sweep.1.counts.table m)[v]? = (p.counts.table m)[v]?.filter fun e =>
      (p.now.sub? p.window).all fun cutoff => decide (cutoff ≤ e.lastSeen) :=
  Counts.getElem?_sweep ..

/-- An entry is dropped by its last occurrence alone. -/
theorem evicts_sweep_iff (h : Tracks (p.counts.table m)[v]? live) :
    p.evicts m v .sweep = true ↔ ∃ (cutoff : Instant) (o : Occurrence),
      cutoff.nanos = p.now.nanos - p.window.nanos ∧ live.getLast? = some o ∧ o.time < cutoff := by
  rw [evicts, getElem?_sweep]
  cases he : (p.counts.table m)[v]? with
  | none =>
    rw [he] at h
    cases tracks_none_iff.1 h
    simp
  | some e =>
    rw [he] at h
    obtain ⟨o, ho, htime⟩ := Option.map_eq_some_iff.1 h.lastSeen
    simp only [← Instant.sub?_eq_some_iff, ho, Option.some.injEq]
    cases p.now.sub? p.window with
    | none => simp
    | some cutoff => simp [Option.filter, ← htime, Instant.not_le]

/-- **A step keeps what is tracked.** -/
theorem tracks_step (h : Tracks (p.counts.table m)[v]? live) (s : Step) :
    Tracks ((p.step s).1.counts.table m)[v]? (p.liveAfter m v live s) := by
  rw [step_counts]
  by_cases hs : s = .sweep
  · subst hs
    change Tracks (p.sweep.1.counts.table m)[v]? (if p.evicts m v .sweep then [] else live ++ [])
    rw [List.append_nil, evicts, getElem?_sweep]
    cases he : (p.counts.table m)[v]? with
    | none =>
      rw [he] at h
      simpa using h
    | some e =>
      rw [he] at h
      cases hkept : (p.now.sub? p.window).all fun cutoff => decide (cutoff ≤ e.lastSeen) with
      | true => simpa [Option.filter_some, hkept] using h
      | false => simp [Option.filter_some, hkept]
  · have hkeep : p.evicts m v s = false := by cases s <;> first | rfl | exact absurd rfl hs
    rw [countsAfter_of_ne_sweep hs, liveAfter, hkeep]
    exact h.foldl_add _

/-- **A run keeps what is tracked.**  The induction is on the steps. -/
theorem tracks_run (h : Tracks (p.counts.table m)[v]? live) (steps : List Step) :
    Tracks ((p.run steps).1.counts.table m)[v]? (p.liveFrom m v live steps) := by
  induction steps generalizing p live with
  | nil => exact h
  | cons s steps ih => exact ih (tracks_step h s)

/-- What is live after two runs is what the second one makes of what the first one leaves. -/
theorem liveFrom_append (m : Metric) (v : String) (p : Pipeline) (live : List Occurrence)
    (steps more : List Step) :
    p.liveFrom m v live (steps ++ more) =
      (p.run steps).1.liveFrom m v (p.liveFrom m v live steps) more := by
  induction steps generalizing p live with
  | nil => rfl
  | cons s steps ih => exact ih (p.step s).1 (p.liveAfter m v live s)

/-- What is live is the end of what was counted of a version. -/
theorem liveFrom_suffix (m : Metric) (v : String) (p : Pipeline) (live : List Occurrence)
    (steps : List Step) :
    p.liveFrom m v live steps <:+ live ++ (p.history steps).filter (·.isOf m v) := by
  induction steps generalizing p live with
  | nil =>
    rw [history, List.filter_nil, List.append_nil]
    exact List.suffix_refl _
  | cons s steps ih =>
    refine (ih (p.step s).1 (p.liveAfter m v live s)).trans ?_
    rw [history, List.filter_append, ← List.append_assoc]
    rw [liveAfter]
    split
    · exact List.suffix_append ..
    · exact List.suffix_refl _

/-- From an empty table on, each entry tracks its live occurrences. -/
theorem tracks_live (hempty : p.counts = {}) (steps : List Step) (m : Metric) (v : String) :
    Tracks ((p.run steps).1.counts.table m)[v]? (p.live m v steps) := by
  refine tracks_run ?_ steps
  rw [hempty]
  cases m <;> rfl

/-- What is live is the end of the history: once something was dropped, all in front of it is gone
too. -/
theorem live_suffix (m : Metric) (v : String) (p : Pipeline) (steps : List Step) :
    p.live m v steps <:+ (p.history steps).filter (·.isOf m v) :=
  p.liveFrom_suffix m v [] steps

/-- So the last live occurrence is the last one at all, if anything is live. -/
theorem getLast?_live_eq_some_iff {steps : List Step} {o : Occurrence} :
    (p.live m v steps).getLast? = some o ↔ p.live m v steps ≠ [] ∧
      ((p.history steps).filter (·.isOf m v)).getLast? = some o := by
  obtain ⟨dropped, hdropped⟩ := p.live_suffix m v steps
  rw [← hdropped, List.getLast?_append]
  cases hlast : (p.live m v steps).getLast? with
  | none => simp [List.getLast?_eq_none_iff.1 hlast]
  | some last =>
    have hne : p.live m v steps ≠ [] := by
      intro hnil
      rw [hnil] at hlast
      cases hlast
    simp [hne]

/-- A count never shows more than what is live.  It may show less, since counts are numbers of
sixty-four bits. -/
theorem toNat_rate_le (hempty : p.counts = {}) {steps : List Step} (m : Metric) (v : String) :
    ((p.run steps).1.counts.rate m v).1.toNat ≤ (p.live m v steps).length := by
  rw [(tracks_live hempty steps m v).rate, UInt64.toNat_ofNat']
  exact Nat.mod_le ..

/-- A count is exact as long as it cannot run over. -/
theorem toNat_rate (hempty : p.counts = {}) {steps : List Step}
    (hfew : (p.history steps).length < UInt64.size) (m : Metric) (v : String) :
    ((p.run steps).1.counts.rate m v).1.toNat = (p.live m v steps).length := by
  have hlength : (p.live m v steps).length < UInt64.size :=
    ((p.live_suffix m v steps).length_le.trans (List.length_filter_le ..)).trans_lt hfew
  rw [(tracks_live hempty steps m v).rate]
  exact UInt64.toNat_ofNat_of_lt hlength

/-- **Live counts are the history since the last eviction.**  A rate is the number of live
occurrences and of the sessions among them.  A sweep drops an entry just if there is one and the
instant of the last occurrence is overtaken by the cutoff, which has to exist; and occurrences of
other metrics and versions leave the rate alone. -/
theorem rate_eq_live (p : Pipeline) (hempty : p.counts = {}) (steps : List Step)
    (hfew : (p.history steps).length < UInt64.size) (m : Metric) (v : String) :
    let q := (p.run steps).1
    let live := p.live m v steps
    ((q.counts.rate m v).1.toNat = live.length ∧
      (q.counts.rate m v).2 = (live.map Occurrence.session).toFinset.card) ∧
    (q.evicts m v .sweep = true ↔ live ≠ [] ∧ ∃ (cutoff : Instant) (o : Occurrence),
      cutoff.nanos = q.now.nanos - p.window.nanos ∧
      ((p.history steps).filter (·.isOf m v)).getLast? = some o ∧ o.time < cutoff) ∧
    ∀ (now : Instant) (k : Metric) (w session : String), (k, w) ≠ (m, v) →
      (q.counts.record now k w session).rate m v = q.counts.rate m v := by
  intro q live
  have htracks : Tracks (q.counts.table m)[v]? live := tracks_live hempty steps m v
  refine ⟨⟨toNat_rate hempty hfew m v, ?_⟩, ?_, ?_⟩
  · rw [htracks.rate]
  · rw [evicts_sweep_iff htracks, p.run_window]
    constructor
    · rintro ⟨cutoff, o, hcutoff, hlast, hold⟩
      obtain ⟨hne, hlast⟩ := getLast?_live_eq_some_iff.1 hlast
      exact ⟨hne, cutoff, o, hcutoff, hlast, hold⟩
    · rintro ⟨hne, cutoff, o, hcutoff, hlast, hold⟩
      exact ⟨cutoff, o, hcutoff, getLast?_live_eq_some_iff.2 ⟨hne, hlast⟩, hold⟩
  · intro now k w session hne
    exact Counts.rate_record_of_ne _ _ _ hne

/-- The entry is dropped and made again, and then the clock is set back.  The sweep at the edge of
the window keeps it; one a second later drops it, with an occurrence that the cutoff has not
overtaken. -/
theorem rate_eq_live_set_back :
    let p : Pipeline := { now := .epoch, window := .ofSeconds 10 }
    let steps : List Step :=
      [.record .crash "" "a", .advance (.ofSeconds 30), .sweep, .record .crash "" "a",
        .advance (.ofSeconds (-25)), .record .crash "" "b", .record .crash "" "a",
        .record .jank "" "c", .advance (.ofSeconds 10), .sweep, .advance (.ofSeconds 1)]
    let q := (p.run steps).1
    (p.history steps).length < UInt64.size ∧ (p.live .crash "" steps).length = 3 ∧
      (q.counts.rate .crash "").1.toNat = 3 ∧ (q.counts.rate .crash "").2 = 2 ∧
      q.evicts .crash "" .sweep = true := by
  intro p steps q
  have hfew : (p.history steps).length < UInt64.size := by decide +kernel
  have hlive : (p.live .crash "" steps).length = 3 := by decide +kernel
  obtain ⟨⟨hcount, hsessions⟩, hevicts, -⟩ := rate_eq_live p rfl steps hfew .crash ""
  refine ⟨hfew, hlive, hcount.trans hlive, hsessions.trans (by decide +kernel), hevicts.2 ?_⟩
  refine ⟨List.ne_nil_of_length_pos (by omega), ⟨6 * 1000000000, by decide, by decide⟩,
    ⟨⟨5 * 1000000000, by decide, by decide⟩, .crash, "", "a"⟩, ?_⟩
  decide +kernel

end Pipeline

end SpikeWatch
