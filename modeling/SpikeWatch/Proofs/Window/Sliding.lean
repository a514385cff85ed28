import SpikeWatch.Proofs.Alert.Firing
import SpikeWatch.Proofs.Binary.Rounding
import SpikeWatch.Proofs.Window.Tally

/-!
# The sliding window

The count that a rule is held against ought to be that of the last stretch of time, as long as the
window.  Entries are dropped as a whole and by their last occurrence, so this is true in one
direction only.  For runs in which time does not go back:

* **Nothing is missed.**  What was counted within the window is live, whenever sweeps came
  (`recent_eq_filter_live`).  So a rule that does not rest fires if its threshold was reached within
  the window.
* **Too much may be counted.**  What is live need not be recent: a trickle that leaves no gap as
  long as the window keeps everything live.  Right after a sweep, all that is sure is that the last
  live occurrence is recent (`isWithin_of_mem_getLast?`).

The invariant is `Settled`: what has been dropped is out of the window, and stays so as time goes
on.
-/

set_option autoImplicit false

namespace SpikeWatch

/-- Whether something occurred no longer ago than the window. -/
def Occurrence.isWithin (window : Duration) (now : Instant) (o : Occurrence) : Bool :=
  now.since o.time ≤ window

/-- What is out of the window is further back than its length. -/
theorem Occurrence.isWithin_eq_false_iff {window : Duration} {now : Instant} {o : Occurrence} :
    o.isWithin window now = false ↔ window.nanos < now.nanos - o.time.nanos := by
  rw [isWithin, decide_eq_false_iff_not]
  exact Int.not_le

/-- What is out of the window stays out of it, and what came before it is out of it as well. -/
theorem Occurrence.isWithin_eq_false_of_le {window : Duration} {s t : Instant} {o o' : Occurrence}
    (h : o'.isWithin window s = false) (htime : o.time ≤ o'.time) (hnow : s ≤ t) :
    o.isWithin window t = false := by
  rw [isWithin_eq_false_iff] at h ⊢
  change o.time.nanos ≤ o'.time.nanos at htime
  change s.nanos ≤ t.nanos at hnow
  omega

namespace Pipeline

/-- The occurrences of a version that a run counts and that lie within the window at its end. -/
def recent (m : Metric) (v : String) (p : Pipeline) (steps : List Step) : List Occurrence :=
  (p.history steps).filter fun o => o.isOf m v && o.isWithin p.window (p.run steps).1.now

/-! ## What is dropped is stale -/

/-- The occurrences of a version so far are old and live ones; the entry tallies with the live
ones, which are in the order of their instants, and the old ones are out of the window. -/
structure Settled (m : Metric) (v : String) (p : Pipeline) (old live : List Occurrence) : Prop where
  tracks : Tracks (p.counts.table m)[v]? live
  sorted : live.Pairwise fun o o' => o.time ≤ o'.time
  le_now : ∀ o ∈ live, o.time ≤ p.now
  stale : ∀ o ∈ old, o.isWithin p.window p.now = false

variable {m : Metric} {v : String} {p : Pipeline} {old live : List Occurrence}

/-- A sweep that drops an entry finds its last occurrence out of the window, and no other one of
its occurrences is later than that. -/
theorem Settled.stale_of_evicts (h : Settled m v p old live) (hevicts : p.evicts m v .sweep = true)
    {o : Occurrence} (ho : o ∈ live) : o.isWithin p.window p.now = false := by
  obtain ⟨cutoff, last, hcutoff, hlast, hold⟩ := (evicts_sweep_iff h.tracks).1 hevicts
  have hstale : last.isWithin p.window p.now = false := by
    rw [Occurrence.isWithin_eq_false_iff]
    change last.time.nanos < cutoff.nanos at hold
    omega
  refine Occurrence.isWithin_eq_false_of_le hstale ?_ (Instant.le_refl _)
  obtain ⟨before, rfl⟩ := List.getLast?_eq_some_iff.1 hlast
  rcases List.mem_append.1 ho with ho | ho
  · exact (List.pairwise_append.1 h.sorted).2.2 o ho last (List.mem_singleton_self last)
  · rw [List.mem_singleton.1 ho]
    exact Instant.le_refl _

/-- New occurrences are at the end of what is live, and time goes on. -/
theorem Settled.append (h : Settled m v p old live) {q : Pipeline} {news : List Occurrence}
    (htracks : Tracks (q.counts.table m)[v]? (live ++ news))
    (hnews : ∀ o ∈ news, o.time = p.now) (hwindow : q.window = p.window) (hnow : p.now ≤ q.now) :
    Settled m v q old (live ++ news) where
  tracks := htracks
  sorted := by
    refine List.pairwise_append.2 ⟨h.sorted, ?_, ?_⟩
    · refine List.pairwise_of_forall_mem_list fun o ho o' ho' => ?_
      rw [hnews o ho, hnews o' ho']
      exact Instant.le_refl _
    · intro o ho o' ho'
      rw [hnews o' ho']
      exact h.le_now o ho
  le_now o ho := by
    refine Instant.le_trans ?_ hnow
    rcases List.mem_append.1 ho with ho | ho
    · exact h.le_now o ho
    · rw [hnews o ho]
      exact Instant.le_refl _
  stale o ho := by
    rw [hwindow]
    exact Occurrence.isWithin_eq_false_of_le (h.stale o ho) (Instant.le_refl _) hnow

/-- **A step keeps the books settled**: what it drops was out of the window. -/
theorem settled_step (h : Settled m v p old live) (s : Step) (hnow : p.now ≤ (p.step s).1.now) :
    ∃ old', old' ++ p.liveAfter m v live s =
        old ++ live ++ (p.occurrences s).filter (·.isOf m v) ∧
      Settled m v (p.step s).1 old' (p.liveAfter m v live s) := by
  have htracks := tracks_step h.tracks s
  rw [liveAfter] at htracks ⊢
  cases hevicts : p.evicts m v s with
  | true =>
    obtain rfl : s = .sweep := by cases s <;> first | rfl | cases hevicts
    rw [hevicts, if_pos rfl] at htracks
    rw [if_pos rfl]
    refine ⟨old ++ live, by simp [occurrences], htracks, .nil, by simp, fun o ho => ?_⟩
    -- a sweep does not move the clock, so what is stale now is stale after it
    change o.isWithin p.window p.now = false
    rcases List.mem_append.1 ho with ho | ho
    · exact h.stale o ho
    · exact h.stale_of_evicts hevicts ho
  | false =>
    rw [hevicts, if_neg Bool.false_ne_true] at htracks
    rw [if_neg Bool.false_ne_true]
    have hnews : ∀ o ∈ (p.occurrences s).filter (·.isOf m v), o.time = p.now := fun o ho =>
      time_of_mem_occurrences (List.mem_filter.1 ho).1
    exact ⟨old, (List.append_assoc ..).symm, h.append htracks hnews (p.step_window s) hnow⟩

/-- **A run keeps the books settled.** -/
theorem settled_run (h : Settled m v p old live) (steps : List Step) (hforward : p.Forward steps) :
    ∃ old', old' ++ p.liveFrom m v live steps =
        old ++ live ++ (p.history steps).filter (·.isOf m v) ∧
      Settled m v (p.run steps).1 old' (p.liveFrom m v live steps) := by
  induction steps generalizing p old live with
  | nil => exact ⟨old, by simp [liveFrom, history], h⟩
  | cons s steps ih =>
    obtain ⟨hnow, hforward⟩ := hforward
    obtain ⟨old', hold', hstep⟩ := settled_step h s hnow
    obtain ⟨old'', hold'', hrun⟩ := ih hstep hforward
    refine ⟨old'', ?_, hrun⟩
    rw [history, List.filter_append, ← List.append_assoc, ← hold']
    exact hold''

/-- From an empty table on, all of the history is settled. -/
theorem settled_live (hempty : p.counts = {}) {steps : List Step} (hforward : p.Forward steps)
    (m : Metric) (v : String) :
    ∃ old, old ++ p.live m v steps = (p.history steps).filter (·.isOf m v) ∧
      Settled m v (p.run steps).1 old (p.live m v steps) := by
  have hstart : Settled m v p [] [] := ⟨tracks_live hempty [] m v, .nil, by simp, by simp⟩
  exact settled_run hstart steps hforward

/-- **What lies within the window is live.** -/
theorem recent_eq_filter_live (hempty : p.counts = {}) {steps : List Step}
    (hforward : p.Forward steps) (m : Metric) (v : String) :
    p.recent m v steps =
      (p.live m v steps).filter (·.isWithin p.window (p.run steps).1.now) := by
  obtain ⟨old, hold, hsettled⟩ := settled_live hempty hforward m v
  have hstale : old.filter (·.isWithin p.window (p.run steps).1.now) = [] := by
    refine List.filter_eq_nil_iff.2 fun o ho => ?_
    rw [← p.run_window steps, hsettled.stale o ho]
    exact Bool.false_ne_true
  rw [recent, ← List.filter_filter, List.filter_comm, ← hold, List.filter_append, hstale,
    List.nil_append]

/-! ## Alerts -/

/-- **No spike is missed.**  A rule that does not rest fires if what was counted within the window
reaches its threshold, which is any finite number, and its alert shows no less than that. -/
theorem fires_of_le_recent (p : Pipeline) (hempty : p.counts = {}) (steps : List Step)
    (hforward : p.Forward steps) (hfew : (p.history steps).length < UInt64.size)
    {i : Nat} {r : Rule} (hrule : (p.run steps).1.rules[i]? = some r)
    (hrested : r.inCooldown (p.run steps).1.now = false)
    {threshold : ℚ} (hthreshold : r.threshold.toRat? = some threshold)
    (hspike : threshold ≤ (p.recent r.metric r.version steps).length) :
    ∃ a, (p.run steps).1.firing i .evaluate = some a ∧ a ∈ (p.run steps).1.evaluate.2 ∧
      a.rule = r ∧ (.ofNat (p.recent r.metric r.version steps).length : Double) ≤ a.value := by
  have hcount := toNat_rate hempty hfew r.metric r.version
  have hle : (p.recent r.metric r.version steps).length ≤
      (p.live r.metric r.version steps).length := by
    rw [recent_eq_filter_live hempty hforward]
    exact List.length_filter_le ..
  have hreached : threshold ≤ ((p.live r.metric r.version steps).length : ℚ) :=
    hspike.trans (by exact_mod_cast hle)
  let a : Alert :=
    .ofRule r (.ofNat ((p.run steps).1.counts.rate r.metric r.version).1.toNat) (p.run steps).1.now
  have hfires : (p.run steps).1.firing i .evaluate = some a := by
    refine firing_eq_some_iff.2 ⟨rfl, r, hrule, Rule.fire?_eq_some_iff.2 ⟨hrested, ?_, rfl⟩⟩
    rw [hcount]
    exact Binary.not_lt_of_le (Binary.le_ofNat hthreshold hreached)
  refine ⟨a, hfires, mem_evaluate_iff.2 ⟨i, hfires⟩, rfl, ?_⟩
  change (.ofNat _ : Double) ≤ .ofNat ((p.run steps).1.counts.rate r.metric r.version).1.toNat
  rw [hcount]
  exact Binary.ofNat_le_ofNat hle

/-- An older occurrence is out of the window; the two that reach the threshold lie at the very edge
of it, where a sweep keeps them. -/
theorem fires_of_le_recent_at_edge :
    let rule : Rule := { id := "r", name := "R", metric := .crash, threshold := .ofNat 2 }
    let p : Pipeline := { now := .epoch, rules := [rule] }
    let steps : List Step :=
      [.record .crash "" "a", .advance (.ofSeconds 30), .record .crash "" "b",
        .record .crash "" "b", .advance (.ofSeconds 60), .sweep]
    p.Forward steps ∧ (p.history steps).length < UInt64.size ∧
      (p.run steps).1.rules[0]? = some rule ∧ rule.inCooldown (p.run steps).1.now = false ∧
      rule.threshold.toRat? = some 2 ∧ (p.recent .crash "" steps).length = 2 ∧
      ∃ a, (p.run steps).1.firing 0 .evaluate = some a ∧ a ∈ (p.run steps).1.evaluate.2 ∧
        a.rule = rule ∧ (.ofNat 2 : Double) ≤ a.value := by
  intro rule p steps
  have hforward : p.Forward steps := by decide +kernel
  have hfew : (p.history steps).length < UInt64.size := by decide +kernel
  have hrule : (p.run steps).1.rules[0]? = some rule := rfl
  have hrested : rule.inCooldown (p.run steps).1.now = false := rfl
  have hthreshold : rule.threshold.toRat? = some 2 := by decide +kernel
  have hrecent : (p.recent .crash "" steps).length = 2 := by decide +kernel
  have hspike : (2 : ℚ) ≤ (p.recent rule.metric rule.version steps).length := by
    change (2 : ℚ) ≤ (p.recent .crash "" steps).length
    rw [hrecent]
    norm_num
  obtain ⟨a, hfires, hmem, hof, hvalue⟩ :=
    fires_of_le_recent p rfl steps hforward hfew hrule hrested hthreshold hspike
  change (.ofNat (p.recent .crash "" steps).length : Double) ≤ a.value at hvalue
  rw [hrecent] at hvalue
  exact ⟨hforward, hfew, hrule, hrested, hthreshold, hrecent, a, hfires, hmem, hof, hvalue⟩

/-- What a sweep leaves of an entry ends within the window. -/
theorem isWithin_of_not_evicts (htracks : Tracks (p.counts.table m)[v]? live)
    (hwindow : 0 ≤ p.window.nanos) (hkeep : p.evicts m v .sweep = false) {o : Occurrence}
    (ho : live.getLast? = some o) : o.isWithin p.window p.now = true := by
  by_contra hout
  rw [Bool.not_eq_true, Occurrence.isWithin_eq_false_iff] at hout
  -- an occurrence before the cutoff, so the cutoff is an instant
  have hfirst := o.time.first_le
  have hlast := p.now.le_last
  have hcutoff : p.evicts m v .sweep = true := by
    refine (evicts_sweep_iff htracks).2
      ⟨⟨p.now.nanos - p.window.nanos, by omega, by omega⟩, o, rfl, ho, ?_⟩
    change o.time.nanos < p.now.nanos - p.window.nanos
    omega
  rw [hkeep] at hcutoff
  cases hcutoff

/-- A sweep at the end of a run drops all that is live, or nothing of it. -/
theorem live_append_sweep (m : Metric) (v : String) (p : Pipeline) (steps : List Step) :
    p.live m v (steps ++ [.sweep]) =
      if (p.run steps).1.evicts m v .sweep then [] else p.live m v steps := by
  rw [live, liveFrom_append]
  change (if (p.run steps).1.evicts m v .sweep then [] else p.live m v steps ++ []) = _
  rw [List.append_nil]

/-- After a sweep that does not reach into the future, what is live ends within the window. -/
theorem isWithin_of_mem_getLast? (hempty : p.counts = {}) {steps : List Step}
    (hwindow : 0 ≤ p.window.nanos) {o : Occurrence}
    (ho : o ∈ (p.live m v (steps ++ [.sweep])).getLast?) :
    o.isWithin p.window (p.run (steps ++ [.sweep])).1.now = true := by
  rw [live_append_sweep] at ho
  have hnow : (p.run (steps ++ [.sweep])).1.now = (p.run steps).1.now := by
    rw [run_append]
    rfl
  rw [hnow, ← p.run_window steps]
  cases hevicts : (p.run steps).1.evicts m v .sweep with
  | true =>
    rw [hevicts, if_pos rfl] at ho
    cases ho
  | false =>
    rw [hevicts, if_neg Bool.false_ne_true] at ho
    rw [← p.run_window steps] at hwindow
    exact isWithin_of_not_evicts (tracks_live hempty steps m v) hwindow hevicts ho

/-- **The value of an alert right after a sweep.**  It is no more than the number of live
occurrences, and just that as long as a count cannot run over: those within the window, and the
older ones that were counted since the last eviction as well.  So what is live is no more than what
lies within the window just if nothing older is live; and the last live occurrence lies within it,
so an entry that has gone stale is never held against a threshold. -/
theorem value_eq_live (p : Pipeline) (hempty : p.counts = {}) (steps : List Step)
    (hforward : p.Forward (steps ++ [.sweep])) {a : Alert}
    (ha : a ∈ (p.run (steps ++ [.sweep])).1.evaluate.2) :
    let live := p.live a.rule.metric a.rule.version (steps ++ [.sweep])
    let recent := p.recent a.rule.metric a.rule.version (steps ++ [.sweep])
    a.value ≤ .ofNat live.length ∧
      ((p.history (steps ++ [.sweep])).length < UInt64.size → a.value = .ofNat live.length) ∧
      (∀ o ∈ recent, o.time ≤ a.timestamp) ∧ recent.length ≤ live.length ∧
      (live.length ≤ recent.length ↔ ∀ o ∈ live, o.isWithin p.window a.timestamp = true) ∧
      (0 ≤ p.window.nanos → ∀ o ∈ live.getLast?, o.isWithin p.window a.timestamp = true) := by
  intro live recent
  obtain ⟨i, hfires⟩ := mem_evaluate_iff.1 ha
  obtain ⟨-, r, -, hfire⟩ := firing_eq_some_iff.1 hfires
  obtain ⟨-, -, rfl⟩ := Rule.fire?_eq_some_iff.1 hfire
  obtain ⟨old, -, hsettled⟩ := settled_live hempty hforward r.metric r.version
  -- Nothing recent was dropped, so it can be looked for in what is live.
  have hrecent : recent = live.filter (·.isWithin p.window (p.run (steps ++ [.sweep])).1.now) :=
    recent_eq_filter_live hempty hforward r.metric r.version
  rw [hrecent]
  refine ⟨?_, fun hfew => ?_, fun o ho => ?_, List.length_filter_le .., ?_, fun hwindow o ho => ?_⟩
  · exact Binary.ofNat_le_ofNat (toNat_rate_le hempty r.metric r.version)
  · exact congrArg Binary.ofNat (toNat_rate hempty hfew r.metric r.version)
  · exact hsettled.le_now o (List.mem_filter.1 ho).1
  · constructor
    · intro hle
      exact List.length_filter_eq_length_iff.1 ((List.length_filter_le ..).antisymm hle)
    · intro hall
      exact (List.length_filter_eq_length_iff.2 hall).ge
  · exact isWithin_of_mem_getLast? hempty hwindow ho

/-- Half of what the alert shows is older than the window. -/
theorem value_eq_live_trickle :
    let rule : Rule := { id := "r", name := "R", metric := .crash, threshold := .ofNat 2 }
    let p : Pipeline := { now := .epoch, rules := [rule] }
    let steps : List Step :=
      [.record .crash "" "a", .advance (.ofSeconds 50), .record .crash "" "b",
        .advance (.ofSeconds 50)]
    let q := (p.run (steps ++ [.sweep])).1
    p.Forward (steps ++ [.sweep]) ∧ (p.history (steps ++ [.sweep])).length < UInt64.size ∧
      ∃ a ∈ q.evaluate.2, a.rule = rule ∧ a.timestamp = q.now ∧ a.value = .ofNat 2 ∧
        (p.recent .crash "" (steps ++ [.sweep])).length = 1 ∧
        ∀ o ∈ (p.live .crash "" (steps ++ [.sweep])).getLast?,
          o.isWithin p.window q.now = true := by
  intro rule p steps q
  have hforward : p.Forward (steps ++ [.sweep]) := by decide +kernel
  have hfew : (p.history (steps ++ [.sweep])).length < UInt64.size := by decide +kernel
  let a : Alert := .ofRule rule (.ofNat 2) q.now
  have ha : a ∈ q.evaluate.2 := by decide +kernel
  have hlive : (p.live .crash "" (steps ++ [.sweep])).length = 2 := by decide +kernel
  obtain ⟨-, hvalue, -, -, -, hlast⟩ := value_eq_live p rfl steps hforward ha
  exact ⟨hforward, hfew, a, ha, rfl, rfl, (hvalue hfew).trans (congrArg Binary.ofNat hlive),
    by decide +kernel, hlast (by decide)⟩

/-- An alert may show more than was counted within the window, right after a sweep as well. -/
theorem not_value_le_recent :
    ¬ ∀ (p : Pipeline) (steps : List Step) (a : Alert), p.counts = {} →
      p.Forward (steps ++ [.sweep]) → a ∈ (p.run (steps ++ [.sweep])).1.evaluate.2 →
      a.value ≤ .ofNat (p.recent a.rule.metric a.rule.version (steps ++ [.sweep])).length := by
  intro hbounded
  let rule : Rule := { id := "r", name := "R", metric := .crash, threshold := .ofNat 2 }
  let p : Pipeline := { now := .epoch, rules := [rule] }
  let steps : List Step :=
    [.record .crash "" "a", .advance (.ofSeconds 50), .record .crash "" "b",
      .advance (.ofSeconds 50)]
  let a : Alert := .ofRule rule (.ofNat 2) (p.run (steps ++ [.sweep])).1.now
  have ha : a ∈ (p.run (steps ++ [.sweep])).1.evaluate.2 := by decide +kernel
  have hle := hbounded p steps a rfl (by decide +kernel) ha
  exact absurd hle (by decide +kernel)

end Pipeline

end SpikeWatch
