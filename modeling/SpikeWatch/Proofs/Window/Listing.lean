import SpikeWatch.Proofs.Text.ByteOrder
import SpikeWatch.Proofs.Window.Survivors

/-!
# Listings

A listing is made of the entries of a metric, which say themselves whose they are and may be visited
in any order, and is sorted by what they say.

* `Listing.pairwise_ofEntries` and `Listing.ofEntries_eq_of_perm` say what the sorting achieves: if
  the entries hold different versions, these are in order, and the order of the visit is lost.
* `Counts.WellKept` is what entries have to keep for that, and for a listing to tell what is live:
  each stands under the version that it holds, and has a session.  Counting keeps it, and so do
  sweeps (`wellKept_record`, `wellKept_sweep`), and so it holds throughout every run
  (`Pipeline.wellKept_run`).
* `Counts.mem_listing_iff` says what is listed of such counts.
* What an entry tallies with has a last occurrence (`Entry.Tallies.ne_nil`), and no fewer
  occurrences than sessions (`Entry.Tallies.sessions_bounds`).
* `Pipeline.listing_exact` puts these together for whole runs.  What is listed is what has a rate,
  with the numbers of that rate.
-/

set_option autoImplicit false

namespace SpikeWatch

/-! ## Sorting -/

/-- Versions that are listed by their order and differ are in strict order. -/
theorem lt_of_isLE_compare {s t : String} (h : (compare s t).isLE = true) (hne : s ≠ t) :
    s < t := by
  rcases Ordering.isLE_iff_eq_lt_or_eq_eq.1 h with hlt | heq
  · exact compareOfLessAndEq_eq_lt.1 hlt
  · exact absurd (Std.LawfulEqCmp.eq_of_compare heq) hne

theorem isLE_compare_total (s t : String) : ((compare s t).isLE || (compare t s).isLE) = true := by
  have hswap : compare t s = (compare s t).swap := Std.OrientedCmp.eq_swap
  rw [hswap]
  cases compare s t <;> rfl

namespace Listing

variable {es es' : List Entry}

theorem mem_ofEntries_iff {l : Listing} : l ∈ ofEntries es ↔ ∃ e ∈ es, ofEntry e = l := by
  rw [ofEntries, List.mem_mergeSort, List.mem_map]

/-- Entries with different versions are listed in the order of these. -/
theorem pairwise_ofEntries (h : (es.map Entry.version).Nodup) :
    (ofEntries es).Pairwise fun l l' => l.version < l'.version := by
  have hsorted : (ofEntries es).Pairwise fun l l' => (compare l.version l'.version).isLE = true :=
    @List.pairwise_mergeSort Listing (fun l l' => (compare l.version l'.version).isLE)
      (fun _ _ _ => Std.TransOrd.isLE_trans) (fun l l' => isLE_compare_total l.version l'.version) _
  have hdistinct : (ofEntries es).Pairwise fun l l' => l.version ≠ l'.version := by
    have hmap : ((es.map ofEntry).map version).Nodup := by rwa [List.map_map]
    exact List.pairwise_map.1 (((List.mergeSort_perm _ _).map version).nodup_iff.2 hmap)
  exact (hsorted.and hdistinct).imp fun h => lt_of_isLE_compare h.1 h.2

/-- **It does not matter in which order the entries are visited.** -/
theorem ofEntries_eq_of_perm (hperm : es.Perm es') (h : (es.map Entry.version).Nodup) :
    ofEntries es = ofEntries es' := by
  have h' : (es'.map Entry.version).Nodup := (hperm.map _).nodup_iff.1 h
  have hboth : (ofEntries es).Perm (ofEntries es') :=
    ((List.mergeSort_perm _ _).trans (hperm.map ofEntry)).trans (List.mergeSort_perm _ _).symm
  exact hboth.eq_of_pairwise (fun _ _ _ _ hlt hlt' => absurd hlt' hlt.not_gt)
    (pairwise_ofEntries h) (pairwise_ofEntries h')

end Listing

/-! ## What entries keep -/

namespace Counts

/-- Each entry stands under the version that it holds, and has a session at least. -/
structure WellKept (counts : Counts) : Prop where
  version_eq : ∀ {m : Metric} {v : String} {e : Entry},
    (counts.table m)[v]? = some e → e.version = v
  exists_session : ∀ {m : Metric} {v : String} {e : Entry},
    (counts.table m)[v]? = some e → ∃ session, session ∈ e.sessions

theorem wellKept_empty : WellKept {} where
  version_eq {m v e} h := by cases m <;> cases h
  exists_session {m v e} h := by cases m <;> cases h

variable {counts : Counts}

/-- An entry is made with the version that it is to stand under, and gets a session at once. -/
theorem wellKept_record (h : counts.WellKept) (now : Instant) (m : Metric) (v session : String) :
    (counts.record now m v session).WellKept := by
  -- An entry is an old one, or the one that was just made or touched.
  have hcases {k : Metric} {w : String} {e : Entry}
      (hentry : ((counts.record now m v session).table k)[w]? = some e) :
      (counts.table k)[w]? = some e ∨
        e = ((counts.table k)[w]?.getD (.new w now)).again now session := by
    rw [table_record] at hentry
    split at hentry
    · rw [VersionTable.getElem?_record] at hentry
      split at hentry
      · next hw =>
        cases hw
        exact .inr (Option.some.inj hentry).symm
      · exact .inl hentry
    · exact .inl hentry
  refine ⟨fun {k w e} hentry => ?_, fun {k w e} hentry => ?_⟩
  · rcases hcases hentry with hold | rfl
    · exact h.version_eq hold
    · cases hbefore : (counts.table k)[w]? with
      | none => rfl
      | some before => exact h.version_eq (e := before) hbefore
  · rcases hcases hentry with hold | rfl
    · exact h.exists_session hold
    · exact ⟨session, Std.ExtTreeSet.mem_insert_self⟩

/-- So any number of occurrences keeps tables well kept. -/
theorem wellKept_foldl_add (h : counts.WellKept) (os : List Occurrence) :
    (os.foldl add counts).WellKept := by
  induction os generalizing counts with
  | nil => exact h
  | cons o os ih => exact ih (wellKept_record h o.time o.metric o.version o.session)

/-- A sweep changes no entry that it keeps. -/
theorem wellKept_sweep (h : counts.WellKept) (window : Duration) (now : Instant) :
    (counts.sweep window now).1.WellKept := by
  have hold {m : Metric} {v : String} {e : Entry}
      (hentry : ((counts.sweep window now).1.table m)[v]? = some e) :
      (counts.table m)[v]? = some e := by
    rw [getElem?_sweep, Option.filter_eq_some_iff] at hentry
    exact hentry.1
  exact ⟨fun hentry => h.version_eq (hold hentry), fun hentry => h.exists_session (hold hentry)⟩

/-! ## What is listed -/

/-- The entries of a table are what stands under its keys. -/
theorem mem_entries_table_iff {m : Metric} {e : Entry} :
    e ∈ (counts.table m).entries ↔ ∃ v : String, (counts.table m)[v]? = some e := by
  simp only [VersionTable.entries, List.mem_map, Prod.exists, exists_eq_right,
    Std.ExtTreeMap.mem_toList_iff_getElem?_eq_some]

/-- Two entries do not stand under one version, so they do not hold one either. -/
theorem WellKept.nodup_versions (h : counts.WellKept) (m : Metric) :
    ((counts.table m).entries.map Entry.version).Nodup := by
  have hkeys : (counts.table m).entries.map Entry.version = (counts.table m).keys := by
    rw [VersionTable.entries, List.map_map, ← Std.ExtTreeMap.map_fst_toList_eq_keys]
    refine List.map_congr_left fun entry hentry => ?_
    exact h.version_eq (Std.ExtTreeMap.mem_toList_iff_getElem?_eq_some.1 hentry)
  rw [hkeys]
  exact Std.ExtTreeMap.nodup_keys

/-- What is listed under a version is the entry of this version.  This needs that entries know their
own key. -/
theorem mem_listing_iff (h : counts.WellKept) {m : Metric} {l : Listing} :
    l ∈ counts.listing m ↔ ∃ e, (counts.table m)[l.version]? = some e ∧ .ofEntry e = l := by
  rw [listing, Listing.mem_ofEntries_iff]
  constructor
  · rintro ⟨e, he, rfl⟩
    obtain ⟨v, hv⟩ := mem_entries_table_iff.1 he
    obtain rfl := h.version_eq hv
    exact ⟨e, hv, rfl⟩
  · rintro ⟨e, he, rfl⟩
    exact ⟨e, mem_entries_table_iff.2 ⟨_, he⟩, rfl⟩

/-- A version is listed just if it has an entry. -/
theorem exists_mem_listing_iff (h : counts.WellKept) {m : Metric} {v : String} :
    (∃ l ∈ counts.listing m, l.version = v) ↔ (counts.table m)[v]? ≠ none := by
  rw [Option.ne_none_iff_exists']
  constructor
  · rintro ⟨l, hl, rfl⟩
    obtain ⟨e, he, -⟩ := (mem_listing_iff h).1 hl
    exact ⟨e, he⟩
  · rintro ⟨e, he⟩
    obtain rfl := h.version_eq he
    exact ⟨.ofEntry e, (mem_listing_iff h).2 ⟨e, he, rfl⟩, rfl⟩

/-- So what is listed of a version is what its count and its sessions are asked for one by one. -/
theorem rate_of_mem_listing (h : counts.WellKept) {m : Metric} {l : Listing}
    (hl : l ∈ counts.listing m) : counts.rate m l.version = (l.count, l.sessions) := by
  obtain ⟨e, he, rfl⟩ := (mem_listing_iff h).1 hl
  rw [rate, he]
  rfl

/-- Listings are in the order of versions, and so list none of them twice. -/
theorem pairwise_listing (h : counts.WellKept) (m : Metric) :
    (counts.listing m).Pairwise fun l l' => textBytes l.version < textBytes l'.version :=
  (Listing.pairwise_ofEntries (h.nodup_versions m)).imp Text.textBytes_lt_iff.2

end Counts

/-! ## No entry is empty -/

namespace Entry.Tallies

variable {e : Entry} {os : List Occurrence}

theorem ne_nil (h : e.Tallies os) : os ≠ [] := by
  rintro rfl
  cases h.lastSeen

/-- Each session has an occurrence, and each occurrence a session. -/
theorem sessions_bounds (h : e.Tallies os) : 1 ≤ e.sessions.size ∧ e.sessions.size ≤ os.length := by
  rw [h.size_sessions]
  constructor
  · refine Finset.card_pos.2 (List.toFinset_nonempty_iff _ |>.2 ?_)
    exact mt List.map_eq_nil_iff.1 h.ne_nil
  · exact (List.toFinset_card_le _).trans (List.length_map _).le

end Entry.Tallies

theorem Tracks.ne_none_iff {e? : Option Entry} {os : List Occurrence} (h : Tracks e? os) :
    e? ≠ none ↔ os ≠ [] := by
  cases e? with
  | none => simpa using h
  | some e => simpa using Entry.Tallies.ne_nil h

namespace Pipeline

variable {p : Pipeline}

/-- **Every step keeps tables well kept.** -/
theorem wellKept_step (h : p.counts.WellKept) (s : Step) : (p.step s).1.counts.WellKept := by
  rw [step_counts]
  by_cases hs : s = .sweep
  · subst hs
    exact Counts.wellKept_sweep h p.window p.now
  · rw [countsAfter_of_ne_sweep hs]
    exact Counts.wellKept_foldl_add h _

/-- **Entries are well kept throughout every run.** -/
theorem wellKept_run (h : p.counts.WellKept) (steps : List Step) :
    (p.run steps).1.counts.WellKept := by
  induction steps generalizing p with
  | nil => exact h
  | cons s steps ih => exact ih (wellKept_step h s)

/-- **What a listing shows.**  Each entry stands under the version that it holds, and none is empty.
So entries may be visited in any order: sorted by what they hold, they make one and the same
listing.  The versions in it are in the order of their bytes, and none is listed twice.  They are
those that have a rate, which is what is listed of them; each has a session, and no more sessions
than occurrences; and the last of all its occurrences is shown, whatever sweeps have dropped of the
others. -/
theorem listing_exact (p : Pipeline) (hempty : p.counts = {}) (steps : List Step)
    (hfew : (p.history steps).length < UInt64.size) (m : Metric) :
    let q := (p.run steps).1
    q.counts.WellKept ∧
    (∀ visited : List Entry, visited.Perm (q.counts.table m).entries →
      Listing.ofEntries visited = q.counts.listing m) ∧
    ((q.counts.listing m).Pairwise fun l l' => textBytes l.version < textBytes l'.version) ∧
    (∀ v, (∃ l ∈ q.counts.listing m, l.version = v) ↔ q.counts.rate m v ≠ (0, 0)) ∧
    ∀ l ∈ q.counts.listing m,
      q.counts.rate m l.version = (l.count, l.sessions) ∧
      (1 ≤ l.sessions ∧ l.sessions ≤ l.count.toNat) ∧
      ((p.history steps).filter (·.isOf m l.version)).getLast?.map Occurrence.time =
        some l.lastSeen := by
  intro q
  have hkept : q.counts.WellKept := wellKept_run (hempty ▸ Counts.wellKept_empty) steps
  refine ⟨hkept, fun visited hperm => ?_, Counts.pairwise_listing hkept m, fun v => ?_,
    fun l hl => ?_⟩
  · exact (Listing.ofEntries_eq_of_perm hperm.symm (hkept.nodup_versions m)).symm
  · have htracks : Tracks (q.counts.table m)[v]? (p.live m v steps) := tracks_live hempty steps m v
    rw [Counts.exists_mem_listing_iff hkept, htracks.ne_none_iff]
    exact (rate_ne_zero_iff hempty hfew m v).1.symm
  · -- What is listed comes from the entry that the live occurrences make up.
    have hrate := Counts.rate_of_mem_listing hkept hl
    have hcount := toNat_rate hempty hfew m l.version
    have htracks := tracks_live hempty steps m l.version
    obtain ⟨e, he, rfl⟩ := (Counts.mem_listing_iff hkept).1 hl
    have htallies : e.Tallies (p.live m e.version steps) := by
      rwa [show ((p.run steps).1.counts.table m)[(Listing.ofEntry e).version]? = some e from he]
        at htracks
    refine ⟨hrate, ?_, ?_⟩
    · rw [hrate] at hcount
      rw [hcount]
      exact htallies.sessions_bounds
    · obtain ⟨o, ho, htime⟩ := Option.map_eq_some_iff.1 htallies.lastSeen
      exact (congrArg (Option.map Occurrence.time) (getLast?_live_eq_some_iff.1 ho).2).trans
        (congrArg some htime)

/-- The first of the two versions was dropped once and made again, and comes last in the listing:
its one character has the larger number, and takes more bytes.  It does not matter which of the two
is visited first. -/
theorem listing_exact_two :
    let p : Pipeline := { now := .epoch, window := .ofSeconds 10 }
    let steps : List Step :=
      [.record .crash "😀" "a", .advance (.ofSeconds 30), .sweep, .record .crash "😀" "b",
        .record .crash "\uFFFD" "a", .advance (.ofSeconds 5), .record .crash "😀" "b",
        .record .crash "😀" "c", .record .jank "1.0" "a"]
    let q := (p.run steps).1
    let entries := (q.counts.table .crash).entries
    let first : Listing := ⟨"\uFFFD", 1, 1, { nanos := 30 * 1000000000 }⟩
    let last : Listing := ⟨"😀", 3, 2, { nanos := 35 * 1000000000 }⟩
    (p.history steps).length < UInt64.size ∧ q.counts.listing .crash = [first, last] ∧
      Listing.ofEntries entries.reverse = [first, last] ∧
      textBytes first.version < textBytes last.version ∧
      q.counts.rate .crash "😀" = (3, 2) ∧ q.counts.rate .crash "1.0" = (0, 0) ∧
      ((p.history steps).filter (·.isOf .crash "😀")).getLast?.map Occurrence.time =
        some last.lastSeen := by
  intro p steps q entries first last
  have hfew : (p.history steps).length < UInt64.size := by decide +kernel
  obtain ⟨-, hvisited, hordered, hlisted, hshown⟩ := listing_exact p rfl steps hfew .crash
  have hlisting : q.counts.listing .crash = [first, last] := by
    have hentries : entries.map Listing.ofEntry = [first, last] := by decide +kernel
    rw [← hvisited entries (.refl _), Listing.ofEntries, hentries]
    exact List.mergeSort_of_pairwise (by decide +kernel)
  have hunlisted : ¬ ∃ l ∈ q.counts.listing .crash, l.version = "1.0" := by
    rw [hlisting]
    decide
  have hlast : last ∈ q.counts.listing .crash := by simp [hlisting]
  obtain ⟨hrate, -, htime⟩ := hshown last hlast
  rw [hlisting] at hordered
  exact ⟨hfew, hlisting, (hvisited _ (List.reverse_perm entries)).trans hlisting,
    List.rel_of_pairwise_cons hordered (List.mem_singleton_self last), hrate,
    not_not.1 (mt (hlisted "1.0").2 hunlisted), htime⟩

end Pipeline

end SpikeWatch
