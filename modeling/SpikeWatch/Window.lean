import SpikeWatch.Event.Kind
import SpikeWatch.Time.Instant
import Std.Data.ExtTreeMap
import Std.Data.ExtTreeSet

/-!
# Live counts

For each metric and each version of the application, the occurrences since the entry was made, the
sessions that reported them, and when the last one came.  An entry is dropped as a whole by the
first sweep that finds its last occurrence older than the window.

`Counts` holds the entries and is the same whenever its entries are; the window and the present are
arguments of the operations.

An entry also holds its version.  That is what listings show, and what they are sorted by: they are
made of the entries alone, and not of the versions under which these stand.
-/

set_option autoImplicit false

namespace SpikeWatch

/-- The live counts of one version. -/
structure Entry where
  version : String
  count : UInt64
  lastSeen : Instant
  sessions : Std.ExtTreeSet String

/-- The entries of one metric, by version.  This is a finite map and nothing else: two tables are
the same if they have the same entries, and the order in which these are visited is no part of
them. -/
abbrev VersionTable := Std.ExtTreeMap String Entry

namespace Entry

/-- An entry that has counted nothing yet. -/
def new (version : String) (now : Instant) : Entry := ⟨version, 0, now, ∅⟩

/-- The entry after one more occurrence. -/
def again (now : Instant) (session : String) (e : Entry) : Entry :=
  { e with count := e.count + 1, lastSeen := now, sessions := e.sessions.insert session }

end Entry

namespace VersionTable

/-- Counts an occurrence.  The entry is made first if there is none. -/
def record (now : Instant) (version session : String) (table : VersionTable) : VersionTable :=
  table.alter version fun e? => some ((e?.getD (.new version now)).again now session)

/-- Keeps the entries whose last occurrence is not before the cutoff. -/
def keepFrom (cutoff : Instant) (table : VersionTable) : VersionTable :=
  table.filter fun _ e => decide (cutoff ≤ e.lastSeen)

/-- The entries, in one of the orders in which they may be visited. -/
def entries (table : VersionTable) : List Entry := table.toList.map Prod.snd

theorem getElem?_record (table : VersionTable) (now : Instant) (v w session : String) :
    (table.record now v session)[w]? =
      if v = w then some ((table[v]?.getD (.new v now)).again now session) else table[w]? := by
  rw [record, Std.ExtTreeMap.getElem?_alter]
  simp only [Std.LawfulEqCmp.compare_eq_iff_eq]

theorem getElem?_keepFrom (table : VersionTable) (cutoff : Instant) (v : String) :
    (table.keepFrom cutoff)[v]? = table[v]?.filter fun e => decide (cutoff ≤ e.lastSeen) := by
  rw [keepFrom, Std.ExtTreeMap.getElem?_filter']

end VersionTable

/-- The live counts of all metrics. -/
structure Counts where
  crash : VersionTable := ∅
  exception : VersionTable := ∅
  jank : VersionTable := ∅

/-- An entry as it is listed. -/
structure Listing where
  version : String
  count : UInt64
  sessions : Nat
  lastSeen : Instant
  deriving DecidableEq

namespace Listing

/-- Shows what an entry holds. -/
def ofEntry (e : Entry) : Listing := ⟨e.version, e.count, e.sessions.size, e.lastSeen⟩

/-- Shows entries, however they come, in the order of the versions that they hold. -/
def ofEntries (es : List Entry) : List Listing :=
  (es.map ofEntry).mergeSort fun l l' => (compare l.version l'.version).isLE

end Listing

namespace Counts

/-- The entries of a metric. -/
def table (counts : Counts) : Metric → VersionTable
  | .crash => counts.crash
  | .exception => counts.exception
  | .jank => counts.jank

/-- Puts other entries in the place of those of a metric. -/
def setTable (counts : Counts) (metric : Metric) (table : VersionTable) : Counts :=
  match metric with
  | .crash => { counts with crash := table }
  | .exception => { counts with exception := table }
  | .jank => { counts with jank := table }

/-- Counts an occurrence. -/
def record (counts : Counts) (now : Instant) (metric : Metric) (version session : String) :
    Counts :=
  counts.setTable metric ((counts.table metric).record now version session)

/-- The occurrences and the distinct sessions of a version. -/
def rate (counts : Counts) (metric : Metric) (version : String) : UInt64 × Nat :=
  match (counts.table metric)[version]? with
  | none => (0, 0)
  | some e => (e.count, e.sessions.size)

/-- The number of entries. -/
def size (counts : Counts) : Nat := counts.crash.size + counts.exception.size + counts.jank.size

/-- Keeps the entries whose last occurrence is not before the cutoff. -/
def keepFrom (cutoff : Instant) (counts : Counts) : Counts where
  crash := counts.crash.keepFrom cutoff
  exception := counts.exception.keepFrom cutoff
  jank := counts.jank.keepFrom cutoff

/-- Drops the entries whose last occurrence is older than the window, and counts them.  A window
that reaches back beyond the first instant keeps them all. -/
def sweep (counts : Counts) (window : Duration) (now : Instant) : Counts × Nat :=
  match now.sub? window with
  -- no cutoff can be told, so nothing is older than it
  | none => (counts, 0)
  | some cutoff =>
    let kept := counts.keepFrom cutoff
    (kept, counts.size - kept.size)

/-- All entries of a metric, sorted by their versions. -/
def listing (counts : Counts) (metric : Metric) : List Listing :=
  Listing.ofEntries (counts.table metric).entries

@[simp]
theorem table_setTable_self (counts : Counts) (m : Metric) (t : VersionTable) :
    (counts.setTable m t).table m = t := by cases m <;> rfl

theorem table_setTable_of_ne (counts : Counts) {m k : Metric} (t : VersionTable) (h : k ≠ m) :
    (counts.setTable m t).table k = counts.table k := by
  cases m <;> cases k <;> first | rfl | exact absurd rfl h

theorem table_record (counts : Counts) (now : Instant) (m k : Metric) (v session : String) :
    (counts.record now m v session).table k =
      if m = k then (counts.table k).record now v session else counts.table k := by
  rw [record]
  split
  · next h =>
    subst h
    exact table_setTable_self ..
  · next h => exact table_setTable_of_ne _ _ (Ne.symm h)

/-- Occurrences of other metrics and versions leave a rate alone. -/
theorem rate_record_of_ne (counts : Counts) (now : Instant) {m k : Metric} {v w : String}
    (session : String) (h : (k, w) ≠ (m, v)) :
    (counts.record now k w session).rate m v = counts.rate m v := by
  have hentry : ((counts.record now k w session).table m)[v]? = (counts.table m)[v]? := by
    rw [table_record]
    split
    · next hk =>
      have hw : w ≠ v := fun hw => h (by rw [hk, hw])
      rw [VersionTable.getElem?_record, if_neg hw]
    · rfl
  rw [rate, rate, hentry]

theorem table_keepFrom (counts : Counts) (cutoff : Instant) (m : Metric) :
    (counts.keepFrom cutoff).table m = (counts.table m).keepFrom cutoff := by
  cases m <;> rfl

/-- A sweep keeps just the entries that no cutoff has overtaken. -/
theorem getElem?_sweep (counts : Counts) (window : Duration) (now : Instant) (m : Metric)
    (v : String) :
    ((counts.sweep window now).1.table m)[v]? = (counts.table m)[v]?.filter fun e =>
      (now.sub? window).all fun cutoff => decide (cutoff ≤ e.lastSeen) := by
  rw [sweep]
  cases now.sub? window with
  | none => cases (counts.table m)[v]? <;> rfl
  | some cutoff =>
    dsimp only
    rw [table_keepFrom, VersionTable.getElem?_keepFrom]
    rfl

end Counts

end SpikeWatch
