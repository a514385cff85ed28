/-!
# Instants and durations

Both count nanoseconds.  An instant counts them from the first moment of 1970 and lies in the years
from -262143 to 262142; a duration may be negative.  Moving an instant by a duration is exact, and
fails just where the result lies outside the range of instants.
-/

set_option autoImplicit false

namespace SpikeWatch

/-- A length of time, possibly negative. -/
structure Duration where
  nanos : Int
  deriving DecidableEq

namespace Duration

instance : LT Duration := ⟨fun d e => d.nanos < e.nanos⟩
instance : LE Duration := ⟨fun d e => d.nanos ≤ e.nanos⟩
instance (d e : Duration) : Decidable (d < e) := inferInstanceAs (Decidable (d.nanos < e.nanos))
instance (d e : Duration) : Decidable (d ≤ e) := inferInstanceAs (Decidable (d.nanos ≤ e.nanos))

theorem not_lt {d e : Duration} : ¬ d < e ↔ e ≤ d := Int.not_lt

/-- A duration of so many milliseconds. -/
def ofMillis (n : Int) : Duration := ⟨n * 1000000⟩
/-- A duration of so many seconds. -/
def ofSeconds (n : Int) : Duration := ⟨n * 1000000000⟩
/-- A duration of so many minutes. -/
def ofMinutes (n : Int) : Duration := ofSeconds (n * 60)
/-- A duration of so many hours. -/
def ofHours (n : Int) : Duration := ofSeconds (n * 3600)
/-- A duration of so many days, each of twenty-four hours. -/
def ofDays (n : Int) : Duration := ofSeconds (n * 86400)

/-- The whole milliseconds of a duration; a part of one is dropped. -/
def millis (d : Duration) : Int := d.nanos.tdiv 1000000

end Duration

namespace Instant

/-- The first instant, in nanoseconds: the beginning of the year -262143. -/
def firstNanos : Int := -8334601228800000000000

/-- The last instant, in nanoseconds: the end of the year 262142. -/
def lastNanos : Int := 8210266876799999999999

end Instant

/-- A moment, by the nanoseconds that have gone since the beginning of 1970. -/
structure Instant where
  nanos : Int
  first_le : Instant.firstNanos ≤ nanos := by decide
  le_last : nanos ≤ Instant.lastNanos := by decide
  deriving DecidableEq

namespace Instant

/-- The beginning of 1970. -/
def epoch : Instant where
  nanos := 0

instance : Inhabited Instant := ⟨epoch⟩

instance : LT Instant := ⟨fun s t => s.nanos < t.nanos⟩
instance : LE Instant := ⟨fun s t => s.nanos ≤ t.nanos⟩
instance (s t : Instant) : Decidable (s < t) := inferInstanceAs (Decidable (s.nanos < t.nanos))
instance (s t : Instant) : Decidable (s ≤ t) := inferInstanceAs (Decidable (s.nanos ≤ t.nanos))

/-- The instant so many nanoseconds after the beginning of 1970, if it lies in the range. -/
def ofNanos? (n : Int) : Option Instant :=
  if h : firstNanos ≤ n ∧ n ≤ lastNanos then some ⟨n, h.1, h.2⟩ else none

/-- The instant so many milliseconds after the beginning of 1970, if it lies in the range. -/
def ofMillis? (n : Int) : Option Instant := ofNanos? (n * 1000000)

/-- The instant a duration later. -/
def add? (t : Instant) (d : Duration) : Option Instant := ofNanos? (t.nanos + d.nanos)

/-- The instant a duration earlier. -/
def sub? (t : Instant) (d : Duration) : Option Instant := ofNanos? (t.nanos - d.nanos)

/-- The time gone from one instant to another. -/
def since (t s : Instant) : Duration := ⟨t.nanos - s.nanos⟩

/-- The milliseconds that have begun since the beginning of 1970. -/
def millis (t : Instant) : Int := t.nanos / 1000000

/-- The whole seconds since the beginning of 1970, rounded down. -/
def seconds (t : Instant) : Int := t.nanos / 1000000000

/-- The nanoseconds since the last whole second. -/
def subsecond (t : Instant) : Nat := (t.nanos % 1000000000).toNat

@[ext]
theorem ext {s t : Instant} (h : s.nanos = t.nanos) : s = t := by
  cases s; cases t; cases h; rfl

/-- Moving fails just where the exact result lies outside the range. -/
theorem ofNanos?_eq_some_iff {n : Int} {t : Instant} : ofNanos? n = some t ↔ t.nanos = n := by
  rw [ofNanos?]
  split
  · simpa [Instant.ext_iff] using eq_comm
  · rename_i h
    simp only [reduceCtorEq, false_iff]
    rintro rfl
    exact h ⟨t.first_le, t.le_last⟩

theorem ofMillis?_eq_some_iff {n : Int} {t : Instant} :
    ofMillis? n = some t ↔ t.nanos = n * 1000000 := ofNanos?_eq_some_iff

theorem sub?_eq_some_iff {s t : Instant} {d : Duration} :
    t.sub? d = some s ↔ s.nanos = t.nanos - d.nanos := ofNanos?_eq_some_iff

theorem le_refl (t : Instant) : t ≤ t := Int.le_refl _

theorem le_trans {s t u : Instant} (hst : s ≤ t) (htu : t ≤ u) : s ≤ u := Int.le_trans hst htu

theorem not_le {s t : Instant} : ¬ s ≤ t ↔ t < s := Int.not_le

end Instant

end SpikeWatch
