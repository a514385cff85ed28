import SpikeWatch.Proofs.Event.Payload
import SpikeWatch.Proofs.Json.Range

/-!
# Events field by field

An event has some twenty fields of four kinds, and a payload fills each of them in or leaves it out.
All that can be said about one field is said here once, for any of them.

* `Event.contents` are the fields of an event by the names that payloads know them by, with what
  they hold.  There is one for each field of the type and of the context (`Event.kinds_contents`),
  and type, timestamp and contents make the event (`Event.eq_of_contents`).
* `Gives` says what a field holds if its member has a given value, or if there is none.
* `Event.decode_exact` is decoding: it fails just if a member is not of the kind of its field, and
  what comes of it holds in each field what the member gives.
* `fits_count_iff` tells which numbers count, by how they are written.
-/

set_option autoImplicit false

namespace SpikeWatch

open Json (Value Numeral)
open Payload

/-! ## What fields hold -/

/-- What a field holds. -/
inductive FieldValue where
  | text (s : String)
  | texts (items : List String)
  | single (x : Single)
  | count (n : UInt32)
  deriving DecidableEq

/-- The kind of what a field holds. -/
def FieldValue.kind : FieldValue → FieldKind
  | text _ => .text
  | texts _ => .texts
  | single _ => .single
  | count _ => .count

/-- What a field holds that is left out. -/
def FieldKind.empty : FieldKind → FieldValue
  | text => .text ""
  | texts => .texts []
  | single => .single (.zero false)
  | count => .count 0

/-- What a field holds if its member has a value, or if there is none. -/
inductive Gives : Option Value → FieldValue → Prop
  | absent (kind : FieldKind) : Gives none kind.empty
  | text (s : String) : Gives (some (.text s)) (.text s)
  | texts (items : List String) : Gives (some (.array (items.map .text))) (.texts items)
  /-- A whole number is rounded once. -/
  | whole (n : Int) : Gives (some (.number (.whole n))) (.single (.ofInt n))
  | real (x : Double) : Gives (some (.number (.real x))) (.single (x.convert .single))
  | count (n : UInt32) : Gives (some (.number (.whole n.toNat))) (.count n)

/-- The fields of a context but for its timestamp. -/
def Context.contents (c : Context) : List (String × FieldValue) :=
  [("app_version", .text c.appVersion), ("build", .text c.build), ("country", .text c.country),
    ("cpu", .text c.cpu), ("device_id", .text c.deviceId), ("device_model", .text c.deviceModel),
    ("gpu", .text c.gpu), ("level_id", .text c.levelId), ("net_type", .text c.netType),
    ("os_version", .text c.osVersion), ("platform", .text c.platform),
    ("ram_class", .text c.ramClass), ("scene", .text c.scene), ("session_id", .text c.sessionId),
    ("unity_version", .text c.unityVersion), ("user_id", .text c.userId)]

/-- The fields of a type, under the names that payloads know them by. -/
def Details.contents : Details → List (String × FieldValue)
  | perfSample d =>
    [("fps", .single d.fps), ("frame_time_ms", .single d.frameTimeMs),
      ("gc_alloc_kb", .single d.gcAllocKb), ("main_thread_ms", .single d.mainThreadMs),
      ("mem_mb", .single d.memMb)]
  | jank d =>
    [("duration_ms", .single d.durationMs), ("max_frame_ms", .single d.maxFrameMs),
      ("recent_events", .texts d.recentEvents), ("recent_gc_alloc_kb", .single d.recentGcAllocKb),
      ("recent_gc_count", .count d.recentGcCount)]
  | startup d =>
    [("phase1_ms", .single d.phase1Ms), ("phase2_ms", .single d.phase2Ms),
      ("tti_ms", .single d.ttiMs)]
  | sceneLoad d =>
    [("activate_ms", .single d.activateMs), ("load_ms", .single d.loadMs),
      ("scene_name", .text d.sceneName)]
  | exception d =>
    [("count", .count d.count), ("fingerprint", .text d.fingerprint), ("message", .text d.message),
      ("stack", .text d.stack)]
  | crash d =>
    [("breadcrumbs", .texts d.breadcrumbs), ("crash_type", .text d.crashType),
      ("fingerprint", .text d.fingerprint), ("stack", .text d.stack)]

/-- The fields of an event but for its timestamp, those of its type first. -/
def Event.contents (e : Event) : List (String × FieldValue) :=
  e.details.contents ++ e.context.contents

/-- An event has the fields of its type and of the context, each of its kind. -/
theorem Event.kinds_contents (e : Event) :
    e.contents.map (fun c => (c.1, c.2.kind)) = e.type.fields ++ Context.fields := by
  obtain ⟨context, details⟩ := e
  cases details <;> rfl

/-- A context is its timestamp and its contents. -/
theorem Context.eq_of_contents {c c' : Context} (htime : c.timestamp = c'.timestamp)
    (h : c.contents = c'.contents) : c = c' := by
  cases c
  cases c'
  simp_all [contents]

/-- Details are their type and their contents. -/
theorem Details.eq_of_contents {d d' : Details} (htype : d.type = d'.type)
    (h : d.contents = d'.contents) : d = d' := by
  -- of events of two types there is nothing to show
  cases d <;> cases d' <;> cases htype
  all_goals
    rename_i d d'
    cases d
    cases d'
    simp_all [contents]

/-- Nothing but type, timestamp and contents tells events apart. -/
theorem Event.eq_of_contents {e e' : Event} (htype : e.type = e'.type)
    (htime : e.context.timestamp = e'.context.timestamp) (h : e.contents = e'.contents) :
    e = e' := by
  obtain ⟨context, details⟩ := e
  obtain ⟨context', details'⟩ := e'
  have hlength : details.contents.length = details'.contents.length := by
    have hboth := congrArg List.length h
    simpa [contents, Context.contents] using hboth
  obtain ⟨hdetails, hcontext⟩ := List.append_inj h hlength
  rw [Event.mk.injEq]
  exact ⟨Context.eq_of_contents htime hcontext, Details.eq_of_contents htype hdetails⟩

/-! ## What payloads give -/

/-- What a field holds whose member has a value, or is not there. -/
def FieldKind.content (v? : Option Value) : FieldKind → FieldValue
  | text => .text (v?.elim "" asText)
  | texts => .texts (v?.elim [] asTexts)
  | single => .single (v?.elim (.zero false) asSingle)
  | count => .count (v?.elim 0 asCount)

theorem FieldKind.kind_content (v? : Option Value) (kind : FieldKind) :
    (kind.content v?).kind = kind := by
  cases kind <;> rfl

/-- What a field holds is what its member gives if the member fits. -/
theorem gives_iff {v? : Option Value} {content : FieldValue} :
    Gives v? content ↔
      (∀ v, v? = some v → content.kind.Fits v) ∧ content = content.kind.content v? := by
  constructor
  · intro h
    cases h with
    | absent kind => exact ⟨nofun, by cases kind <;> rfl⟩
    | text s => exact ⟨fun _ hv => Option.some.inj hv ▸ .text s, rfl⟩
    | texts items =>
      exact ⟨fun _ hv => Option.some.inj hv ▸ .texts items,
        congrArg FieldValue.texts (asTexts_map_text items).symm⟩
    | whole n => exact ⟨fun _ hv => Option.some.inj hv ▸ .single _, rfl⟩
    | real x => exact ⟨fun _ hv => Option.some.inj hv ▸ .single _, rfl⟩
    | count n =>
      refine ⟨fun _ hv => Option.some.inj hv ▸ .count n, ?_⟩
      simp [FieldValue.kind, FieldKind.content, asCount]
  · rintro ⟨hfits, hcontent⟩
    rw [hcontent]
    cases v? with
    | none =>
      have habsent := Gives.absent content.kind
      cases hkind : content.kind <;> rw [hkind] at habsent <;> exact habsent
    | some v =>
      have hfits := hfits v rfl
      -- What the field holds does not matter any more, only its kind does.
      generalize content.kind = kind at hfits
      cases hfits with
      | text s => exact .text s
      | texts items =>
        rw [FieldKind.content, Option.elim, asTexts_map_text]
        exact .texts items
      | single n =>
        cases n with
        | whole n => exact .whole n
        | real x => exact .real x
      | count n =>
        simpa [FieldKind.content, asCount] using Gives.count n

/-- The event of a type that a payload stands for, as far as that does not depend on the present. -/
theorem Event.contents_ofPayload (members : Members) (type : EventType) :
    (⟨Context.ofPayload members, Details.ofPayload members type⟩ : Event).contents =
      (type.fields ++ Context.fields).map fun f => (f.1, f.2.content (members.lookup f.1)) := by
  cases type <;> rfl

theorem Event.type_ofPayload (members : Members) (type : EventType) :
    (⟨Context.ofPayload members, Details.ofPayload members type⟩ : Event).type = type := by
  cases type <;> rfl

/-- What a payload stands for, field by field. -/
theorem Event.eq_ofPayload_iff {members : Members} {type : EventType} {e : Event} :
    e = ⟨Context.ofPayload members, Details.ofPayload members type⟩ ↔
      e.type = type ∧ e.context.timestamp = .epoch ∧
        ∀ c ∈ e.contents, c.2 = c.2.kind.content (members.lookup c.1) := by
  constructor
  · rintro rfl
    refine ⟨type_ofPayload members type, rfl, ?_⟩
    rw [contents_ofPayload, List.forall_mem_map]
    intro f _
    dsimp only
    rw [FieldKind.kind_content]
  · rintro ⟨rfl, htime, hcontents⟩
    refine eq_of_contents (type_ofPayload members e.type).symm htime ?_
    rw [contents_ofPayload, ← kinds_contents, List.map_map]
    conv_lhs => rw [← List.map_id e.contents]
    exact List.map_congr_left fun c hc => Prod.ext rfl (hcontents c hc)

/-! ## Numbers that count -/

/-- A number counts just if it is whole and has room in thirty-two bits. -/
theorem fits_count_number_iff {n : Numeral} :
    FieldKind.Fits .count (.number n) ↔ ∃ m : Nat, m < UInt32.size ∧ n = .whole m := by
  constructor
  · intro h
    cases h with
    | count m => exact ⟨m.toNat, m.toNat_lt, rfl⟩
  · rintro ⟨m, hm, rfl⟩
    have hround : (UInt32.ofNat m).toNat = m := UInt32.toNat_ofNat_of_lt hm
    rw [← hround]
    exact .count _

open Json in
/-- A number counts just if it is written with digits alone and makes a number of thirty-two
bits. -/
theorem fits_count_iff {t : Grammar.NumberText} {n : Numeral} (h : t.numeral? = some n) :
    FieldKind.Fits .count (.number n) ↔
      t.negative = false ∧ t.isInteger = true ∧ t.whole.toNat < UInt32.size := by
  rw [fits_count_number_iff]
  rw [Grammar.NumberText.numeral?] at h
  split at h
  · next hread =>
    obtain ⟨hinteger, hdropped⟩ := hread
    have hvalue := t.whole.value_eq_toNat maxSignificand (by omega)
    rw [hvalue] at h
    obtain rfl := Option.some.inj h
    cases hnegative : t.negative with
    | false => simp [ofInteger, hinteger]
    | true =>
      -- minus zero is not whole, and what is below zero is no count
      refine iff_of_false ?_ fun hplain => Bool.noConfusion hplain.1
      rintro ⟨m, -, hm⟩
      rw [ofInteger, if_neg (by decide)] at hm
      split at hm
      · cases hm
      · next hrange =>
        have hneg : -(t.whole.toNat : Int) = m := Numeral.whole.inj hm
        omega
  · next hread =>
    obtain ⟨x, -, rfl⟩ := Option.map_eq_some_iff.1 h
    refine iff_of_false ?_ ?_
    · rintro ⟨m, -, hm⟩
      cases hm
    · rintro ⟨-, hinteger, hsmall⟩
      -- digits are left over only of a number that does not fit sixty-four bits
      have htaken : t.whole.taken maxSignificand 0 < t.whole.chars.length := by
        by_contra hall
        exact hread ⟨hinteger, by omega⟩
      have hlong := t.whole.lt_toNat maxSignificand htaken
      rw [maxSignificand] at hlong
      have hsize : UInt32.size ≤ UInt64.size := by decide
      omega

/-! ## Decoding -/

/-- `null` is of no kind. -/
theorem FieldKind.not_fits_null (kind : FieldKind) : ¬ kind.Fits .null := nofun

/-- Decoding succeeds just if every member with a field fits this field. -/
theorem Event.exists_decode_iff {type : EventType} {raw : Value} :
    (∃ e, Event.decode type raw = .ok e) ↔ ∃ members, raw = .object members ∧
      ∀ f ∈ type.fields ++ Context.fields, ∀ v, members.lookup f.1 = some v → f.2.Fits v := by
  simp only [decode_eq_ok_iff]
  constructor
  · rintro ⟨e, members, hraw, hholds, -⟩
    exact ⟨members, hraw, hholds⟩
  · rintro ⟨members, hraw, hholds⟩
    exact ⟨_, members, hraw, hholds, rfl⟩

/-- What it gives is known field by field. -/
theorem Event.decode_eq_ok_iff_gives {type : EventType} {raw : Value} {e : Event} :
    Event.decode type raw = .ok e ↔ ∃ members, raw = .object members ∧
      e.type = type ∧ e.context.timestamp = .epoch ∧
        ∀ c ∈ e.contents, Gives (members.lookup c.1) c.2 := by
  rw [decode_eq_ok_iff]
  refine exists_congr fun members => and_congr_right fun _ => ?_
  simp only [gives_iff, forall₂_and]
  rw [eq_ofPayload_iff]
  constructor
  · rintro ⟨hholds, rfl, htime, hcontents⟩
    rw [← kinds_contents, List.forall_mem_map] at hholds
    exact ⟨rfl, htime, hholds, hcontents⟩
  · rintro ⟨rfl, htime, hholds, hcontents⟩
    rw [← kinds_contents, List.forall_mem_map]
    exact ⟨hholds, rfl, htime, hcontents⟩

open Json in
/-- **Decoding is exact.**  A payload is decoded just if it is an object in which each member that
a field of the type or of the context goes by is of the kind of the field.  `null` is of no kind,
and of the numbers only those count that are written with digits alone and make thirty-two bits.
What comes of a payload is the one event of that type, at the beginning of 1970, that holds in each
field what its member gives, or what is empty if there is no such member. -/
theorem Event.decode_exact (type : EventType) (raw : Value) :
    ((∃ e, Event.decode type raw = .ok e) ↔ ∃ members, raw = .object members ∧
      ∀ f ∈ type.fields ++ Context.fields, ∀ v, members.lookup f.1 = some v → f.2.Fits v) ∧
    (∀ kind, ¬ FieldKind.Fits kind .null) ∧
    (∀ (t : Grammar.NumberText) n, t.numeral? = some n →
      (FieldKind.Fits .count (.number n) ↔
        t.negative = false ∧ t.isInteger = true ∧ t.whole.toNat < UInt32.size)) ∧
    ∀ e, Event.decode type raw = .ok e ↔ ∃ members, raw = .object members ∧
      e.type = type ∧ e.context.timestamp = .epoch ∧
        ∀ c ∈ e.contents, Gives (members.lookup c.1) c.2 :=
  ⟨exists_decode_iff, FieldKind.not_fits_null, fun _ _ h => fits_count_iff h,
    fun _ => decode_eq_ok_iff_gives⟩

end SpikeWatch
