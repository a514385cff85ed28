import SpikeWatch.Event.Decode
import Mathlib.Data.List.Basic

/-!
# What a payload says

Decoding reads the fields of a payload one after the other, and stops at the first whose value is of
the wrong kind.  This file says the same without an order.

The values of a payload are also given without reading: `asText` and its companions turn any value
into one of a kind, and only mean something where the value fits.  A field then holds what its
member is turned into, or its default.

* `EventType.fields` and `Context.fields` are the fields that a payload may have, each with the kind
  of its values, and `FieldKind.Fits` says which values are of a kind.
* `Details.ofPayload` and `Context.ofPayload` are what a payload stands for: each field holds what
  its member says, or nothing if there is no such member.
* `Event.decode_eq_ok_iff` ties the two to decoding, which does not look at anything else.
-/

set_option autoImplicit false

namespace SpikeWatch

open Json (Value Numeral)

/-! ## Kinds of fields -/

/-- What the value of a field has to be. -/
inductive FieldKind where
  | text
  | texts
  /-- A number of thirty-two bits, rounded if need be. -/
  | single
  /-- A whole number of thirty-two bits without a sign. -/
  | count
  deriving DecidableEq

/-- Which values are of a kind. -/
inductive FieldKind.Fits : FieldKind → Value → Prop
  | text (s : String) : Fits .text (.text s)
  | texts (items : List String) : Fits .texts (.array (items.map .text))
  | single (n : Numeral) : Fits .single (.number n)
  | count (n : UInt32) : Fits .count (.number (.whole n.toNat))

/-- The fields that only events of one type have. -/
def EventType.fields : EventType → List (String × FieldKind)
  | perfSample =>
    [("fps", .single), ("frame_time_ms", .single), ("gc_alloc_kb", .single),
      ("main_thread_ms", .single), ("mem_mb", .single)]
  | jank =>
    [("duration_ms", .single), ("max_frame_ms", .single), ("recent_events", .texts),
      ("recent_gc_alloc_kb", .single), ("recent_gc_count", .count)]
  | startup => [("phase1_ms", .single), ("phase2_ms", .single), ("tti_ms", .single)]
  | sceneLoad => [("activate_ms", .single), ("load_ms", .single), ("scene_name", .text)]
  | exception => [("count", .count), ("fingerprint", .text), ("message", .text), ("stack", .text)]
  | crash =>
    [("breadcrumbs", .texts), ("crash_type", .text), ("fingerprint", .text), ("stack", .text)]

/-- The fields that all events have. -/
def Context.fields : List (String × FieldKind) :=
  [("app_version", .text), ("build", .text), ("country", .text), ("cpu", .text),
    ("device_id", .text), ("device_model", .text), ("gpu", .text), ("level_id", .text),
    ("net_type", .text), ("os_version", .text), ("platform", .text), ("ram_class", .text),
    ("scene", .text), ("session_id", .text), ("unity_version", .text), ("user_id", .text)]

namespace Payload

/-- The member of a field is of its kind, if there is one. -/
def Holds (members : Members) (field : String × FieldKind) : Prop :=
  ∀ v, members.lookup field.1 = some v → field.2.Fits v

/-! ## What members say -/

/-- The text in a value; nothing of interest if there is none.  The same goes for the others. -/
def asText : Value → String
  | .text s => s
  | _ => ""

/-- The texts in a list. -/
def asTexts : Value → List String
  | .array items => items.map asText
  | _ => []

/-- The number in a value, as a single one. -/
def asSingle : Value → Single
  | .number (.whole n) => .ofInt n
  | .number (.real x) => x.convert .single
  | _ => .zero false

/-- The count in a value. -/
def asCount : Value → UInt32
  | .number (.whole n) => .ofNat n.toNat
  | _ => 0

variable (members : Members)

/-- What a field for a text holds, by what its member is turned into. -/
def textOf (name : String) : String := (members.lookup name).elim "" asText

/-- What a field for texts holds. -/
def textsOf (name : String) : List String := (members.lookup name).elim [] asTexts

/-- What a field for a number holds. -/
def singleOf (name : String) : Single := (members.lookup name).elim (.zero false) asSingle

/-- What a field for a count holds. -/
def countOf (name : String) : UInt32 := (members.lookup name).elim 0 asCount

end Payload

open Payload

/-- The context that a payload stands for, but for the timestamp. -/
def Context.ofPayload (members : Members) : Context where
  appVersion := textOf members "app_version"
  platform := textOf members "platform"
  deviceModel := textOf members "device_model"
  osVersion := textOf members "os_version"
  sessionId := textOf members "session_id"
  deviceId := textOf members "device_id"
  scene := textOf members "scene"
  build := textOf members "build"
  unityVersion := textOf members "unity_version"
  cpu := textOf members "cpu"
  gpu := textOf members "gpu"
  ramClass := textOf members "ram_class"
  userId := textOf members "user_id"
  levelId := textOf members "level_id"
  netType := textOf members "net_type"
  country := textOf members "country"

/-- The details that a payload of a type stands for. -/
def Details.ofPayload (members : Members) : EventType → Details
  | .perfSample => .perfSample {
      fps := singleOf members "fps"
      frameTimeMs := singleOf members "frame_time_ms"
      mainThreadMs := singleOf members "main_thread_ms"
      gcAllocKb := singleOf members "gc_alloc_kb"
      memMb := singleOf members "mem_mb" }
  | .jank => .jank {
      durationMs := singleOf members "duration_ms"
      maxFrameMs := singleOf members "max_frame_ms"
      recentGcCount := countOf members "recent_gc_count"
      recentGcAllocKb := singleOf members "recent_gc_alloc_kb"
      recentEvents := textsOf members "recent_events" }
  | .startup => .startup {
      phase1Ms := singleOf members "phase1_ms"
      phase2Ms := singleOf members "phase2_ms"
      ttiMs := singleOf members "tti_ms" }
  | .sceneLoad => .sceneLoad {
      sceneName := textOf members "scene_name"
      loadMs := singleOf members "load_ms"
      activateMs := singleOf members "activate_ms" }
  | .exception => .exception {
      fingerprint := textOf members "fingerprint"
      message := textOf members "message"
      stack := textOf members "stack"
      count := countOf members "count" }
  | .crash => .crash {
      crashType := textOf members "crash_type"
      fingerprint := textOf members "fingerprint"
      stack := textOf members "stack"
      breadcrumbs := textsOf members "breadcrumbs" }

/-! ## Reading in sequence -/

namespace Payload

theorem pure_eq_ok_iff {ε α : Type} {a b : α} : (pure a : Except ε α) = .ok b ↔ b = a := by
  simp [pure, Except.pure, eq_comm]

/-- Two readers one after the other succeed just if both do. -/
theorem bind_eq_ok_iff {ε α β : Type} {x : Except ε α} {f : α → Except ε β} {b : β} :
    (x >>= f) = .ok b ↔ ∃ a, x = .ok a ∧ f a = .ok b := by
  cases x <;> simp [bind, Except.bind]

theorem map_eq_ok_iff {ε α β : Type} {x : Except ε α} {f : α → β} {b : β} :
    x.map f = .ok b ↔ ∃ a, x = .ok a ∧ b = f a := by
  cases x <;> simp [Except.map, eq_comm]

/-! ## Reading one field -/

/-- Reading a value of one kind succeeds just if it fits, and gives what the value is turned
into. -/
theorem readText_eq_ok_iff {v : Value} {s : String} :
    readText v = .ok s ↔ FieldKind.Fits .text v ∧ s = asText v := by
  constructor
  · intro h
    cases v <;> cases h
    exact ⟨.text _, rfl⟩
  · rintro ⟨⟨s⟩, rfl⟩
    rfl

/-- A list of texts is read just if it is one. -/
theorem mapM_readText_eq_ok_iff {items : List Value} {l : List String} :
    items.mapM readText = .ok l ↔ items = l.map .text := by
  induction items generalizing l with
  | nil => cases l <;> simp [pure_eq_ok_iff]
  | cons v items ih =>
    simp only [List.mapM_cons, bind_eq_ok_iff, pure_eq_ok_iff, readText_eq_ok_iff, ih]
    constructor
    · rintro ⟨_, ⟨⟨s⟩, rfl⟩, rest, rfl, rfl⟩
      rfl
    · intro h
      cases l with
      | nil => cases h
      | cons s l =>
        cases h
        exact ⟨s, ⟨.text s, rfl⟩, l, rfl, rfl⟩

theorem asTexts_map_text (items : List String) : asTexts (.array (items.map .text)) = items := by
  rw [asTexts, List.map_map]
  exact List.map_id items

theorem readTexts_eq_ok_iff {v : Value} {l : List String} :
    readTexts v = .ok l ↔ FieldKind.Fits .texts v ∧ l = asTexts v := by
  constructor
  · intro h
    rw [readTexts.eq_def] at h
    split at h
    · obtain rfl := mapM_readText_eq_ok_iff.1 h
      exact ⟨.texts l, (asTexts_map_text l).symm⟩
    · cases h
  · rintro ⟨⟨items⟩, rfl⟩
    rw [asTexts_map_text]
    exact mapM_readText_eq_ok_iff.2 rfl

theorem readSingle_eq_ok_iff {v : Value} {x : Single} :
    readSingle v = .ok x ↔ FieldKind.Fits .single v ∧ x = asSingle v := by
  constructor
  · intro h
    rw [readSingle.eq_def] at h
    split at h
    · cases h
      exact ⟨.single _, rfl⟩
    · cases h
      exact ⟨.single _, rfl⟩
    · cases h
  · rintro ⟨hfits, rfl⟩
    cases hfits with
    | single n => cases n <;> rfl

/-- Counts are the only ones with a bound, which is part of fitting. -/
theorem readCount_eq_ok_iff {v : Value} {n : UInt32} :
    readCount v = .ok n ↔ FieldKind.Fits .count v ∧ n = asCount v := by
  constructor
  · intro h
    rw [readCount.eq_def] at h
    split at h
    · next m =>
      split at h
      · next hrange =>
        cases h
        have hround : (UInt32.ofNat m.toNat).toNat = m.toNat :=
          UInt32.toNat_ofNat_of_lt (by omega)
        have hm : m = ((UInt32.ofNat m.toNat).toNat : Int) := by omega
        refine ⟨?_, rfl⟩
        rw [hm]
        exact .count _
      · cases h
    · cases h
  · rintro ⟨hfits, rfl⟩
    cases hfits with
    | count m =>
      have hm : m.toNat < UInt32.size := m.toNat_lt
      rw [readCount, if_pos (by omega)]
      rfl

variable {members : Members} {name : String}

/-- **A field**, of any kind: it is read just if its member fits or is missing, and gives what this
member says, or the default. -/
theorem field_eq_ok_iff {α : Type} {read : Value → Except Mismatch α} {kind : FieldKind}
    {value : Value → α} (hread : ∀ {v x}, read v = .ok x ↔ kind.Fits v ∧ x = value v)
    {default x : α} : field members name read default = .ok x ↔
      Holds members (name, kind) ∧ x = (members.lookup name).elim default value := by
  rw [field, Holds]
  cases members.lookup name with
  | none => simp [eq_comm]
  | some v => simp [hread]

theorem text_eq_ok_iff {s : String} :
    text members name = .ok s ↔ Holds members (name, .text) ∧ s = textOf members name :=
  field_eq_ok_iff readText_eq_ok_iff

theorem texts_eq_ok_iff {l : List String} :
    texts members name = .ok l ↔ Holds members (name, .texts) ∧ l = textsOf members name :=
  field_eq_ok_iff readTexts_eq_ok_iff

theorem single_eq_ok_iff {x : Single} :
    single members name = .ok x ↔ Holds members (name, .single) ∧ x = singleOf members name :=
  field_eq_ok_iff readSingle_eq_ok_iff

theorem count_eq_ok_iff {n : UInt32} :
    count members name = .ok n ↔ Holds members (name, .count) ∧ n = countOf members name :=
  field_eq_ok_iff readCount_eq_ok_iff

end Payload

/-! ## Decoding -/

/-- All fields of the context, without their order. -/
theorem Context.ofMembers_eq_ok_iff {members : Members} {c : Context} :
    Context.ofMembers members = .ok c ↔
      (∀ f ∈ Context.fields, Holds members f) ∧ c = Context.ofPayload members := by
  simp only [Context.ofMembers, bind_eq_ok_iff, pure_eq_ok_iff, text_eq_ok_iff, and_assoc,
    exists_and_left, exists_eq_left, fields, List.forall_mem_cons, List.not_mem_nil, false_implies,
    implies_true, true_and, ofPayload]

/-- All fields of a type, without their order. -/
theorem Details.ofMembers_eq_ok_iff {members : Members} {type : EventType} {d : Details} :
    Details.ofMembers type members = .ok d ↔
      (∀ f ∈ type.fields, Holds members f) ∧ d = Details.ofPayload members type := by
  cases type <;>
    simp only [Details.ofMembers, PerfSample.ofMembers, Jank.ofMembers, Startup.ofMembers,
      SceneLoad.ofMembers, ExceptionReport.ofMembers, Crash.ofMembers, map_eq_ok_iff,
      bind_eq_ok_iff, pure_eq_ok_iff, text_eq_ok_iff, texts_eq_ok_iff, single_eq_ok_iff,
      count_eq_ok_iff, and_assoc, exists_and_left, exists_eq_left, EventType.fields,
      List.forall_mem_cons, List.not_mem_nil, false_implies, implies_true, true_and, ofPayload]

/-- **What decoding accepts, and what it makes of it.** -/
theorem Event.decode_eq_ok_iff {type : EventType} {raw : Value} {e : Event} :
    Event.decode type raw = .ok e ↔ ∃ members, raw = .object members ∧
      (∀ f ∈ type.fields ++ Context.fields, Holds members f) ∧
      e = ⟨Context.ofPayload members, Details.ofPayload members type⟩ := by
  cases raw with
  | object members =>
    simp only [decode, bind_eq_ok_iff, pure_eq_ok_iff, Details.ofMembers_eq_ok_iff,
      Context.ofMembers_eq_ok_iff, and_assoc, exists_and_left, exists_eq_left,
      List.forall_mem_append, Value.object.injEq, exists_eq_left']
  | _ => simp [decode]

end SpikeWatch
