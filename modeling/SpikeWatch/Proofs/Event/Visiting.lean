import SpikeWatch.Proofs.Event.Fields
import SpikeWatch.Proofs.Json.Sorted

/-!
# Payloads member by member

Decoding looks up one field after the other.  A reader that is handed the members of a payload has
to take them in the order in which they come: fields of the type are read at once, all other members
are put aside, and the context is taken from those in a second round.  Both come to the same, errors
included, since the fields stand in the order of their names as well.

* `Payload.mismatch?` is the first mismatch in the order of the fields, and `Event.decode_object`
  says that it is the one that decoding reports, if there is one.
* `Event.visit` is the reader that goes through the members, and `Event.visit_eq_decode` says that
  it decodes an object with sorted members, so whatever was read from a text.
* `Event.decode_alike`: members that no field goes by have no say in what comes of a payload, be it
  an event or a mismatch.
-/

set_option autoImplicit false

namespace SpikeWatch

open Json (Value Sorted firstShared)
open Payload

/-! ## Mismatches -/

namespace Payload

/-- A result, unless there is something wrong. -/
def barring {α : Type} (mismatch? : Option Mismatch) (result : α) : Except Mismatch α :=
  match mismatch? with
  | none => .ok result
  | some m => .error m

/-- What was wrong, if anything was. -/
def complaint? {α : Type} : Except Mismatch α → Option Mismatch
  | .ok _ => none
  | .error m => some m

section Barring

variable {α β : Type} {m? : Option Mismatch} {a : α}

/-- Two readers one after the other complain about what the first of them finds wrong, or else the
second. -/
theorem barring_bind {n? : α → Option Mismatch} {f : α → β} :
    (barring m? a >>= fun x => barring (n? x) (f x)) = barring (m?.or (n? a)) (f a) := by
  cases m? <;> rfl

theorem barring_map {f : α → β} : (barring m? a).map f = barring m? (f a) := by
  cases m? <;> rfl

/-- What cannot fail has no complaint. -/
theorem pure_eq_barring : (pure a : Except Mismatch α) = barring none a := rfl

/-- A reader that can give one value only is that value, barring its complaint. -/
theorem eq_barring {x : Except Mismatch α} (h : ∀ b, x = .ok b → b = a) :
    x = barring (complaint? x) a := by
  cases x with
  | ok b => rw [h b rfl]; rfl
  | error m => rfl

end Barring

end Payload

/-- What is wrong with a value for a field, if anything is. -/
def FieldKind.mismatch? : FieldKind → Value → Option Mismatch
  | text, v => complaint? (readText v)
  | texts, v => complaint? (readTexts v)
  | single, v => complaint? (readSingle v)
  | count, v => complaint? (readCount v)

namespace Payload

/-- What is wrong with a payload: the first mismatch in the order of the fields. -/
def mismatch? (fields : List (String × FieldKind)) (members : Members) : Option Mismatch :=
  firstShared FieldKind.mismatch? fields members

/-- The first mismatch is that of the first field, or else one further down. -/
theorem mismatch?_cons (f : String × FieldKind) (fields : List (String × FieldKind))
    (members : Members) : mismatch? (f :: fields) members =
      ((members.lookup f.1).bind f.2.mismatch?).or (mismatch? fields members) :=
  Json.firstShared_cons

theorem mismatch?_nil (members : Members) : mismatch? [] members = none := rfl

/-- Records one after the other are looked at in this order. -/
theorem mismatch?_append (fields more : List (String × FieldKind)) (members : Members) :
    mismatch? (fields ++ more) members = (mismatch? fields members).or (mismatch? more members) :=
  List.findSome?_append

section Fields

variable (members : Members) (name : String)

/-- **A field is read barring a mismatch**: of whatever kind it is, its value is known without the
reader, and the reader only says whether it may be had. -/
theorem field_eq_barring {α : Type} {read : Value → Except Mismatch α} {value : Value → α}
    (hread : ∀ v x, read v = .ok x → x = value v) (default : α) :
    field members name read default =
      barring ((members.lookup name).bind fun v => complaint? (read v))
        ((members.lookup name).elim default value) := by
  rw [field]
  cases members.lookup name with
  | none => rfl
  | some v => exact eq_barring (hread v)

theorem text_eq_barring : text members name =
    barring ((members.lookup name).bind FieldKind.text.mismatch?) (textOf members name) :=
  field_eq_barring members name (fun _ _ h => (readText_eq_ok_iff.1 h).2) ""

theorem texts_eq_barring : texts members name =
    barring ((members.lookup name).bind FieldKind.texts.mismatch?) (textsOf members name) :=
  field_eq_barring members name (fun _ _ h => (readTexts_eq_ok_iff.1 h).2) []

theorem single_eq_barring : single members name =
    barring ((members.lookup name).bind FieldKind.single.mismatch?) (singleOf members name) :=
  field_eq_barring members name (fun _ _ h => (readSingle_eq_ok_iff.1 h).2) (.zero false)

theorem count_eq_barring : count members name =
    barring ((members.lookup name).bind FieldKind.count.mismatch?) (countOf members name) :=
  field_eq_barring members name (fun _ _ h => (readCount_eq_ok_iff.1 h).2) 0

end Fields

end Payload

/-! ## Decoding in the order of the fields -/

/-- So the context is read barring the first mismatch of its fields. -/
theorem Context.ofMembers_eq (members : Members) :
    Context.ofMembers members =
      barring (mismatch? Context.fields members) (Context.ofPayload members) := by
  simp only [Context.ofMembers, text_eq_barring, pure_eq_barring, barring_bind, fields,
    mismatch?_cons, mismatch?_nil]
  rfl

/-- The details of every type are read barring the first mismatch of their fields. -/
theorem Details.ofMembers_eq (members : Members) (type : EventType) :
    Details.ofMembers type members =
      barring (mismatch? type.fields members) (Details.ofPayload members type) := by
  cases type <;>
    simp only [Details.ofMembers, PerfSample.ofMembers, Jank.ofMembers, Startup.ofMembers,
      SceneLoad.ofMembers, ExceptionReport.ofMembers, Crash.ofMembers, text_eq_barring,
      texts_eq_barring, single_eq_barring, count_eq_barring, pure_eq_barring, barring_bind,
      barring_map, EventType.fields, mismatch?_cons, mismatch?_nil] <;>
    rfl

/-- **What decoding reports** is the first mismatch in the order of the fields, those of the type
before those of the context. -/
theorem Event.decode_object (type : EventType) (members : Members) :
    Event.decode type (.object members) =
      barring (mismatch? (type.fields ++ Context.fields) members)
        ⟨Context.ofPayload members, Details.ofPayload members type⟩ := by
  rw [mismatch?_append]
  simp only [decode, Context.ofMembers_eq, Details.ofMembers_eq, pure_eq_barring, barring_bind,
    Option.or_none]

/-! ## Members that no field goes by -/

variable {type : EventType} {members members' : Members}

/-- Which mismatch comes first is a matter of the members that the fields go by. -/
theorem Payload.mismatch?_congr {fields : List (String × FieldKind)}
    (h : ∀ f ∈ fields, members.lookup f.1 = members'.lookup f.1) :
    mismatch? fields members = mismatch? fields members' := by
  induction fields with
  | nil => rfl
  | cons f fields ih =>
    obtain ⟨hf, hfields⟩ := List.forall_mem_cons.1 h
    rw [mismatch?_cons, mismatch?_cons, hf, ih hfields]

/-- What a payload stands for is a matter of the members that the fields go by. -/
theorem Event.ofPayload_congr
    (h : ∀ f ∈ type.fields ++ Context.fields, members.lookup f.1 = members'.lookup f.1) :
    (⟨Context.ofPayload members, Details.ofPayload members type⟩ : Event) =
      ⟨Context.ofPayload members', Details.ofPayload members' type⟩ := by
  refine eq_of_contents ((type_ofPayload members type).trans (type_ofPayload members' type).symm)
    rfl ?_
  rw [contents_ofPayload, contents_ofPayload]
  exact List.map_congr_left fun f hf => by rw [h f hf]

/-- Decoding looks at no other members. -/
theorem Event.decode_congr
    (h : ∀ f ∈ type.fields ++ Context.fields, members.lookup f.1 = members'.lookup f.1) :
    Event.decode type (.object members) = Event.decode type (.object members') := by
  rw [decode_object, decode_object, mismatch?_congr h, ofPayload_congr h]

/-! ## Visiting the members in their order -/

/-- Reads the value of a field. -/
def FieldKind.read : FieldKind → Value → Except Mismatch FieldValue
  | text, v => (readText v).map .text
  | texts, v => (readTexts v).map .texts
  | single, v => (readSingle v).map .single
  | count, v => (readCount v).map .count

/-- A reader of any kind, for the reader that goes by members. -/
theorem FieldKind.read_eq (kind : FieldKind) (v : Value) :
    kind.read v = barring (kind.mismatch? v) (kind.content (some v)) := by
  cases kind with
  | text => rw [read, eq_barring fun _ h => (readText_eq_ok_iff.1 h).2]; exact barring_map
  | texts => rw [read, eq_barring fun _ h => (readTexts_eq_ok_iff.1 h).2]; exact barring_map
  | single => rw [read, eq_barring fun _ h => (readSingle_eq_ok_iff.1 h).2]; exact barring_map
  | count => rw [read, eq_barring fun _ h => (readCount_eq_ok_iff.1 h).2]; exact barring_map

namespace Payload

/-- Contents that were found for fields, by their names. -/
abbrev Contents := List (String × FieldValue)

/-- Goes through members: what a field goes by is read, and the others are put aside. -/
def visit (fields : List (String × FieldKind)) : Members → Except Mismatch (Contents × Members)
  | [] => .ok ([], [])
  | (name, value) :: rest =>
    match fields.lookup name with
    | some kind => do
      let content ← kind.read value
      let (found, others) ← visit fields rest
      return ((name, content) :: found, others)
    | none => do
      let (found, others) ← visit fields rest
      return (found, (name, value) :: others)

/-- What the members that fields go by say. -/
def found (fields : List (String × FieldKind)) (members : Members) : Contents :=
  members.filterMap fun m => (fields.lookup m.1).map fun kind => (m.1, kind.content (some m.2))

/-- The members that no field goes by. -/
def others (fields : List (String × FieldKind)) (members : Members) : Members :=
  members.filter fun m => (fields.lookup m.1).isNone

variable {fields : List (String × FieldKind)} {name : String}

section Cons

variable {value : Value} {rest : Members}

/-- A member with a field of the type is kept as it was read. -/
theorem found_cons_of_some {kind : FieldKind} (h : fields.lookup name = some kind) :
    found fields ((name, value) :: rest) = (name, kind.content (some value)) :: found fields rest :=
  List.filterMap_cons_some (by rw [h]; rfl)

theorem found_cons_of_none (h : fields.lookup name = none) :
    found fields ((name, value) :: rest) = found fields rest :=
  List.filterMap_cons_none (by rw [h]; rfl)

theorem others_cons_of_some {kind : FieldKind} (h : fields.lookup name = some kind) :
    others fields ((name, value) :: rest) = others fields rest :=
  List.filter_cons_of_neg (by simp [h])

/-- A member without a field is put aside as it came. -/
theorem others_cons_of_none (h : fields.lookup name = none) :
    others fields ((name, value) :: rest) = (name, value) :: others fields rest :=
  List.filter_cons_of_pos (by simp [h])

end Cons

/-- A visit reports the first mismatch in the order of the members. -/
theorem visit_eq (fields : List (String × FieldKind)) (members : Members) :
    visit fields members = barring (firstShared (fun v kind => kind.mismatch? v) members fields)
      (found fields members, others fields members) := by
  induction members with
  | nil => rfl
  | cons m rest ih =>
    obtain ⟨name, value⟩ := m
    rw [visit, Json.firstShared_cons, ih]
    cases hfield : fields.lookup name with
    | some kind =>
      rw [found_cons_of_some hfield, others_cons_of_some hfield]
      simp only [FieldKind.read_eq, pure_eq_barring, barring_bind, Option.or_none]
      rfl
    | none =>
      rw [found_cons_of_none hfield, others_cons_of_none hfield]
      simp only [pure_eq_barring, barring_bind, Option.or_none]
      rfl

/-- What is found is what the members say, field by field. -/
theorem lookup_found {kind : FieldKind} (h : fields.lookup name = some kind) :
    (found fields members).lookup name =
      (members.lookup name).map fun v => kind.content (some v) := by
  induction members with
  | nil => rfl
  | cons m rest ih =>
    obtain ⟨key, value⟩ := m
    by_cases hname : name = key
    · subst hname
      rw [found_cons_of_some h, List.lookup_cons_self, List.lookup_cons_self, Option.map_some]
    · rw [Json.lookup_cons_of_ne hname, ← ih]
      cases hkey : fields.lookup key with
      | some kind => rw [found_cons_of_some hkey, Json.lookup_cons_of_ne hname]
      | none => rw [found_cons_of_none hkey]

/-- What was put aside is all that the context asks for, since it shares no name with the
details. -/
theorem lookup_others (h : fields.lookup name = none) :
    (others fields members).lookup name = members.lookup name := by
  induction members with
  | nil => rfl
  | cons m rest ih =>
    obtain ⟨key, value⟩ := m
    by_cases hname : name = key
    · subst hname
      rw [others_cons_of_none h, List.lookup_cons_self, List.lookup_cons_self]
    · rw [Json.lookup_cons_of_ne hname, ← ih]
      cases hkey : fields.lookup key with
      | some kind => rw [others_cons_of_some hkey]
      | none => rw [others_cons_of_none hkey, Json.lookup_cons_of_ne hname]

end Payload

/-! ## Records from what was found -/

namespace FieldValue

/-- What is in a field, as a text; nothing of interest if it holds something else.  The same goes
for the others. -/
def asText : FieldValue → String
  | text s => s
  | _ => ""

/-- What is in a field, as texts. -/
def asTexts : FieldValue → List String
  | texts items => items
  | _ => []

/-- What is in a field, as a number. -/
def asSingle : FieldValue → Single
  | single x => x
  | _ => .zero false

/-- What is in a field, as a count. -/
def asCount : FieldValue → UInt32
  | count n => n
  | _ => 0

end FieldValue

namespace Payload.Contents

variable (found : Contents) (name : String)

/-- What was found under a name, or the default if nothing was. -/
def text : String := (found.lookup name).elim "" FieldValue.asText

/-- The texts found under a name. -/
def texts : List String := (found.lookup name).elim [] FieldValue.asTexts

/-- The number found under a name. -/
def single : Single := (found.lookup name).elim (.zero false) FieldValue.asSingle

/-- The count found under a name. -/
def count : UInt32 := (found.lookup name).elim 0 FieldValue.asCount

/-- What a field of a kind holds after a visit. -/
def get : FieldKind → FieldValue
  | .text => .text (found.text name)
  | .texts => .texts (found.texts name)
  | .single => .single (found.single name)
  | .count => .count (found.count name)

/-- What was found under a name is what its member gives, whether it is there or not. -/
theorem get_eq {v? : Option Value} {kind : FieldKind}
    (h : found.lookup name = v?.map fun v => kind.content (some v)) :
    found.get name kind = kind.content v? := by
  cases v? with
  | none => cases kind <;> simp only [get, text, texts, single, count, h] <;> rfl
  | some v => cases kind <;> simp only [get, text, texts, single, count, h] <;> rfl

end Payload.Contents

/-- A context from what was found. -/
def Context.ofFound (found : Contents) : Context where
  appVersion := found.text "app_version"
  build := found.text "build"
  country := found.text "country"
  cpu := found.text "cpu"
  deviceId := found.text "device_id"
  deviceModel := found.text "device_model"
  gpu := found.text "gpu"
  levelId := found.text "level_id"
  netType := found.text "net_type"
  osVersion := found.text "os_version"
  platform := found.text "platform"
  ramClass := found.text "ram_class"
  scene := found.text "scene"
  sessionId := found.text "session_id"
  unityVersion := found.text "unity_version"
  userId := found.text "user_id"

/-- The details of a type from what was found. -/
def Details.ofFound (found : Contents) : EventType → Details
  | .perfSample => .perfSample
      { fps := found.single "fps"
        frameTimeMs := found.single "frame_time_ms"
        gcAllocKb := found.single "gc_alloc_kb"
        mainThreadMs := found.single "main_thread_ms"
        memMb := found.single "mem_mb" }
  | .jank => .jank
      { durationMs := found.single "duration_ms"
        maxFrameMs := found.single "max_frame_ms"
        recentEvents := found.texts "recent_events"
        recentGcAllocKb := found.single "recent_gc_alloc_kb"
        recentGcCount := found.count "recent_gc_count" }
  | .startup => .startup
      { phase1Ms := found.single "phase1_ms"
        phase2Ms := found.single "phase2_ms"
        ttiMs := found.single "tti_ms" }
  | .sceneLoad => .sceneLoad
      { activateMs := found.single "activate_ms"
        loadMs := found.single "load_ms"
        sceneName := found.text "scene_name" }
  | .exception => .exception
      { count := found.count "count"
        fingerprint := found.text "fingerprint"
        message := found.text "message"
        stack := found.text "stack" }
  | .crash => .crash
      { breadcrumbs := found.texts "breadcrumbs"
        crashType := found.text "crash_type"
        fingerprint := found.text "fingerprint"
        stack := found.text "stack" }

/-- Such a context holds in each field what was found under its name. -/
theorem Context.contents_ofFound (found : Contents) :
    (Context.ofFound found).contents = Context.fields.map fun f => (f.1, found.get f.1 f.2) := rfl

/-- Such details hold in each field what was found under its name. -/
theorem Details.contents_ofFound (found : Contents) (type : EventType) :
    (Details.ofFound found type).contents = type.fields.map fun f => (f.1, found.get f.1 f.2) := by
  cases type <;> rfl

theorem Details.type_ofFound (found : Contents) (type : EventType) :
    (Details.ofFound found type).type = type := by
  cases type <;> rfl

/-- Decodes members in two rounds: the fields of the type, and what is left for the context. -/
def Event.visit (type : EventType) (members : Members) : Except Mismatch Event := do
  let (own, others) ← Payload.visit type.fields members
  let (shared, _) ← Payload.visit Context.fields others
  return ⟨Context.ofFound shared, Details.ofFound own type⟩

/-! ## Either order -/

/-- The fields of each type stand in the order of their names.  This is why going through sorted
members meets the mismatches in the same order as going through the fields. -/
theorem EventType.sorted_fields (type : EventType) : Sorted type.fields := by
  cases type <;> decide

theorem Context.sorted_fields : Sorted Context.fields := by decide

/-- No field of a type has the name of a field of the context. -/
theorem EventType.lookup_fields_eq_none (type : EventType) :
    ∀ f ∈ Context.fields, type.fields.lookup f.1 = none := by
  cases type <;> decide

/-- What the two rounds find is what the payload says. -/
theorem Event.ofFound_eq (type : EventType) (members : Members) :
    (⟨Context.ofFound (found Context.fields (others type.fields members)),
        Details.ofFound (found type.fields members) type⟩ : Event) =
      ⟨Context.ofPayload members, Details.ofPayload members type⟩ := by
  refine eq_of_contents ((Details.type_ofFound _ type).trans (type_ofPayload members type).symm)
    rfl ?_
  rw [contents_ofPayload, List.map_append]
  refine congrArg₂ (· ++ ·) ?_ ?_
  · rw [Details.contents_ofFound]
    refine List.map_congr_left fun f hf => ?_
    rw [Contents.get_eq _ _ (lookup_found (type.sorted_fields.lookup_of_mem hf))]
  · rw [Context.contents_ofFound]
    refine List.map_congr_left fun f hf => ?_
    have hget := Contents.get_eq (found Context.fields (others type.fields members)) f.1
      (lookup_found (Context.sorted_fields.lookup_of_mem hf))
    rw [hget, lookup_others (type.lookup_fields_eq_none f hf)]

/-- **Visiting the members is decoding**, if they come in the order of their keys. -/
theorem Event.visit_eq_decode (h : Sorted members) (type : EventType) :
    Event.visit type members = Event.decode type (.object members) := by
  have hothers : Sorted (others type.fields members) := h.filter _
  have hown : firstShared (fun v kind => kind.mismatch? v) members type.fields =
      mismatch? type.fields members := Json.firstShared_comm h type.sorted_fields
  have hshared : firstShared (fun v kind => kind.mismatch? v) (others type.fields members)
      Context.fields = mismatch? Context.fields members := by
    rw [Json.firstShared_comm hothers Context.sorted_fields]
    exact mismatch?_congr fun f hf => lookup_others (type.lookup_fields_eq_none f hf)
  rw [decode_object, mismatch?_append, ← ofFound_eq, visit, visit_eq, hown]
  simp only [visit_eq, hshared, pure_eq_barring, barring_bind, Option.or_none]

/-- **Members that no field goes by have no influence.**  Two objects with the same members for the
fields of a type and of the context are the same event, or are reported with the same mismatch, and
so with the same text.  It is the same for a reader that comes across all the members, wherever in
between the others are: what was read from a text comes in order, and such a reader decodes it. -/
theorem Event.decode_alike
    (h : ∀ f ∈ type.fields ++ Context.fields, members.lookup f.1 = members'.lookup f.1) :
    Event.decode type (.object members) = Event.decode type (.object members') ∧
      (Sorted members → Sorted members' →
        Event.visit type members = Event.visit type members') ∧
      ∀ text, Value.ofText text = .ok (.object members) →
        Sorted members ∧ Event.visit type members = Event.decode type (.object members) := by
  refine ⟨decode_congr h, fun hsorted hsorted' => ?_, fun text htext => ?_⟩
  · rw [visit_eq_decode hsorted, visit_eq_decode hsorted', decode_congr h]
  · have hsorted := Value.sorted_ofText htext
    exact ⟨hsorted, visit_eq_decode hsorted type⟩

/-- A crash with a number for a level, among members that no field of a crash goes by. -/
theorem Event.decode_alike_level :
    Event.decode .crash (.object [("duration_ms", .bool true), ("level_id", .number (.whole 3)),
        ("timestamp", .null)]) =
      Event.decode .crash (.object [("a", .array []), ("level_id", .number (.whole 3)),
        ("load_ms", .text "x"), ("type", .text "jank")]) ∧
    Event.visit .crash [("duration_ms", .bool true), ("level_id", .number (.whole 3)),
        ("timestamp", .null)] =
      Event.visit .crash [("a", .array []), ("level_id", .number (.whole 3)),
        ("load_ms", .text "x"), ("type", .text "jank")] ∧
    Event.decode .crash (.object [("duration_ms", .bool true), ("level_id", .number (.whole 3)),
        ("timestamp", .null)]) = .error (.wrongType (.integer 3) .text) := by
  have hshared : ∀ f ∈ EventType.crash.fields ++ Context.fields,
      List.lookup f.1 [("duration_ms", Value.bool true), ("level_id", .number (.whole 3)),
        ("timestamp", .null)] =
      List.lookup f.1 [("a", .array []), ("level_id", .number (.whole 3)),
        ("load_ms", .text "x"), ("type", .text "jank")] := by
    simp [EventType.fields, Context.fields, List.lookup_cons]
  obtain ⟨hdecode, hvisit, -⟩ := decode_alike hshared
  exact ⟨hdecode, hvisit (by decide) (by decide), rfl⟩

end SpikeWatch
