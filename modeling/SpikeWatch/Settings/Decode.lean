import SpikeWatch.Settings.Basic
import SpikeWatch.Toml.Document

/-!
# Settings from TOML values

A section is a table, whose entries are looked at in their order and passed over if no setting goes
by their name.  It may also be an array with the settings in their order.  What is missing keeps its
default, but for a few fields of a rule.
-/

set_option autoImplicit false

namespace SpikeWatch

open Toml (Value Entries)

/-- Why a document does not hold settings. -/
inductive Misfit where
  | mismatch (m : Mismatch)
  /-- A choice among names is neither a text nor a table. -/
  | notAChoice
  /-- A table that should hold one choice is empty. -/
  | noChoice
  /-- A table that should hold one choice holds more. -/
  | manyChoices
  /-- A choice has a table with entries, or an array with items. -/
  | contentInChoice
  /-- A choice has tables under headers of their own. -/
  | tablesInChoice
  /-- A choice has a value that is no table. -/
  | choiceWith (kind : String)

/-- What is said about a document that does not hold settings. -/
def Misfit.message : Misfit → String
  | mismatch m => m.message .pointedPlain
  | notAChoice => "wanted string or table"
  | noChoice => "wanted exactly 1 element, found 0 elements"
  | manyChoices => "wanted exactly 1 element, more than 1 element"
  | contentInChoice => "expected empty table"
  | tablesInChoice => "expected empty array"
  | choiceWith kind => "expected table, found " ++ kind

namespace Settings

/-- Refuses a value because something else is wanted. -/
def refuse {α : Type} (wanted : Wanted) (v : Value) : Except Misfit α :=
  .error (.mismatch (.wrongType v.found wanted))

/-! ## Scalars -/

/-- A text, and nothing that would have to be turned into one. -/
def readText : Value → Except Misfit String
  | .text s => .ok s
  | v => refuse .text v

/-- One of the two truth values. -/
def readBool : Value → Except Misfit Bool
  | .bool b => .ok b
  | v => refuse .boolean v

/-- A whole number that is not negative. -/
def readUnsigned : Value → Except Misfit UInt64
  | .integer (.ofNat n) => .ok (.ofNat n)
  | .integer n => .error (.mismatch (.wrongValue (.integer n) .unsigned64))
  | v => refuse .unsigned64 v

/-- A number with or without a fraction. -/
def readDouble : Value → Except Misfit Double
  | .integer n => .ok (.ofInt n)
  | .real x => .ok x
  | v => refuse .double v

/-- A metric by its name. -/
def readMetricName (name : String) : Except Misfit Metric :=
  match Metric.ofName? name with
  | some m => .ok m
  | none => .error (.mismatch (.unknownName name (Metric.all.map Metric.name)))

/-- What may stand behind the name of a metric: nothing that holds anything. -/
def checkChoice : Value → Except Misfit Unit
  | .table _ [] => .ok ()
  | .table _ _ => .error .contentInChoice
  | .array [] => .ok ()
  | .array _ => .error .contentInChoice
  | .tables [] => .ok ()
  | .tables _ => .error .tablesInChoice
  | .text _ => .error (.choiceWith "string")
  | .integer _ => .error (.choiceWith "integer")
  | .real _ => .error (.choiceWith "float")
  | .bool _ => .error (.choiceWith "boolean")
  | .dateTime => .error (.choiceWith "datetime")

/-- A metric: its name, or a table whose only entry has it for a key. -/
def readMetric : Value → Except Misfit Metric
  | .text name => readMetricName name
  | .table _ [] => .error .noChoice
  | .table _ [(name, v)] => do
    let m ← readMetricName name
    checkChoice v
    return m
  | .table _ _ => .error .manyChoices
  | _ => .error .notAChoice

/-- The items of an array, of either kind. -/
def items? : Value → Option (List Value)
  | .array items => some items
  | .tables items => some (items.map (Value.table .header))
  | _ => none

/-- The items of an array, read one after the other. -/
def readList {α : Type} (read : Value → Except Misfit α) (v : Value) : Except Misfit (List α) :=
  match items? v with
  | some items => items.mapM read
  | none => refuse .sequence v

/-! ## Sections -/

/-- A setting of a section: its name, and how its value changes the section. -/
structure Setting (σ : Type) where
  name : String
  read : σ → Value → Except Misfit σ

/-- A setting whose value is read and put into the section. -/
def Setting.of {σ α : Type} (name : String) (read : Value → Except Misfit α) (set : σ → α → σ) :
    Setting σ where
  name
  read := fun s v => (read v).map (set s)

/-- Reads the entries of a section in their order. -/
def readEntries {σ : Type} (settings : List (Setting σ)) : σ → Entries → Except Misfit σ
  | s, [] => .ok s
  | s, (key, v) :: rest =>
    match settings.find? (·.name = key) with
    -- an entry that no setting goes by is not an error
    | none => readEntries settings s rest
    | some setting =>
      match setting.read s v with
      | .error e => .error e
      | .ok s => readEntries settings s rest

/-- Reads the items of a section into its settings; items beyond them are passed over. -/
def readItems {σ : Type} : List (Setting σ) → σ → List Value → Except Misfit σ
  | setting :: settings, s, v :: rest =>
    match setting.read s v with
    | .error e => .error e
    | .ok s => readItems settings s rest
  | _, s, _ => .ok s

/-- Reads a section.  A date or time counts as a table without any entry that is known. -/
def readSection {σ : Type} (record : String) (settings : List (Setting σ)) (default : σ)
    (v : Value) : Except Misfit σ :=
  match v with
  | .table _ entries => readEntries settings default entries
  | .dateTime => .ok default
  | v =>
    match items? v with
    | some items => readItems settings default items
    | none => refuse (.record record) v

/-- The settings of the section about events that come in. -/
def ingestSettings : List (Setting Ingest) := [
  .of "max_event_age_hours" readUnsigned fun s n => { s with maxEventAgeHours := n },
  .of "max_future_skew_minutes" readUnsigned fun s n => { s with maxFutureSkewMinutes := n },
  .of "record_realtime" readBool fun s b => { s with recordRealtime := b }]

/-- The settings of the section about live counts. -/
def aggregatorSettings : List (Setting Aggregator) := [
  .of "window_seconds" readUnsigned fun s n => { s with windowSeconds := n },
  .of "sweep_interval_seconds" readUnsigned fun s n => { s with sweepIntervalSeconds := n }]

/-! ## Rules -/

/-- A rule as far as it was read. -/
structure RuleDraft where
  id : Option String := none
  name : Option String := none
  metric : Option Metric := none
  appVersion : String := ""
  threshold : Option Double := none
  windowSeconds : UInt64 := 60
  cooldownSeconds : UInt64 := 300

/-- The fields of a rule in their order, with whether each may be absent. -/
def ruleSettings : List (Setting RuleDraft × Bool) := [
  (.of "id" readText fun r s => { r with id := some s }, false),
  (.of "name" readText fun r s => { r with name := some s }, false),
  (.of "metric" readMetric fun r m => { r with metric := some m }, false),
  (.of "app_version" readText fun r s => { r with appVersion := s }, true),
  (.of "threshold" readDouble fun r x => { r with threshold := some x }, false),
  (.of "window_seconds" readUnsigned fun r n => { r with windowSeconds := n }, true),
  (.of "cooldown_seconds" readUnsigned fun r n => { r with cooldownSeconds := n }, true)]

/-- The rule of a draft.  The first field that is missing and may not be is reported. -/
def RuleDraft.finish (r : RuleDraft) : Except Misfit RuleSetting :=
  let missing (name : String) : Except Misfit RuleSetting := .error (.mismatch (.missingField name))
  match r.id, r.name, r.metric, r.threshold with
  | some id, some name, some metric, some threshold =>
    .ok { id, name, metric, threshold, appVersion := r.appVersion,
          windowSeconds := r.windowSeconds, cooldownSeconds := r.cooldownSeconds }
  | none, _, _, _ => missing "id"
  | _, none, _, _ => missing "name"
  | _, _, none, _ => missing "metric"
  | _, _, _, none => missing "threshold"

/-- Reads the items of a rule given as an array, `index` of whose fields have been dealt with. -/
def readRuleItems (index : Nat) : List (Setting RuleDraft × Bool) → RuleDraft → List Value →
    Except Misfit RuleDraft
  | [], r, _ => .ok r
  | (_, optional) :: settings, r, [] =>
    if optional then readRuleItems (index + 1) settings r []
    else .error (.mismatch (.wrongLength index "RuleConfig" ruleSettings.length))
  | (setting, _) :: settings, r, v :: rest =>
    match setting.read r v with
    | .error e => .error e
    | .ok r => readRuleItems (index + 1) settings r rest

/-- Reads a rule. -/
def readRule (v : Value) : Except Misfit RuleSetting :=
  match v with
  | .table _ entries =>
    (readEntries (ruleSettings.map Prod.fst) {} entries).bind RuleDraft.finish
  | .dateTime => RuleDraft.finish {}
  | v =>
    match items? v with
    | some items => (readRuleItems 0 ruleSettings {} items).bind RuleDraft.finish
    | none => refuse (.record "RuleConfig") v

/-! ## All settings -/

/-- The settings of the section about alerts, the rules among them. -/
def alertsSettings : List (Setting Alerts) := [
  .of "enabled" readBool fun s b => { s with enabled := b },
  .of "webhook_url" readText fun s url => { s with webhookUrl := url },
  .of "evaluation_interval_seconds" readUnsigned fun s n =>
    { s with evaluationIntervalSeconds := n },
  .of "webhook_timeout_seconds" readUnsigned fun s n => { s with webhookTimeoutSeconds := n },
  .of "use_default_rules" readBool fun s b => { s with useDefaultRules := b },
  .of "rules" (readList readRule) fun s rules => { s with rules }]

/-- The three sections of a document.  One that is missing keeps all its defaults. -/
def sections : List (Setting Settings) := [
  .of "ingest" (readSection "IngestConfig" ingestSettings {}) fun s i => { s with ingest := i },
  .of "aggregator" (readSection "AggregatorConfig" aggregatorSettings {}) fun s a =>
    { s with aggregator := a },
  .of "alerts" (readSection "AlertsConfig" alertsSettings {}) fun s a => { s with alerts := a }]

/-- The settings in the entries of a document. -/
def ofEntries (entries : Entries) : Except Misfit Settings := readEntries sections {} entries

end Settings

end SpikeWatch
