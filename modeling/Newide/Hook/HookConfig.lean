import Newide.Foundation.Records
import Mathlib.Data.String.Basic

/-!
# Hook configurations

The YAML values `src/hook/loader.ts` reads and the configuration of
`src/hook/config.ts` it makes of them.  A YAML mapping is the object the
parser builds; `__proto__`, which is no ordinary key of an object, is
left out, and a number comes with the text `String(n)` shows for it.
-/

namespace Newide.Hook

/-! ## YAML values -/

inductive NumberValue where
  | nan
  | infinite (negative : Bool)
  | finite (q : Rat)
deriving DecidableEq

structure YamlNumber where
  value : NumberValue
  text : String
deriving DecidableEq

namespace YamlNumber

/-- `n > q`. -/
def Above (n : YamlNumber) (q : Rat) : Prop :=
  match n.value with
  | .nan => False
  | .infinite negative => negative = false
  | .finite p => q < p

/-- `n < q`. -/
def Below (n : YamlNumber) (q : Rat) : Prop :=
  match n.value with
  | .nan => False
  | .infinite negative => negative = true
  | .finite p => p < q

/-- `n >= q`. -/
def AtLeast (n : YamlNumber) (q : Rat) : Prop :=
  match n.value with
  | .nan => False
  | .infinite negative => negative = false
  | .finite p => q ≤ p

/-- `n <= q`. -/
def AtMost (n : YamlNumber) (q : Rat) : Prop :=
  match n.value with
  | .nan => False
  | .infinite negative => negative = true
  | .finite p => p ≤ q

instance (n : YamlNumber) (q : Rat) : Decidable (n.Above q) := by
  unfold Above
  cases n.value <;> infer_instance

instance (n : YamlNumber) (q : Rat) : Decidable (n.Below q) := by
  unfold Below
  cases n.value <;> infer_instance

instance (n : YamlNumber) (q : Rat) : Decidable (n.AtLeast q) := by
  unfold AtLeast
  cases n.value <;> infer_instance

instance (n : YamlNumber) (q : Rat) : Decidable (n.AtMost q) := by
  unfold AtMost
  cases n.value <;> infer_instance

def ofNat (n : Nat) : YamlNumber where
  value := .finite n
  text := toString n

end YamlNumber

inductive Yaml where
  | null
  | boolean (b : Bool)
  | number (n : YamlNumber)
  | string (s : String)
  | array (items : List Yaml)
  | object (fields : List (String × Yaml))

namespace Yaml

/-- `typeof value`. -/
def typeOf : Option Yaml → String
  | none => "undefined"
  | some (.boolean _) => "boolean"
  | some (.number _) => "number"
  | some (.string _) => "string"
  | some .null | some (.array _) | some (.object _) => "object"

/-- `Object.entries(value)`; an array has its indices for keys. -/
def entries : Yaml → Record String Yaml
  | .object fields => Record.ofEntries fields
  | .array items => Record.ofEntries (items.mapIdx fun index item => (toString index, item))
  | _ => []

/-- `value[key]`. -/
def get (value : Yaml) (key : String) : Option Yaml := Record.get key value.entries

mutual

/-- `String(value)`. -/
def display : Yaml → String
  | .null => "null"
  | .boolean b => if b then "true" else "false"
  | .number n => n.text
  | .string s => s
  | .array items => ",".intercalate (displayItems items)
  | .object _ => "[object Object]"

/-- The texts an array joins; `null` is none. -/
def displayItems : List Yaml → List String
  | [] => []
  | .null :: items => "" :: displayItems items
  | item :: items => item.display :: displayItems items

end

end Yaml

/-! ## The configuration -/

inductive GateType where
  | command | prompt | composite | http
deriving DecidableEq

def validGateTypes : List GateType := [.command, .prompt, .composite, .http]

def GateType.text : GateType → String
  | .command => "command"
  | .prompt => "prompt"
  | .composite => "composite"
  | .http => "http"

inductive GateDecision where
  | allow | deny | ask | defer
deriving DecidableEq

def validDecisions : List GateDecision := [.allow, .deny, .ask, .defer]

def GateDecision.text : GateDecision → String
  | .allow => "allow"
  | .deny => "deny"
  | .ask => "ask"
  | .defer => "defer"

inductive GateOutputFormat where
  | sarif | junit | json | text | coverageJson
deriving DecidableEq

def validGateOutputFormats : List GateOutputFormat := [.sarif, .junit, .json, .text, .coverageJson]

def GateOutputFormat.name : GateOutputFormat → String
  | .sarif => "sarif"
  | .junit => "junit"
  | .json => "json"
  | .text => "text"
  | .coverageJson => "coverage_json"

def allHookPoints : List String := [
  "agent.pre_tool_use", "agent.post_tool_use", "agent.post_tool_use_fail", "agent.message_send",
  "agent.message_recv", "agent.checkpoint", "agent.session_start", "agent.session_end",
  "agent.experience_extracted", "agent.skill_promoted", "agent.respawn", "agent.respawned",
  "task.created", "task.claimed", "task.checkpoint_resume", "task.started", "task.progress",
  "task.completed", "task.failed", "task.escalated", "task.delegated", "task.before_merge",
  "council.started", "council.context_packaged", "council.profile_snapshot_saved",
  "council.extraction_completed", "council.proposal", "council.proposal_deadline",
  "council.review", "council.diff_ready", "council.review_round_end", "council.decision",
  "council.completed",
  "lifecycle.project_open", "lifecycle.build_start", "lifecycle.build_end",
  "lifecycle.human_gate",
  "system.heartbeat", "system.budget_exceeded", "system.timeout", "system.agent_crash",
  "system.config_change", "system.worktree_create"]

abbrev HookPoint := { name : String // name ∈ allHookPoints }

structure HookSettings where
  failFast : Bool
  defaultTimeout : YamlNumber
  parallel : Bool
  outputFormat : String
  emergencyEnvVar : String
deriving DecidableEq

def defaultHookVersion : String := "hook-0.1"

def defaultHookSettings : HookSettings where
  failFast := false
  defaultTimeout := .ofNat 30
  parallel := false
  outputFormat := "json"
  emergencyEnvVar := "AGENT_EMERGENCY_SKIP"

structure SubGateRef where
  gateId : String
  required : Option Bool := none
deriving DecidableEq

structure GateThreshold where
  line : Option YamlNumber := none
  branch : Option YamlNumber := none
deriving DecidableEq

structure GateOutputConfig where
  format : Option GateOutputFormat := none
  severityMap : Option (Record String GateDecision) := none
  threshold : Option GateThreshold := none
  onFail : Option GateDecision := none
  onBelowThreshold : Option GateDecision := none
deriving DecidableEq

structure GateConfig where
  type : GateType
  command : Option String := none
  prompt : Option String := none
  model : Option String := none
  http : Option String := none
  gates : Option (List SubGateRef) := none
  output : Option GateOutputConfig := none
  timeout : Option YamlNumber := none
  retryThreshold : Option YamlNumber := none
deriving DecidableEq

structure HookBindingEntry where
  gate : String
  name : Option String := none
  priority : Option YamlNumber := none
  condition : Option String := none
  timeout : Option YamlNumber := none
  onFailure : Option GateDecision := none
deriving DecidableEq

structure HookConfig where
  version : String
  settings : HookSettings
  gates : Record String GateConfig
  hooks : Record HookPoint (List HookBindingEntry)
deriving DecidableEq

/-! ## A configuration as the object it is -/

/-- The field of an optional property, which is absent when it was never set. -/
def optionalField {α : Type} (key : String) (embed : α → Yaml) (value : Option α) :
    List (String × Yaml) :=
  value.toList.map fun a => (key, embed a)

def HookSettings.fields (settings : HookSettings) : Record String Yaml := [
  ("fail_fast", .boolean settings.failFast),
  ("default_timeout", .number settings.defaultTimeout),
  ("parallel", .boolean settings.parallel),
  ("output_format", .string settings.outputFormat),
  ("emergency_env_var", .string settings.emergencyEnvVar)]

def SubGateRef.fields (ref : SubGateRef) : Record String Yaml :=
  ("gate_id", .string ref.gateId) :: [optionalField "required" .boolean ref.required].flatten

def SubGateRef.toYaml (ref : SubGateRef) : Yaml := .object ref.fields

def GateThreshold.fields (threshold : GateThreshold) : Record String Yaml := List.flatten [
  optionalField "line" .number threshold.line,
  optionalField "branch" .number threshold.branch]

def GateThreshold.toYaml (threshold : GateThreshold) : Yaml := .object threshold.fields

def GateOutputFormat.toYaml (format : GateOutputFormat) : Yaml := .string format.name

def GateDecision.toYaml (decision : GateDecision) : Yaml := .string decision.text

def severityMapYaml (severityMap : Record String GateDecision) : Yaml :=
  .object (Record.mapValues (fun _ decision => decision.toYaml) severityMap)

def GateOutputConfig.fields (output : GateOutputConfig) : Record String Yaml := List.flatten [
  optionalField "format" GateOutputFormat.toYaml output.format,
  optionalField "severity_map" severityMapYaml output.severityMap,
  optionalField "threshold" GateThreshold.toYaml output.threshold,
  optionalField "on_fail" GateDecision.toYaml output.onFail,
  optionalField "on_below_threshold" GateDecision.toYaml output.onBelowThreshold]

def GateOutputConfig.toYaml (output : GateOutputConfig) : Yaml := .object output.fields

def subGatesYaml (refs : List SubGateRef) : Yaml := .array (refs.map SubGateRef.toYaml)

def GateConfig.fields (gate : GateConfig) : Record String Yaml :=
  ("type", .string gate.type.text) :: List.flatten [
    optionalField "command" .string gate.command,
    optionalField "prompt" .string gate.prompt,
    optionalField "model" .string gate.model,
    optionalField "http" .string gate.http,
    optionalField "gates" subGatesYaml gate.gates,
    optionalField "output" GateOutputConfig.toYaml gate.output,
    optionalField "timeout" .number gate.timeout,
    optionalField "retry_threshold" .number gate.retryThreshold]

def GateConfig.toYaml (gate : GateConfig) : Yaml := .object gate.fields

def HookBindingEntry.fields (entry : HookBindingEntry) : Record String Yaml :=
  ("gate", .string entry.gate) :: List.flatten [
    optionalField "name" .string entry.name,
    optionalField "priority" .number entry.priority,
    optionalField "if" .string entry.condition,
    optionalField "timeout" .number entry.timeout,
    optionalField "on_failure" GateDecision.toYaml entry.onFailure]

def HookBindingEntry.toYaml (entry : HookBindingEntry) : Yaml := .object entry.fields

def bindingsYaml (bindings : List HookBindingEntry) : Yaml :=
  .array (bindings.map HookBindingEntry.toYaml)

def gatesYaml (gates : Record String GateConfig) : Yaml :=
  .object (Record.mapValues (fun _ gate => gate.toYaml) gates)

def hooksYaml (hooks : Record HookPoint (List HookBindingEntry)) : Yaml :=
  .object (hooks.map fun binding => (binding.1.val, bindingsYaml binding.2))

def HookConfig.toYaml (config : HookConfig) : Yaml :=
  .object [("version", .string config.version), ("settings", .object config.settings.fields),
    ("gates", gatesYaml config.gates), ("hooks", hooksYaml config.hooks)]

end Newide.Hook
