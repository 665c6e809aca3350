import Newide.Foundation.Checked
import Newide.Hook.HookConfig

/-!
# The hook loader

`src/hook/loader.ts`: a layer is parsed into a configuration with every
error it finds, configurations are merged pairwise, and every merge is
validated again.  The syntax check of an `if` condition rests on an
expression parser from outside and is a parameter; reading the files and
parsing their YAML are left out, so a layer is a parsed value or missing.
-/

namespace Newide.Hook

open Checked Yaml

/-- `validateConditionSyntax`: what is wrong with a condition. -/
abbrev ConditionSyntax := String → Option String

abbrev Report (α : Type) := Checked String α

def locate {α : Type} (loc : String) (x : Report α) : Report α := x.mapErrors (loc ++ ·)

/-! ## Unknown keys -/

def knownTopKeys : List String := ["version", "settings", "gates", "hooks"]

def knownSettingsKeys : List String :=
  ["fail_fast", "default_timeout", "parallel", "output_format", "emergency_env_var"]

def knownGateKeys : List String :=
  ["type", "command", "prompt", "model", "http", "gates", "output", "timeout", "retry_threshold"]

def knownOutputKeys : List String :=
  ["format", "severity_map", "threshold", "on_fail", "on_below_threshold"]

def knownSubGateKeys : List String := ["gate", "gate_id", "required"]

def knownBindingKeys : List String :=
  ["gate", "name", "priority", "if", "timeout", "on_failure"]

/-- `ALLOWED_FIELDS_PER_TYPE`. -/
def allowedFields : GateType → List String
  | .command => ["type", "command", "output", "timeout", "retry_threshold"]
  | .prompt => ["type", "prompt", "model", "output", "timeout", "retry_threshold"]
  | .http => ["type", "http", "output", "timeout", "retry_threshold"]
  | .composite => ["type", "gates", "output", "timeout", "retry_threshold"]

def codeUnits (s : String) : List Nat :=
  s.toList.flatMap fun c =>
    if c.toNat < 0x10000 then [c.toNat]
    else [0xD800 + (c.toNat - 0x10000) / 0x400, 0xDC00 + (c.toNat - 0x10000) % 0x400]

/-- One row of the distance table; `left` is the entry before, `diagonal` the one above it. -/
def levenshteinRow (a : Nat) (left diagonal : Nat) : List Nat → List Nat → List Nat
  | b :: bs, above :: aboves =>
      let next := if a = b then diagonal else 1 + min above (min left diagonal)
      next :: levenshteinRow a next above bs aboves
  | _, _ => []

def levenshtein (a b : String) : Nat :=
  let bs := codeUnits b
  let first := List.range (bs.length + 1)
  let last := (codeUnits a).foldl (fun (row : List Nat) a =>
    let start := row.headD 0
    (start + 1) :: levenshteinRow a (start + 1) start bs row.tail) first
  last.getLastD 0

def closestMatch (input : String) (candidates : List String) : Option String :=
  let best := candidates.foldl (fun (best : Option (String × Nat)) candidate =>
    let distance := levenshtein input candidate
    if best.all (fun b => distance < b.2) then some (candidate, distance) else best) none
  (best.filter fun b => b.2 ≤ 2).map Prod.fst

def reportUnknownKeys (obj : Yaml) (knownKeys : List String) : Report PUnit :=
  reportAll ((obj.entries.filter fun entry => entry.1 ∉ knownKeys).map fun entry =>
    ": unknown key \"" ++ entry.1 ++ "\"" ++
      ((closestMatch entry.1 knownKeys).elim "" fun hint => "; did you mean \"" ++ hint ++ "\"?") ++
      ". Known keys: [" ++ ", ".intercalate knownKeys ++ "]")

/-! ## Settings -/

/-- A key of the settings that is present is read, or reported and left at its default. -/
def readSetting {α : Type} (s : Yaml) (key : String) (default : α)
    (read : Yaml → Except String α) : Report α :=
  match s.get key with
  | none => pure default
  | some value =>
      match read value with
      | .ok a => pure a
      | .error message => report ("." ++ key ++ message) default

def mustBe (expected : String) (value : Yaml) (default : String) : String :=
  " must be " ++ expected ++ ", got " ++ typeOf value ++ "; using default (" ++ default ++ ")"

def readBoolean (default : String) : Yaml → Except String Bool
  | .boolean b => .ok b
  | value => .error (mustBe "a boolean" value default)

def readString (default : String) : Yaml → Except String String
  | .string s => .ok s
  | value => .error (mustBe "a string" value default)

def readTimeout (default : String) : Yaml → Except String YamlNumber
  | .number n =>
      if n.Above 0 then .ok n
      else .error (" must be > 0, got " ++ n.text ++ "; using default (" ++ default ++ ")")
  | value => .error (mustBe "a number" value default)

def readNonemptyString (default : String) : Yaml → Except String String
  | .string s =>
      if s ≠ "" then .ok s
      else .error (" must be a non-empty string; using default (" ++ default ++ ")")
  | value => .error (mustBe "a string" value default)

def parseSettingsKeys (s : Yaml) : Report HookSettings := do
  let d := defaultHookSettings
  let failFast ← readSetting s "fail_fast" d.failFast (readBoolean "false")
  let defaultTimeout ← readSetting s "default_timeout" d.defaultTimeout
    (readTimeout d.defaultTimeout.text)
  let parallel ← readSetting s "parallel" d.parallel (readBoolean "false")
  let outputFormat ← readSetting s "output_format" d.outputFormat (readString d.outputFormat)
  let emergencyEnvVar ← readSetting s "emergency_env_var" d.emergencyEnvVar
    (readNonemptyString d.emergencyEnvVar)
  reportUnknownKeys s knownSettingsKeys
  return { failFast, defaultTimeout, parallel, outputFormat, emergencyEnvVar }

def parseSettings (raw : Option Yaml) : Report HookSettings :=
  match raw with
  | none | some .null => pure defaultHookSettings
  | some value =>
      if typeOf value = "object" then locate "settings" (parseSettingsKeys value)
      else report ("settings must be an object, got " ++ typeOf value) defaultHookSettings

/-! ## Gates -/

/-- The string under a key; a value of another type counts as absent. -/
def optionalString (obj : Yaml) (key : String) : Option String :=
  match obj.get key with
  | some (.string s) => some s
  | _ => none

/-- A decision under a key; only a string that is none is reported. -/
def parseDecision (obj : Yaml) (key : String) : Report (Option GateDecision) :=
  match optionalString obj key with
  | none => pure none
  | some s =>
      match validDecisions.find? (·.text = s) with
      | some decision => pure (some decision)
      | none => report (key ++ " must be a valid decision (allow|deny|ask|defer), got \"" ++ s ++
          "\"") none

def parseSubGateObject (obj : Yaml) : Report SubGateRef := do
  let gateId := (optionalString obj "gate").or (optionalString obj "gate_id")
  require (gateId.any (· ≠ "")) " must have a \"gate\" field referencing a gate name"
  reportUnknownKeys obj knownSubGateKeys
  return { gateId := gateId.getD ""
           required :=
             match obj.get "required" with
             | some (.boolean b) => some b
             | _ => none }

def parseSubGate (item : Yaml) : Report SubGateRef :=
  match item with
  | .string s => do
      require (s ≠ "") " must be a non-empty string"
      return { gateId := s }
  | .object fields => parseSubGateObject (.object fields)
  | .array items => parseSubGateObject (.array items)
  | item => report (" must be a string or object, got " ++ typeOf item) { gateId := "" }

def parseSubGateRef (idx : Nat) (item : Yaml) : Report SubGateRef :=
  locate (".gates[" ++ toString idx ++ "]") (parseSubGate item)

def parseSubGates (g : Yaml) : Report (Option (List SubGateRef)) :=
  match g.get "gates" with
  | some (.array items) => do
      let refs ← items.zipIdx.mapM fun item => parseSubGateRef item.2 item.1
      return if refs = [] then none else some refs
  | _ => pure none

def parseFormat (out : Yaml) : Report (Option GateOutputFormat) :=
  match optionalString out "format" with
  | none => pure none
  | some s =>
      match validGateOutputFormats.find? (·.name = s) with
      | some format => pure (some format)
      | none => report (".format must be one of [" ++
          ", ".intercalate (validGateOutputFormats.map (·.name)) ++ "], got \"" ++ s ++ "\"") none

/-- One entry of a severity map; an invalid one is reported and left out. -/
def parseSeverity (entry : String × Yaml) : Report (List (String × GateDecision)) :=
  let loc := ".severity_map." ++ entry.1
  match entry.2 with
  | .string s =>
      match validDecisions.find? (·.text = s) with
      | some decision => pure [(entry.1, decision)]
      | none => report (loc ++ " must be a valid decision (allow|deny|ask|defer), got \"" ++ s ++
          "\"") []
  | value => report (loc ++ " must be a string decision (allow|deny|ask|defer), got " ++
      typeOf value) []

def parseSeverityEntries (value : Yaml) : Report (Option (Record String GateDecision)) := do
  let entries ← value.entries.mapM parseSeverity
  return if entries.flatten = [] then none else some entries.flatten

def parseSeverityMap (out : Yaml) : Report (Option (Record String GateDecision)) :=
  match out.get "severity_map" with
  | none => pure none
  | some (.object fields) => parseSeverityEntries (.object fields)
  | some (.array items) => parseSeverityEntries (.array items)
  | some _ => report ".severity_map must be an object" none

def parsePercentage (t : Yaml) (key : String) : Report (Option YamlNumber) :=
  match t.get key with
  | none => pure none
  | some (.number n) =>
      if n.AtLeast 0 ∧ n.AtMost 100 then pure (some n)
      else report (".threshold." ++ key ++ " must be in [0, 100], got " ++ n.text) none
  | some value => report (".threshold." ++ key ++ " must be a number, got " ++
      typeOf value) none

def parseThresholdKeys (t : Yaml) : Report (Option GateThreshold) := do
  let line ← parsePercentage t "line"
  let branch ← parsePercentage t "branch"
  return if line = none ∧ branch = none then none else some { line, branch }

def parseThreshold (out : Yaml) : Report (Option GateThreshold) :=
  match out.get "threshold" with
  | none => pure none
  | some (.object fields) => parseThresholdKeys (.object fields)
  | some (.array items) => parseThresholdKeys (.array items)
  | some _ => report ".threshold must be an object" none

def parseOutputKeys (out : Yaml) : Report (Option GateOutputConfig) := do
  let format ← parseFormat out
  let severityMap ← parseSeverityMap out
  let threshold ← parseThreshold out
  let onFail ← locate "." (parseDecision out "on_fail")
  let onBelowThreshold ← locate "." (parseDecision out "on_below_threshold")
  reportUnknownKeys out knownOutputKeys
  let output : GateOutputConfig := { format, severityMap, threshold, onFail, onBelowThreshold }
  return if output = {} then none else some output

/-- The output configuration of a gate; a value of another type counts as absent. -/
def parseOutput (g : Yaml) : Report (Option GateOutputConfig) :=
  match g.get "output" with
  | some (.object fields) => locate ".output" (parseOutputKeys (.object fields))
  | some (.array items) => locate ".output" (parseOutputKeys (.array items))
  | _ => pure none

/-- A number under a key that must satisfy a bound; a value of another type counts as absent. -/
def parseBounded (obj : Yaml) (key expected : String) (bound : YamlNumber → Prop)
    [DecidablePred bound] : Report (Option YamlNumber) :=
  match obj.get key with
  | some (.number n) =>
      if bound n then pure (some n)
      else report ("." ++ key ++ " must be " ++ expected ++ ", got " ++ n.text) none
  | _ => pure none

/-- The type of a gate, `none` when it is invalid. -/
def parseGateType (g : Yaml) : Report (Option GateType) :=
  match (optionalString g "type").bind fun s => validGateTypes.find? (·.text = s) with
  | some type => pure (some type)
  | none => report (".type must be one of [" ++
      ", ".intercalate (validGateTypes.map (·.text)) ++ "], got \"" ++
      (g.get "type").elim "undefined" display ++ "\"") none

/-- `!value` for an optional string. -/
def missing (value : Option String) : Prop := ∀ s ∈ value, s = ""

instance (value : Option String) : Decidable (missing value) :=
  inferInstanceAs (Decidable (∀ s ∈ value, s = ""))

def requiredField (gate : GateConfig) : Report PUnit :=
  let message (field : String) :=
    ": type is \"" ++ field ++ "\" but no \"" ++ field ++ "\" field provided"
  match gate.type with
  | .command => require (¬ missing gate.command) (message "command")
  | .prompt => require (¬ missing gate.prompt) (message "prompt")
  | .http => require (¬ missing gate.http) (message "http")
  | .composite => require (gate.gates.any (· ≠ []))
      ": type is \"composite\" but no \"gates\" field provided"

def fieldsFitType (g : Yaml) (gate : GateConfig) : Report PUnit := do
  reportAll ((g.entries.filter fun entry => entry.1 ∉ allowedFields gate.type).map fun entry =>
    ": field \"" ++ entry.1 ++ "\" is not allowed for type \"" ++ gate.type.text ++ "\"")
  requiredField gate

/-- The cross-field validation, which a gate of an invalid type is spared. -/
def crossFields (type : Option GateType) (g : Yaml) (gate : GateConfig) : Report PUnit :=
  if type.isSome then fieldsFitType g gate else pure ⟨⟩

def parseGateFields (g : Yaml) : Report GateConfig := do
  let type ← parseGateType g
  let gates ← parseSubGates g
  let output ← parseOutput g
  let timeout ← parseBounded g "timeout" "> 0" (·.Above 0)
  let retryThreshold ← parseBounded g "retry_threshold" ">= 0" (·.AtLeast 0)
  let gate : GateConfig :=
    { type := type.getD .command
      command := optionalString g "command"
      prompt := optionalString g "prompt"
      model := optionalString g "model"
      http := optionalString g "http"
      gates, output, timeout, retryThreshold }
  reportUnknownKeys g knownGateKeys
  crossFields type g gate
  return gate

def parseGateConfig (name : String) (raw : Yaml) : Report GateConfig :=
  locate ("gates." ++ name)
    (match raw with
    | .object fields => parseGateFields (.object fields)
    | .array items => parseGateFields (.array items)
    | raw => report (" must be an object, got " ++ typeOf raw)
        { type := .command, command := some "", retryThreshold := some (.ofNat 3) })

def parseGates (raw : Option Yaml) : Report (Record String GateConfig) :=
  match raw with
  | none | some .null => pure []
  | some value =>
      if typeOf value = "object" then
        value.entries.mapM fun entry => do
          let gate ← parseGateConfig entry.1 entry.2
          return (entry.1, gate)
      else report ("gates must be an object, got " ++ typeOf value) []

/-! ## Hook bindings -/

def inheritedNames : List String :=
  ["constructor", "__defineGetter__", "__defineSetter__", "hasOwnProperty", "__lookupGetter__",
    "__lookupSetter__", "isPrototypeOf", "propertyIsEnumerable", "toString", "valueOf", "__proto__",
    "toLocaleString"]

/-- `name in gates`. -/
def IsIn (name : String) (gates : Record String GateConfig) : Prop :=
  name ∈ gates.map Prod.fst ∨ name ∈ inheritedNames

instance (name : String) (gates : Record String GateConfig) : Decidable (IsIn name gates) :=
  inferInstanceAs (Decidable (_ ∨ _))

def checkGateRef (gateRef : Option String) (gates : Record String GateConfig) : Report PUnit :=
  match gateRef with
  | none => report ": missing required field \"gate\"" ⟨⟩
  | some name =>
      if name = "" then report ": \"gate\" must be a non-empty string" ⟨⟩
      else require (IsIn name gates) (": references gate \"" ++ name ++
        "\" which is not defined in the gates section. Defined gates: [" ++
        (if gates = [] then "(none)" else ", ".intercalate (gates.map Prod.fst)) ++ "]")

def parseName (b : Yaml) : Report (Option String) :=
  match b.get "name" with
  | none => pure none
  | some (.string s) => pure (some s)
  | some value => report (": name must be a string, got " ++ typeOf value) none

/-- `Math.max(PRIORITY_MIN, Math.min(PRIORITY_MAX, n))`. -/
def clampPriority (n : YamlNumber) : YamlNumber :=
  if n.Below 1 then .ofNat 1 else if n.Above 999 then .ofNat 999 else n

def parsePriority (b : Yaml) : Report (Option YamlNumber) :=
  match b.get "priority" with
  | none => pure none
  | some (.number n) => pure (some (clampPriority n))
  | some value => report (": priority must be a number, got " ++ typeOf value) none

def parseCondition (syntaxOf : ConditionSyntax) (b : Yaml) : Report (Option String) :=
  match b.get "if" with
  | none => pure none
  | some (.string s) =>
      match syntaxOf s with
      | none | some "" => pure (some s)
      | some syntaxError => report (": invalid condition expression: " ++ syntaxError) none
  | some value => report (": if must be a string, got " ++ typeOf value) none

def parseBindingTimeout (b : Yaml) : Report (Option YamlNumber) :=
  match b.get "timeout" with
  | none => pure none
  | some (.number n) =>
      if n.Above 0 then pure (some n)
      else report (": timeout must be > 0, got " ++ n.text) none
  | some value => report (": timeout must be a number, got " ++ typeOf value) none

def parseBindingFields (syntaxOf : ConditionSyntax) (b : Yaml)
    (gates : Record String GateConfig) : Report HookBindingEntry := do
  let gateRef := optionalString b "gate"
  checkGateRef gateRef gates
  let name ← parseName b
  let priority ← parsePriority b
  let condition ← parseCondition syntaxOf b
  let timeout ← parseBindingTimeout b
  let onFailure ← locate ": " (parseDecision b "on_failure")
  reportUnknownKeys b knownBindingKeys
  return { gate := gateRef.getD "", name, priority, condition, timeout, onFailure }

def parseBinding (syntaxOf : ConditionSyntax) (gates : Record String GateConfig) (raw : Yaml) :
    Report HookBindingEntry :=
  match raw with
  | .object fields => parseBindingFields syntaxOf (.object fields) gates
  | .array items => parseBindingFields syntaxOf (.array items) gates
  | raw => report (" must be an object, got " ++ typeOf raw) { gate := "" }

def parseBindingEntry (syntaxOf : ConditionSyntax) (eventName : String) (idx : Nat) (raw : Yaml)
    (gates : Record String GateConfig) : Report HookBindingEntry :=
  locate ("hooks." ++ eventName ++ "[" ++ toString idx ++ "]") (parseBinding syntaxOf gates raw)

/-- The bindings of one event; an invalid event is reported and left out. -/
def parseEvent (syntaxOf : ConditionSyntax) (gates : Record String GateConfig)
    (entry : String × Yaml) : Report (Record HookPoint (List HookBindingEntry)) :=
  if hpoint : entry.1 ∈ allHookPoints then
    match entry.2 with
    | .array items => do
        let bindings ← items.zipIdx.mapM fun item =>
          parseBindingEntry syntaxOf entry.1 item.2 item.1 gates
        return [(⟨entry.1, hpoint⟩, bindings)]
    | value => report ("hooks." ++ entry.1 ++ " must be an array of binding entries, got " ++
        typeOf value) []
  else report ("hooks." ++ entry.1 ++ ": unknown event name. Valid hook points include: " ++
      ", ".intercalate allHookPoints) []

def parseHookBindings (syntaxOf : ConditionSyntax) (raw : Option Yaml)
    (gates : Record String GateConfig) : Report (Record HookPoint (List HookBindingEntry)) :=
  match raw with
  | none | some .null => pure []
  | some value =>
      if typeOf value = "object" then do
        let hooks ← value.entries.mapM (parseEvent syntaxOf gates)
        return hooks.flatten
      else report ("hooks must be an object, got " ++ typeOf value) []

/-! ## Validating and merging -/

inductive HookConfigError where
  /-- `HookConfigValidationError` -/
  | validation (errors : List String)
  /-- `Error` -/
  | error (message : String)
deriving DecidableEq

/-- The version of a document; one that is no string is replaced without an error. -/
def parseVersion (obj : Yaml) : String := (optionalString obj "version").getD defaultHookVersion

def parseHookConfig (syntaxOf : ConditionSyntax) (obj : Yaml) : Report HookConfig := do
  let settings ← parseSettings (obj.get "settings")
  let gates ← parseGates (obj.get "gates")
  let hooks ← parseHookBindings syntaxOf (obj.get "hooks") gates
  locate "<root>" (reportUnknownKeys obj knownTopKeys)
  return { version := parseVersion obj, settings, gates, hooks }

/-- `validateHookConfig`; errors start with the path of the document, if one is given. -/
def validateHookConfig (syntaxOf : ConditionSyntax) (raw : Yaml) (sourcePath : String := "") :
    Except HookConfigError HookConfig :=
  let lead := if sourcePath = "" then "" else "[" ++ sourcePath ++ "] "
  match raw with
  | .object fields =>
      (locate lead (parseHookConfig syntaxOf (.object fields))).toExcept.mapError
        HookConfigError.validation
  | .array _ => .error (.validation [lead ++ "Config must be a YAML object, got array"])
  | raw => .error (.validation [lead ++ "Config must be a YAML object, got " ++ typeOf raw])

/-- `mergeHooksSection`: the bindings of an event are appended. -/
def mergeHooksSection (base override : Record HookPoint (List HookBindingEntry)) :
    Record HookPoint (List HookBindingEntry) :=
  Record.mergeWith (· ++ ·) base override

/-- The object `mergeHookConfigs` validates. -/
def mergedObject (base override : HookConfig) : Yaml :=
  .object [("version", .string override.version),
    ("settings", .object (Record.spread base.settings.fields override.settings.fields)),
    ("gates", gatesYaml (Record.spread base.gates override.gates)),
    ("hooks", hooksYaml (mergeHooksSection base.hooks override.hooks))]

def mergeHookConfigs (syntaxOf : ConditionSyntax) (base override : HookConfig) :
    Except HookConfigError HookConfig :=
  validateHookConfig syntaxOf (mergedObject base override)

structure HookLayer where
  path : String
  content : Option Yaml

/-- One layer on top of those merged so far; a missing one is skipped. -/
def addLayer (syntaxOf : ConditionSyntax) (merged : Option HookConfig) (layer : HookLayer) :
    Except HookConfigError (Option HookConfig) :=
  match layer.content with
  | none => .ok merged
  | some raw => do
      let config ← validateHookConfig syntaxOf raw layer.path
      match merged with
      | none => return some config
      | some base => return some (← mergeHookConfigs syntaxOf base config)

/-- `loadMergedHookConfig` over a list of layers, the last of which weighs most. -/
def loadMergedHookConfig (syntaxOf : ConditionSyntax) (layers : List HookLayer) :
    Except HookConfigError HookConfig := do
  match ← layers.foldlM (addLayer syntaxOf) none with
  | none => .error (.error ("No hook configuration found. Expected at least one of:\n" ++
      "\n".intercalate (layers.map fun layer => "  - " ++ layer.path)))
  | some merged => validateHookConfig syntaxOf merged.toYaml

end Newide.Hook
