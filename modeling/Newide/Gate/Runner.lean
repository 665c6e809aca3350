import Newide.Gate.Scheduler
import Newide.Hook.Loader

/-!
# Gate runners

What the runners of `src/gate/runner.ts` share: how a result is built, how a
severity becomes a decision, and what a failure counts as.  The audit
references of results are left out.
-/

namespace Newide.Gate

open Hook

structure Verdict where
  decision : GateDecision
  reason : String
  requiredActions : List String := []
  targetState : String := ""

/-- `BaseGateRunner.buildResult`. -/
def buildResult (gateId : String) (request : GateRequest) (verdict : Verdict) : GateResult where
  gateId := gateId
  gatePoint := request.gatePoint
  requestId := some request.requestId
  decision := verdict.decision
  reason := verdict.reason
  requiredActions := verdict.requiredActions
  targetState := some verdict.targetState

/-- `outputConfig.on_fail ?? 'deny'`. -/
def GateDefinition.onFail (definition : GateDefinition) : GateDecision :=
  definition.outputConfig.onFail.getD .deny

/-- The decision of its name, as `VALID_DECISIONS` has it. -/
def decisionNamed (name : String) : Option GateDecision :=
  validDecisions.find? fun decision => decision.text = name

/-! ## Texts -/

/-- The texts of the platform: lower case, `${n + 1}` and `${n * 1000}`. -/
structure RunnerTexts where
  lower : String → String
  next : YamlNumber → String
  inMs : YamlNumber → String

/-- `text.includes(part)`. -/
def includes (text part : String) : Bool := decide (part.toList <:+: text.toList)

/-- The white space and line terminators that `trim` takes off. -/
def isTrimmed (c : Char) : Bool :=
  [0x09, 0x0a, 0x0b, 0x0c, 0x0d, 0x20, 0xa0, 0x1680, 0x2028, 0x2029, 0x202f, 0x205f, 0x3000,
    0xfeff].contains c.toNat || decide (0x2000 ≤ c.toNat ∧ c.toNat ≤ 0x200a)

/-- `text.trim()`. -/
def trim (text : List Char) : List Char :=
  ((text.dropWhile isTrimmed).reverse.dropWhile isTrimmed).reverse

/-! ## Severities -/

/-- The defaults of `mapSeverity`. -/
def severityDefaults : Record String GateDecision := [
  ("error", .deny), ("critical", .deny), ("high", .deny), ("warning", .ask), ("moderate", .ask),
  ("info", .allow), ("low", .allow)]

/-- `table[key]`, where a key that every object inherits gives something that is no decision. -/
def lookUp (table : Record String GateDecision) (key : String) : Option (Option GateDecision) :=
  match Record.get key table with
  | some decision => some (some decision)
  | none => if key ∈ inheritedNames then some none else none

/-- `BaseGateRunner.mapSeverity`; `none` is what an object inherits under the severity. -/
def mapSeverity (lower : String → String) (severity : String) (config : GateOutputConfig) :
    Option GateDecision :=
  match config.severityMap.bind fun table => lookUp table severity with
  | some mapped => mapped
  | none => (lookUp severityDefaults (lower severity)).getD (some .allow)

/-! ## Numbers of attempts -/

variable {n : YamlNumber}

theorem atLeast_mono {p q : Rat} (hle : p ≤ q) (h : n.AtLeast q) : n.AtLeast p := by
  unfold YamlNumber.AtLeast at h ⊢
  cases hvalue : n.value with
  | nan =>
      rw [hvalue] at h
      exact h
  | infinite negative =>
      rw [hvalue] at h
      exact h
  | finite r =>
      rw [hvalue] at h
      exact Rat.le_trans hle h

theorem above_of_atLeast {p q : Rat} (hlt : p < q) (h : n.AtLeast q) : n.Above p := by
  unfold YamlNumber.AtLeast at h
  unfold YamlNumber.Above
  cases hvalue : n.value with
  | nan =>
      rw [hvalue] at h
      exact h
  | infinite negative =>
      rw [hvalue] at h
      exact h
  | finite r =>
      rw [hvalue] at h
      exact Rat.not_le.mp fun hle => Rat.not_le.mpr hlt (Rat.le_trans h hle)

theorem attempt_mono {i j : Nat} (hle : i ≤ j) (h : n.AtLeast j) : n.AtLeast i :=
  atLeast_mono (Rat.natCast_le_natCast.mpr hle) h

theorem attempt_above {i : Nat} (h : n.AtLeast (i + 1 : Nat)) : n.Above i :=
  above_of_atLeast (Rat.natCast_lt_natCast.mpr i.lt_succ_self) h

end Newide.Gate
