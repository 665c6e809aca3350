import Newide.Gate.Composite
import Newide.Hook.Engine
import Newide.Hook.Revalidation

/-!
# The composite gates of a configuration

The gates that `HookEngine` hands to its scheduler, and what its composite
gates come to under every outcome of the others.
-/

namespace Newide.Hook

open Gate References

def HookConfig.definitions (config : HookConfig) : Record String GateDefinition :=
  Record.ofEntries (Record.mapValues (fun _ gate => toGateDefinition gate) config.gates)

/-- A composite gate of a configuration is decided by its required references exactly when its
references lead into no cycle and the last ones deny where required ones do. -/
theorem composite_decided_iff (outcomes : Outcomes) (config : HookConfig) (request : GateRequest)
    {gateId : String} {definition : GateDefinition}
    (hget : Record.get gateId config.definitions = some definition)
    (htype : definition.type = .composite) :
    DecidesByRequired outcomes config.definitions request gateId definition ↔
      ¬ LeadsToCycle (RefersTo config.definitions) gateId ∧
        LastRequired outcomes config.definitions request definition :=
  decidesByRequired_iff hget htype

/-- A command gate, and a composite one that requires it and mentions it once more. -/
def mentionedTwice : Yaml :=
  .object [("gates", .object [
    ("lint", .object [("type", .string "command"), ("command", .string "lint")]),
    ("all", .object [("type", .string "composite"), ("gates", .array [
      .string "lint",
      .object [("gate", .string "lint"), ("required", .boolean false)]])])])]

def mentionedTwiceConfig : HookConfig where
  version := "hook-0.1"
  settings := defaultHookSettings
  gates := [
    ("lint", { type := .command, command := some "lint" }),
    ("all", { type := .composite, gates := some [⟨"lint", none⟩, ⟨"lint", some false⟩] })]
  hooks := []

def denyAll : Outcomes := fun _ _ _ => .ok { decision := .deny, reason := "" }

def commitRequest : GateRequest :=
  ⟨"all", "pre_commit", "r1", "s1", .ofNat 50, .ofNat 30, []⟩

def mentionedTwiceGate : GateDefinition :=
  toGateDefinition { type := .composite, gates := some [⟨"lint", none⟩, ⟨"lint", some false⟩] }

theorem composite_decided_mentioned_twice :
    DecidesByRequired denyAll mentionedTwiceConfig.definitions commitRequest "all"
        mentionedTwiceGate ↔
      ¬ LeadsToCycle (RefersTo mentionedTwiceConfig.definitions) "all" ∧
        LastRequired denyAll mentionedTwiceConfig.definitions commitRequest mentionedTwiceGate :=
  composite_decided_iff denyAll mentionedTwiceConfig commitRequest (by decide) rfl

/-- A required gate that is mentioned again as an optional one denies in vain. -/
theorem composite_fails_mentioned_twice : ¬ ∀ (syntaxOf : ConditionSyntax) (raw : Yaml)
    (sourcePath : String) (config : HookConfig),
    validateHookConfig syntaxOf raw sourcePath = .ok config →
      ∀ (outcomes : Outcomes) (request : GateRequest) (gateId : String)
        (definition : GateDefinition), Record.get gateId config.definitions = some definition →
          definition.type = .composite →
            DecidesByRequired outcomes config.definitions request gateId definition := by
  intro h
  have haccepted : validateHookConfig (fun _ => none) mentionedTwice = .ok mentionedTwiceConfig := by
    decide +kernel
  obtain ⟨results, result, _, hcomes, _, hdenies⟩ := h (fun _ => none) mentionedTwice "" _ haccepted
    denyAll commitRequest "all" mentionedTwiceGate (by decide) rfl
  have hlint : Denies denyAll mentionedTwiceConfig.definitions commitRequest mentionedTwiceGate
      ⟨"lint", none⟩ := ⟨_, ⟨1, rfl⟩, rfl⟩
  have hdeny := hdenies ⟨"lint", none⟩ (by decide) (fun h => by cases h) hlint
  have hallows : ∃ allowed, Comes denyAll mentionedTwiceConfig.definitions commitRequest "all"
      (.ok allowed) ∧ allowed.decision = .allow := ⟨_, ⟨2, rfl⟩, rfl⟩
  obtain ⟨allowed, hallowed, hallow⟩ := hallows
  rw [Except.ok.inj (hcomes.unique hallowed), hallow] at hdeny
  cases hdeny

end Newide.Hook
