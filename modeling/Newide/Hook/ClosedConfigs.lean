import Newide.Hook.Revalidation

/-!
# What an accepted configuration can rely on

The gates its bindings name, the second validation of what the first one
returned, and the merges of accepted configurations.
-/

namespace Newide.Hook

variable {syntaxOf : ConditionSyntax}

def Accepted (syntaxOf : ConditionSyntax) (config : HookConfig) : Prop :=
  ∃ raw sourcePath, validateHookConfig syntaxOf raw sourcePath = .ok config

variable {config : HookConfig}

theorem Accepted.valid (h : Accepted syntaxOf config) :
    config.Valid syntaxOf := by
  obtain ⟨raw, sourcePath, haccepted⟩ := h
  exact validateHookConfig_valid haccepted

/-- A configuration that defines every gate it refers to. -/
structure HookConfig.Closed (config : HookConfig) : Prop where
  bindings : ∀ event ∈ config.hooks, ∀ entry ∈ event.2, entry.gate ∈ config.gates.map Prod.fst
  subGates : ∀ gate ∈ config.gates, ∀ refs ∈ gate.2.gates, ∀ ref ∈ refs,
    ref.gateId ∈ config.gates.map Prod.fst

/-! ## Gates of bindings -/

theorem Accepted.bindings (h : Accepted syntaxOf config) {event : HookPoint × List HookBindingEntry}
    (hevent : event ∈ config.hooks) {entry : HookBindingEntry} (hentry : entry ∈ event.2)
    (hown : entry.gate ∉ inheritedNames) : entry.gate ∈ config.gates.map Prod.fst := by
  rcases (h.valid.hooks.valid event hevent entry hentry).defined with hdefined | hinherited
  · exact hdefined
  · exact absurd hinherited hown

/-! ## Merges -/

theorem HookConfig.onto_assoc {a b c : HookConfig} (ha : a.Valid syntaxOf)
    (hb : b.Valid syntaxOf) (hc : c.Valid syntaxOf) :
    c.onto (b.onto a) = (c.onto b).onto a := by
  have hgates := Record.spread_assoc ha.gates.distinct hb.gates.distinct hc.gates.distinct
  have hhooks := Record.mergeWith_assoc (f := (· ++ ·)) List.append_assoc ha.hooks.distinct
    hb.hooks.distinct hc.hooks.distinct
  unfold HookConfig.onto mergeHooksSection
  rw [hgates, hhooks]

theorem Accepted.merge {base override : HookConfig} (hbase : Accepted syntaxOf base)
    (hoverride : Accepted syntaxOf override) :
    mergeHookConfigs syntaxOf base override = .ok (override.onto base) :=
  mergeHookConfigs_eq hbase.valid hoverride.valid

theorem Accepted.merge_assoc {a b c : HookConfig} (ha : Accepted syntaxOf a)
    (hb : Accepted syntaxOf b) (hc : Accepted syntaxOf c) :
    (mergeHookConfigs syntaxOf a b >>= fun ab => mergeHookConfigs syntaxOf ab c) =
      mergeHookConfigs syntaxOf b c >>= fun bc => mergeHookConfigs syntaxOf a bc := by
  rw [ha.merge hb, hb.merge hc]
  simp only [bind, Except.bind]
  rw [mergeHookConfigs_eq (ha.valid.onto hb.valid) hc.valid,
    mergeHookConfigs_eq ha.valid (hb.valid.onto hc.valid),
    HookConfig.onto_assoc ha.valid hb.valid hc.valid]

def danglingSubGate : Yaml :=
  .object [("gates", .object [
    ("all", .object [("type", .string "composite"), ("gates", .array [.string "lint"])])])]

def danglingSubGateConfig : HookConfig where
  version := "hook-0.1"
  settings := defaultHookSettings
  gates := [("all", { type := .composite, gates := some [⟨"lint", none⟩] })]
  hooks := []

theorem dangling_sub_gate_accepted :
    validateHookConfig (fun _ => none) danglingSubGate = .ok danglingSubGateConfig := by
  decide +kernel

end Newide.Hook
