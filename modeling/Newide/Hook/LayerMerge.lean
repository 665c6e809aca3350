import Newide.Hook.Layers

/-!
# Layers that keep what is below

When the layers of a hook configuration come out as the document that
merges them.  Gates and bindings always do.  Two habits of the loader
work against the rest: a layer is validated before the gates below it
are known, and its defaults count as if they had been written down.
-/

namespace Newide.Hook

open Checked Record

variable {syntaxOf : ConditionSyntax}

/-! ## Layers that see the gates below -/

/-- The layers merged into one document. -/
def mergeRawLayers : List Yaml → Option Yaml
  | [] => none
  | first :: rest => some (rest.foldl mergeRaw first)

/-- `parseHookConfig` of a layer whose bindings may also name the gates below it. -/
def parseHookConfigOver (syntaxOf : ConditionSyntax) (lower : Record String GateConfig)
    (obj : Yaml) : Report HookConfig := do
  let settings ← parseSettings (obj.get "settings")
  let gates ← parseGates (obj.get "gates")
  let hooks ← parseHookBindings syntaxOf (obj.get "hooks") (spread lower gates)
  locate "<root>" (reportUnknownKeys obj knownTopKeys)
  return { version := parseVersion obj, settings, gates, hooks }

/-- Each document is acceptable on top of those before it. -/
def Fits (syntaxOf : ConditionSyntax) (lower : Record String GateConfig) : List Yaml → Prop
  | [] => True
  | raw :: rest => (∃ fields, raw = .object fields) ∧ ∃ config : HookConfig,
      (parseHookConfigOver syntaxOf lower raw).Passes config ∧
        Fits syntaxOf (spread lower config.gates) rest

/-- The bindings of a document name gates of the document itself. -/
def OwnGates (raw : Yaml) : Prop :=
  ∀ entry ∈ raw.section "hooks", ∀ item ∈ entry.2.items, ∀ name,
    optionalString item "gate" = some name →
      IsIn name (mapValues gateOf (raw.section "gates"))

variable {lower : Record String GateConfig}

theorem parseHookConfigOver_passes {obj : Yaml}
    {config : HookConfig} : (parseHookConfigOver syntaxOf lower obj).Passes config ↔
      (parseSettings (obj.get "settings")).Passes config.settings ∧
      (parseGates (obj.get "gates")).Passes config.gates ∧
      (parseHookBindings syntaxOf (obj.get "hooks")
        (spread lower config.gates)).Passes config.hooks ∧
      (∀ key ∈ obj.entries.map Prod.fst, key ∈ knownTopKeys) ∧
      config.version = parseVersion obj := by
  unfold parseHookConfigOver
  simp only [passes_bind, passes_locate, passes_reportUnknownKeys, passes_pure]
  constructor
  · rintro ⟨_, hsettings, _, hgates, _, hhooks, _, hknown, rfl⟩
    exact ⟨hsettings, hgates, hhooks, hknown, rfl⟩
  · rintro ⟨hsettings, hgates, hhooks, hknown, hversion⟩
    refine ⟨_, hsettings, _, hgates, _, hhooks, ⟨⟩, hknown, ?_⟩
    rw [← hversion]

theorem parseHookBindings_mono {raw : Option Yaml} {gates gates' : Record String GateConfig}
    {hooks : Record HookPoint (List HookBindingEntry)}
    (h : (parseHookBindings syntaxOf raw gates).Passes hooks)
    (hin : ∀ entry ∈ sectionEntries raw, ∀ item ∈ entry.2.items, ∀ name,
      optionalString item "gate" = some name → IsIn name gates → IsIn name gates') :
    (parseHookBindings syntaxOf raw gates').Passes hooks := by
  obtain ⟨hsectioned, hevents, hnames⟩ := parseHookBindings_iff.mp h
  exact parseHookBindings_iff.mpr
    ⟨hsectioned, fun entry hentry => (hevents entry hentry).mono (hin entry hentry), hnames⟩

theorem isIn_of_parseBinding {gates : Record String GateConfig} {item : Yaml} {name : String}
    (h : (parseBinding syntaxOf gates item).errors = [])
    (hname : optionalString item "gate" = some name) : IsIn name gates := by
  have hfields (h : (parseBindingFields syntaxOf item gates).errors = []) : IsIn name gates := by
    have hpasses := passes_iff.mpr ⟨h, rfl⟩
    unfold parseBindingFields at hpasses
    obtain ⟨_, hgate, _⟩ := passes_bind.mp hpasses
    obtain ⟨other, hother, _, hdefined⟩ := checkGateRef_passes.mp hgate
    rw [hname] at hother
    exact Option.some.inj hother ▸ hdefined
  cases item with
  | object fields => exact hfields h
  | array items => exact hfields h
  | null | boolean b | number n | string s => exact absurd h (by simp [parseBinding, report])

theorem Validates.ownGates {raw : Yaml} {config : HookConfig}
    (h : Validates syntaxOf raw config) : OwnGates raw := by
  obtain ⟨_, _, hpasses⟩ := h
  obtain ⟨_, hgates, hhooks, _⟩ := parseHookConfig_passes.mp hpasses
  obtain ⟨_, _, hnames⟩ := parseGates_iff.mp hgates
  obtain ⟨_, hevents, _⟩ := parseHookBindings_iff.mp hhooks
  intro entry hentry item hitem name hname
  have hdefined := isIn_of_parseBinding ((hevents entry hentry).2.2 item hitem) hname
  exact hnames ▸ hdefined

variable {raws : List Yaml}

theorem fits_of_validates {configs : List HookConfig} (hlower : Record.Distinct lower)
    (h : List.Forall₂ (Validates syntaxOf) raws configs) : Fits syntaxOf lower raws := by
  induction h generalizing lower with
  | nil => trivial
  | @cons raw config raws configs hraw _ ih =>
      obtain ⟨fields, hobject, hpasses⟩ := id hraw
      obtain ⟨hsettings, hgates, hhooks, hknown, hversion⟩ := parseHookConfig_passes.mp hpasses
      have hover : (parseHookBindings syntaxOf (raw.get "hooks")
          (spread lower config.gates)).Passes config.hooks :=
        parseHookBindings_mono hhooks fun _ _ _ _ _ _ hname =>
          IsIn.mono hlower hraw.valid.gates.distinct (.inr hname)
      exact ⟨⟨fields, hobject⟩, config,
        parseHookConfigOver_passes.mpr ⟨hsettings, hgates, hover, hknown, hversion⟩,
        ih (hlower.spread _)⟩

theorem validates_of_fits (hfits : Fits syntaxOf lower raws) (hown : ∀ raw ∈ raws, OwnGates raw) :
    ∃ configs, List.Forall₂ (Validates syntaxOf) raws configs := by
  induction raws generalizing lower with
  | nil => exact ⟨[], .nil⟩
  | cons raw raws ih =>
      obtain ⟨⟨fields, hobject⟩, config, hpasses, hrest⟩ := hfits
      obtain ⟨hsettings, hgates, hhooks, hknown, hversion⟩ :=
        parseHookConfigOver_passes.mp hpasses
      obtain ⟨_, _, hnames⟩ := parseGates_iff.mp hgates
      obtain ⟨configs, hconfigs⟩ := ih hrest fun other hother => hown other (.tail _ hother)
      have hself : (parseHookBindings syntaxOf (raw.get "hooks") config.gates).Passes
          config.hooks :=
        parseHookBindings_mono hhooks fun entry hentry item hitem name hname _ =>
          hnames ▸ hown raw (.head _) entry hentry item hitem name hname
      exact ⟨config :: configs, .cons ⟨fields, hobject,
        parseHookConfig_passes.mpr ⟨hsettings, hgates, hself, hknown, hversion⟩⟩ hconfigs⟩

/-! ## What the loader makes of layers -/

/-- The layers come out as the document that merges them. -/
structure MergesLikeRaw (syntaxOf : ConditionSyntax) (layers : List HookLayer) : Prop where
  /-- A setting has the value of the last layer that sets it, or the default. -/
  settings : ∀ config, loadMergedHookConfig syntaxOf layers = .ok config →
    ∀ key ∈ knownSettingsKeys, get key config.settings.fields =
      (lastIn (present layers) "settings" key).or (get key defaultHookSettings.fields)
  /-- A gate is the one of the last layer that has it. -/
  gates : ∀ config, loadMergedHookConfig syntaxOf layers = .ok config →
    ∀ name, get name config.gates =
      (lastIn (present layers) "gates" name).map (gateOf name)
  /-- The bindings of an event are those of the layers, in their order. -/
  bindings : ∀ config, loadMergedHookConfig syntaxOf layers = .ok config →
    ∀ event : HookPoint, (get event config.hooks).getD [] =
      (present layers).flatMap (bindingsIn syntaxOf · event)
  /-- Validating the merged document gives the same configuration. -/
  merged : ∀ config, loadMergedHookConfig syntaxOf layers = .ok config →
    ∃ raw, mergeRawLayers (present layers) = some raw ∧
      validateHookConfig syntaxOf raw = .ok config
  /-- Layers that are acceptable on top of each other load. -/
  lowerGates : present layers ≠ [] → Fits syntaxOf [] (present layers) →
    ∃ config, loadMergedHookConfig syntaxOf layers = .ok config

/-- Every layer names its own gates, and the last one leaves nothing out that was set below it
to something else than the default. -/
structure KeepsLower (raws : List Yaml) : Prop where
  ownGates : ∀ raw ∈ raws, OwnGates raw
  settings : ∀ last ∈ raws.getLast?, ∀ key ∈ knownSettingsKeys,
    get key (last.section "settings") = none → ∀ value, lastIn raws "settings" key =
      some value → get key defaultHookSettings.fields = some value
  version : ∀ last ∈ raws.getLast?, last.get "version" = none → ∀ s,
    lastVersion raws = some (.string s) → s = defaultHookVersion

theorem lastIn_eq_of_last {last value : Yaml} {key name : String}
    (hlast : raws.getLast? = some last) (hget : get name (last.section key) = some value) :
    lastIn raws key name = some value := by
  obtain ⟨rest, rfl⟩ := List.getLast?_eq_some_iff.mp hlast
  rw [lastIn_snoc, hget]
  rfl

theorem lastVersion_eq_of_last {last value : Yaml}
    (hlast : raws.getLast? = some last) (hget : last.get "version" = some value) :
    lastVersion raws = some value := by
  obtain ⟨rest, rfl⟩ := List.getLast?_eq_some_iff.mp hlast
  rw [lastVersion_snoc, hget]
  rfl

theorem parseVersion_eq_of {a b : Yaml} (h : a.get "version" = b.get "version") :
    parseVersion a = parseVersion b := by
  unfold parseVersion optionalString
  rw [h]

section Loaded

variable {layers : List HookLayer} {config : HookConfig}

theorem validates_of_load (h : loadMergedHookConfig syntaxOf layers = .ok config) :
    ∃ configs, List.Forall₂ (Validates syntaxOf) (present layers) configs := by
  obtain ⟨first, configs, hconfigs, _⟩ := load_eq_ok.mp h
  exact ⟨first :: configs, hconfigs⟩

theorem tracks_of_load (h : loadMergedHookConfig syntaxOf layers = .ok config) :
    ∃ merged, mergeRawLayers (present layers) = some merged ∧
      Tracks syntaxOf (present layers) merged config := by
  obtain ⟨first, configs, hconfigs, rfl⟩ := load_eq_ok.mp h
  obtain ⟨raw, rest, hfirst, hrest, hpresent⟩ := List.forall₂_cons_right_iff.mp hconfigs
  rw [hpresent]
  exact ⟨_, rfl, (Tracks.first hfirst).foldl hrest⟩

variable {merged : Yaml}

/-- The settings of layers that load are those of the merged document when nothing set below
is left out above. -/
theorem Tracks.settings_of_keeps
    (h : Tracks syntaxOf raws merged config) (hkeeps : KeepsLower raws) :
    ∀ key ∈ knownSettingsKeys, get key config.settings.fields =
      (lastIn raws "settings" key).or (get key defaultHookSettings.fields) := by
  obtain ⟨last, hlast, hshows, _⟩ := h.last
  intro key hkey
  rw [hshows key hkey]
  cases hget : get key (last.section "settings") with
  | some value => rw [lastIn_eq_of_last hlast hget]
  | none =>
      cases hlower : lastIn raws "settings" key with
      | none => rfl
      | some value => exact hkeeps.settings last hlast key hkey hget value hlower

theorem Tracks.version_of_keeps
    (h : Tracks syntaxOf raws merged config) (hkeeps : KeepsLower raws) :
    config.version = parseVersion merged := by
  obtain ⟨last, hlast, _, hversion⟩ := h.last
  cases hget : last.get "version" with
  | some value =>
      refine hversion.trans (parseVersion_eq_of ?_)
      rw [h.version, lastVersion_eq_of_last hlast hget, hget]
  | none =>
      have hdefault : config.version = defaultHookVersion := by
        rw [hversion, parseVersion, optionalString, hget]
        rfl
      rw [hdefault, parseVersion, optionalString, h.version]
      split
      next s hlower => exact (hkeeps.version last hlast hget s hlower).symm
      next => rfl

theorem Tracks.bindings (h : Tracks syntaxOf raws merged config) (event : HookPoint) :
    (get event config.hooks).getD [] =
      raws.flatMap (bindingsIn syntaxOf · event) := by
  obtain ⟨_, _, hnames⟩ := parseHookBindings_iff.mp h.hooks
  have hevent : get event.val (hookNames config.hooks) = get event config.hooks :=
    get_mapKeys Subtype.val_injective event
  have hsection : get event.val (hookNames config.hooks) =
      (get event.val (merged.section "hooks")).map (bindingsOf syntaxOf) := by
    rw [← hnames, get_mapValues]
    rfl
  rw [← hevent, hsection, ← h.allHooks]
  rfl

theorem Tracks.gatesOf (h : Tracks syntaxOf raws merged config) (name : String) :
    get name config.gates = (lastIn raws "gates" name).map (gateOf name) := by
  obtain ⟨_, _, hnames⟩ := parseGates_iff.mp h.gates
  rw [← hnames, get_mapValues, ← h.lastGates]
  rfl

theorem Tracks.validates_of_keeps
    (h : Tracks syntaxOf raws merged config) (hkeeps : KeepsLower raws) :
    validateHookConfig syntaxOf merged = .ok config := by
  have hsettings : (parseSettings (merged.get "settings")).Passes config.settings := by
    refine parseSettings_iff.mpr ⟨h.settingsSection, h.settings, fun key hkey => ?_⟩
    rw [h.settings_of_keeps hkeeps key hkey, ← h.lastSettings]
    rfl
  have hknown : ∀ key ∈ merged.entries.map Prod.fst, key ∈ knownTopKeys := fun key hkey =>
    h.known key fun hnone => get_eq_none.mp hnone hkey
  obtain ⟨fields, hobject⟩ := h.object
  exact validateHookConfig_eq_ok.mpr ⟨fields, hobject, parseHookConfig_passes.mpr
    ⟨hsettings, h.gates, h.hooks, hknown, h.version_of_keeps hkeeps⟩⟩

end Loaded

def settingsLayers : List HookLayer := [
  ⟨"base", some (.object [("settings", .object [("fail_fast", .boolean true)])])⟩,
  ⟨"override", some (.object [("settings", .object [("parallel", .boolean true)])])⟩]

end Newide.Hook
