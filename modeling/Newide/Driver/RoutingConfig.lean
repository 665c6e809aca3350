import Newide.Foundation.Records

/-!
# The driver configuration

`src/driver/profile-loader.ts` and the cross checks of
`src/driver/profile.ts`: the layers of configuration files are merged over
a built-in one, the environment has the last word, and every driver that
is referred to must then be defined.  The files hold parsed layers here;
only the generated file of discovered drivers can be unreadable, and is
then ignored.
-/

namespace Newide.Driver

open Record

def legacyDriverId : String := "acp-external"

def defaultAgentId : String := "claude"

structure DriverProfile where
  agent : String
  description : Option String := none
deriving DecidableEq

/-- One file of the configuration; a file declares what it overrides. -/
structure DriverConfigLayer where
  version : Option Nat := none
  defaultDriver : Option String := none
  drivers : Record String DriverProfile := []
  roles : Record String String := []

open DriverConfigLayer

structure DriverConfig where
  version : Option Nat
  defaultDriver : String
  drivers : Record String DriverProfile
  roles : Record String String

/-- `NEWIDE_DRIVER` and `ACP_AGENT_ID`, trimmed; a blank one is absent. -/
structure RoutingEnv where
  newideDriver : Option String := none
  acpAgentId : Option String := none

inductive RolesMode where
  | merge
  | replace

structure RoutingFiles where
  /-- The layers of the user and the project. -/
  manual : List DriverConfigLayer
  /-- The drivers in `drivers.detected.local.yaml`. -/
  detected : Option (Record String DriverProfile)
  /-- `drivers.ui.local.yaml` -/
  ui : Option DriverConfigLayer

/-! ## Merging -/

def builtinLayer (env : RoutingEnv) : DriverConfigLayer where
  version := some 1
  defaultDriver := some legacyDriverId
  drivers := [(legacyDriverId, { agent := env.acpAgentId.getD defaultAgentId })]

def mergeDriverConfigLayers (base override : DriverConfigLayer) (rolesMode : RolesMode := .merge) :
    DriverConfigLayer where
  version := override.version.or base.version
  defaultDriver := override.defaultDriver.or base.defaultDriver
  drivers := spread base.drivers override.drivers
  roles :=
    match rolesMode with
    | .replace => ofEntries override.roles
    | .merge => spread base.roles override.roles

/-- The discovered drivers only complete the others. -/
def mergeDiscoveredDriverConfigLayer (base : DriverConfigLayer)
    (drivers : Record String DriverProfile) : DriverConfigLayer :=
  { base with drivers := fill base.drivers drivers }

/-- What `detectedDriverProfilesSchema` accepts. -/
def readableProfiles (drivers : Record String DriverProfile) : Bool :=
  drivers.all fun entry =>
    entry.1 ≠ "" && entry.2.agent ≠ "" && entry.2.description ≠ some ""

/-- `readDiscoveredLayer`: a file with an entry of another shape counts as missing. -/
def readDiscoveredLayer (detected : Option (Record String DriverProfile)) :
    Option (Record String DriverProfile) :=
  detected.filter readableProfiles

def applyEnvOverlay (layer : DriverConfigLayer) (env : RoutingEnv) : DriverConfigLayer :=
  { layer with
    defaultDriver := env.newideDriver.or layer.defaultDriver
    drivers :=
      match env.acpAgentId, get legacyDriverId layer.drivers with
      | some agent, some legacy => set layer.drivers legacyDriverId { legacy with agent }
      | _, _ => layer.drivers }

def mergeOver (base : DriverConfigLayer) (layers : List DriverConfigLayer) : DriverConfigLayer :=
  layers.foldl (fun merged layer => mergeDriverConfigLayers merged layer) base

def mergeManualLayers (env : RoutingEnv) (manual : List DriverConfigLayer) : DriverConfigLayer :=
  mergeOver (builtinLayer env) manual

/-- All the layers, before the environment overrides them. -/
def mergeFiles (env : RoutingEnv) (files : RoutingFiles) : DriverConfigLayer :=
  let base := mergeManualLayers env files.manual
  let discovered :=
    match readDiscoveredLayer files.detected with
    | some drivers => mergeDiscoveredDriverConfigLayer base drivers
    | none => base
  match files.ui with
  | some layer => mergeDriverConfigLayers discovered layer .replace
  | none => discovered

/-! ## Loading -/

/-- `parseDriverConfigShape` of a merged layer. -/
def parseDriverConfigShape (layer : DriverConfigLayer) : Except (List String) DriverConfig :=
  match layer.defaultDriver with
  | some defaultDriver =>
      .ok { version := layer.version, defaultDriver, drivers := layer.drivers,
            roles := layer.roles }
  | none => .error ["default_driver: Invalid input: expected string, received undefined"]

/-- The errors of `assertReferencesResolve`. -/
def unresolvedReferences (config : DriverConfig) : List String :=
  let defined := config.drivers.map Prod.fst
  let names := ", ".intercalate defined
  let hints := "Defined: [" ++ (if names = "" then "(none)" else names) ++ "]"
  (if config.defaultDriver ∈ defined then [] else
    ["default_driver \"" ++ config.defaultDriver ++ "\" is not defined in drivers. " ++ hints]) ++
  (config.roles.filter fun entry => entry.2 ∉ defined).map fun entry =>
    "roles." ++ entry.1 ++ ": driver \"" ++ entry.2 ++ "\" is not defined in drivers. " ++ hints

def parseDriverConfig (layer : DriverConfigLayer) : Except (List String) DriverConfig := do
  let config ← parseDriverConfigShape layer
  match unresolvedReferences config with
  | [] => pure config
  | errors => throw errors

def synthesize (env : RoutingEnv) (files : RoutingFiles) : DriverConfigLayer :=
  applyEnvOverlay (mergeFiles env files) env

def loadDriverConfig (env : RoutingEnv) (files : RoutingFiles) : Except (List String) DriverConfig :=
  parseDriverConfig (synthesize env files)

/-- `loadManualDriverConfig`: neither discovered drivers nor the routing of the UI. -/
def loadManualDriverConfig (env : RoutingEnv) (manual : List DriverConfigLayer) :
    Except (List String) DriverConfig :=
  parseDriverConfigShape (applyEnvOverlay (mergeManualLayers env manual) env)

def resolveRoleDriver (config : DriverConfig) (roleId : String) :
    Except (List String) (String × DriverProfile) :=
  let driverId := (get roleId config.roles).getD config.defaultDriver
  match get driverId config.drivers with
  | some profile => .ok (driverId, profile)
  | none =>
      let names := ", ".intercalate (config.drivers.map Prod.fst)
      .error ["role \"" ++ roleId ++ "\" resolves to driver \"" ++ driverId ++
        "\", which is not defined in drivers. Defined: [" ++
        (if names = "" then "(none)" else names) ++ "]"]

/-! ## What a layer defines and what it refers to -/

namespace DriverConfigLayer

variable {base upper layer : DriverConfigLayer} {id : String}

def defined (layer : DriverConfigLayer) : List String := layer.drivers.map Prod.fst

def references (layer : DriverConfigLayer) : List String :=
  layer.defaultDriver.toList ++ layer.roles.map Prod.snd

theorem mem_defined_merge (mode : RolesMode) :
    id ∈ (mergeDriverConfigLayers base upper mode).defined ↔ id ∈ base.defined ∨ id ∈ upper.defined :=
  mem_keys_spread id

theorem mem_defined_discovered {drivers : Record String DriverProfile} :
    id ∈ (mergeDiscoveredDriverConfigLayer base drivers).defined ↔
      id ∈ base.defined ∨ id ∈ drivers.map Prod.fst :=
  mem_keys_fill id

theorem mem_defined_overlay (env : RoutingEnv) :
    id ∈ (applyEnvOverlay layer env).defined ↔ id ∈ layer.defined := by
  unfold applyEnvOverlay defined
  dsimp only
  cases env.acpAgentId with
  | none => rfl
  | some agent =>
      cases hlegacy : get legacyDriverId layer.drivers with
      | none => rfl
      | some legacy =>
          dsimp only
          rw [mem_keys_set, or_iff_right_of_imp]
          rintro rfl
          exact mem_keys_iff.mpr (by simp [hlegacy])

end DriverConfigLayer

section Layers

variable {env : RoutingEnv} {base base' layer : DriverConfigLayer}
  {manual other layers : List DriverConfigLayer} {id : String}

@[simp] theorem mergeOver_cons :
    mergeOver base (layer :: layers) = mergeOver (mergeDriverConfigLayers base layer) layers := rfl

theorem mem_defined_mergeOver :
    id ∈ (mergeOver base layers).defined ↔
      id ∈ base.defined ∨ ∃ layer ∈ layers, id ∈ layer.defined := by
  induction layers generalizing base with
  | nil => simp [mergeOver]
  | cons layer rest ih =>
      rw [mergeOver_cons, ih,
        mem_defined_merge]
      simp [or_assoc]

theorem mem_defined_manualLayers :
    id ∈ (mergeManualLayers env manual).defined ↔
      id = legacyDriverId ∨ ∃ layer ∈ manual, id ∈ layer.defined := by
  unfold mergeManualLayers
  rw [mem_defined_mergeOver]
  simp [builtinLayer, defined]

/-- Two layers say the same about the default and the roles. -/
def SameRouting (a b : DriverConfigLayer) : Prop :=
  a.defaultDriver = b.defaultDriver ∧ a.roles = b.roles

theorem SameRouting.references (h : SameRouting base base') : base.references = base'.references := by
  unfold DriverConfigLayer.references
  rw [h.1, h.2]

theorem SameRouting.merge {layer' : DriverConfigLayer} (h : SameRouting base base')
    (hlayer : SameRouting layer layer') (mode : RolesMode) :
    SameRouting (mergeDriverConfigLayers base layer mode)
      (mergeDriverConfigLayers base' layer' mode) := by
  unfold SameRouting mergeDriverConfigLayers
  rw [h.1, h.2, hlayer.1, hlayer.2]
  exact ⟨rfl, rfl⟩

theorem SameRouting.mergeOver (h : SameRouting base base')
    (hlayers : List.Forall₂ SameRouting layers other) :
    SameRouting (mergeOver base layers) (mergeOver base' other) := by
  induction hlayers generalizing base base' with
  | nil => exact h
  | cons hfirst _ ih => exact ih (h.merge hfirst .merge)

theorem SameRouting.overlay (h : SameRouting base base') (env : RoutingEnv) :
    SameRouting (applyEnvOverlay base env) (applyEnvOverlay base' env) := by
  unfold SameRouting applyEnvOverlay
  rw [h.1, h.2]
  exact ⟨rfl, rfl⟩

theorem mergeOver_default (h : ∃ id, base.defaultDriver = some id) :
    ∃ id, (mergeOver base layers).defaultDriver = some id := by
  induction layers generalizing base with
  | nil => exact h
  | cons layer rest ih =>
      refine ih ?_
      obtain ⟨id, hid⟩ := h
      cases hlayer : layer.defaultDriver with
      | none => exact ⟨id, by simp [mergeDriverConfigLayers, hlayer, hid]⟩
      | some other => exact ⟨other, by simp [mergeDriverConfigLayers, hlayer]⟩

end Layers

/-! ## What the files define and what they refer to -/

section Files

variable {env : RoutingEnv} {files files' : RoutingFiles} {config : DriverConfig} {id : String}

def RoutingFiles.discovered (files : RoutingFiles) : List String :=
  ((readDiscoveredLayer files.detected).getD []).map Prod.fst

/-- The ids that the manual layers define, with the built-in one. -/
def RoutingFiles.configured (files : RoutingFiles) : List String :=
  legacyDriverId :: files.manual.flatMap defined

theorem mem_defined_synthesize : id ∈ (synthesize env files).defined ↔
    id ∈ files.configured ∨ id ∈ files.discovered ∨
      ∃ layer, files.ui = some layer ∧ id ∈ layer.defined := by
  have hmanual : id ∈ (mergeManualLayers env files.manual).defined ↔ id ∈ files.configured := by
    rw [mem_defined_manualLayers]
    simp [RoutingFiles.configured]
  unfold synthesize mergeFiles RoutingFiles.discovered
  rw [mem_defined_overlay]
  cases readDiscoveredLayer files.detected with
  | none =>
      cases files.ui with
      | none => simp [hmanual]
      | some layer =>
          simp only [mem_defined_merge, hmanual]
          simp
  | some drivers =>
      cases files.ui with
      | none =>
          simp only [mem_defined_discovered, hmanual]
          simp
      | some layer =>
          simp only [mem_defined_merge, mem_defined_discovered,
            hmanual]
          simp [or_assoc]

theorem sameRouting_synthesize
    (hmanual : List.Forall₂ SameRouting files.manual files'.manual) (hui : files.ui = files'.ui) :
    SameRouting (synthesize env files) (synthesize env files') := by
  have hbase : SameRouting (mergeManualLayers env files.manual)
      (mergeManualLayers env files'.manual) :=
    SameRouting.mergeOver ⟨rfl, rfl⟩ hmanual
  have hdiscovered : ∀ files : RoutingFiles, SameRouting
      (match readDiscoveredLayer files.detected with
        | some drivers =>
            mergeDiscoveredDriverConfigLayer (mergeManualLayers env files.manual) drivers
        | none => mergeManualLayers env files.manual) (mergeManualLayers env files.manual) := by
    intro files
    cases readDiscoveredLayer files.detected with
    | none => exact ⟨rfl, rfl⟩
    | some drivers => exact ⟨rfl, rfl⟩
  have hboth := hdiscovered files
  have hboth' := hdiscovered files'
  refine SameRouting.overlay ?_ env
  unfold mergeFiles
  have hmerged : SameRouting _ _ :=
    ⟨hboth.1.trans (hbase.1.trans hboth'.1.symm), hboth.2.trans (hbase.2.trans hboth'.2.symm)⟩
  rw [← hui]
  cases files.ui with
  | none => exact hmerged
  | some layer => exact hmerged.merge ⟨rfl, rfl⟩ .replace

theorem synthesize_default : ∃ id, (synthesize env files).defaultDriver = some id := by
  have hmanual : ∃ id, (mergeManualLayers env files.manual).defaultDriver = some id :=
    mergeOver_default ⟨legacyDriverId, rfl⟩
  have hmerged : ∃ id, (mergeFiles env files).defaultDriver = some id := by
    obtain ⟨id, hid⟩ := hmanual
    unfold mergeFiles
    cases readDiscoveredLayer files.detected with
    | none =>
        cases files.ui with
        | none => exact ⟨id, hid⟩
        | some layer => exact ⟨layer.defaultDriver.getD id, by
            cases hl : layer.defaultDriver <;> simp [mergeDriverConfigLayers, hid, hl]⟩
    | some drivers =>
        cases files.ui with
        | none => exact ⟨id, hid⟩
        | some layer => exact ⟨layer.defaultDriver.getD id, by
            cases hl : layer.defaultDriver <;>
              simp [mergeDriverConfigLayers, mergeDiscoveredDriverConfigLayer, hid, hl]⟩
  obtain ⟨id, hid⟩ := hmerged
  cases henv : env.newideDriver with
  | none => exact ⟨id, by simp [synthesize, applyEnvOverlay, henv, hid]⟩
  | some other => exact ⟨other, by simp [synthesize, applyEnvOverlay, henv]⟩

theorem unresolvedReferences_eq_nil : unresolvedReferences config = [] ↔
    config.defaultDriver ∈ config.drivers.map Prod.fst ∧
      ∀ id ∈ config.roles.map Prod.snd, id ∈ config.drivers.map Prod.fst := by
  unfold unresolvedReferences
  rw [List.append_eq_nil_iff, List.map_eq_nil_iff, List.filter_eq_nil_iff]
  constructor
  · rintro ⟨hdefault, hroles⟩
    constructor
    · by_contra hnot
      simp [hnot] at hdefault
    · intro id hid
      obtain ⟨entry, hentry, rfl⟩ := List.mem_map.mp hid
      simpa using hroles entry hentry
  · rintro ⟨hdefault, hroles⟩
    refine ⟨by simp [hdefault], fun entry hentry => ?_⟩
    simpa using hroles entry.2 (List.mem_map_of_mem hentry)

theorem parseDriverConfigShape_eq_ok {layer : DriverConfigLayer} :
    parseDriverConfigShape layer = .ok config ↔
      layer.defaultDriver = some config.defaultDriver ∧ config.version = layer.version ∧
        config.drivers = layer.drivers ∧ config.roles = layer.roles := by
  unfold parseDriverConfigShape
  cases hdefault : layer.defaultDriver with
  | none => simp
  | some id =>
      cases config
      simp only [Except.ok.injEq, DriverConfig.mk.injEq, Option.some.injEq]
      constructor
      · rintro ⟨rfl, rfl, rfl, rfl⟩
        exact ⟨rfl, rfl, rfl, rfl⟩
      · rintro ⟨rfl, rfl, rfl, rfl⟩
        exact ⟨rfl, rfl, rfl, rfl⟩

theorem loadDriverConfig_eq_ok : loadDriverConfig env files = .ok config ↔
    parseDriverConfigShape (synthesize env files) = .ok config ∧
      ∀ id ∈ (synthesize env files).references, id ∈ (synthesize env files).defined := by
  unfold loadDriverConfig parseDriverConfig
  cases hshape : parseDriverConfigShape (synthesize env files) with
  | error errors => simp [bind, Except.bind]
  | ok found =>
      obtain ⟨hdefault, _, hdrivers, hroles⟩ := parseDriverConfigShape_eq_ok.mp hshape
      have hresolves : unresolvedReferences found = [] ↔
          ∀ id ∈ (synthesize env files).references, id ∈ (synthesize env files).defined := by
        rw [unresolvedReferences_eq_nil]
        unfold DriverConfigLayer.references defined
        rw [hdefault, hdrivers, hroles]
        simp
      rw [← hresolves]
      simp only [bind, Except.bind]
      cases unresolvedReferences found with
      | nil => simp [pure, Except.pure]
      | cons error rest => simp [throw, throwThe, MonadExceptOf.throw]

theorem loadDriverConfig_isOk : (∃ config, loadDriverConfig env files = .ok config) ↔
    ∀ id ∈ (synthesize env files).references, id ∈ (synthesize env files).defined := by
  constructor
  · rintro ⟨config, hconfig⟩
    exact (loadDriverConfig_eq_ok.mp hconfig).2
  · intro hresolves
    obtain ⟨id, hid⟩ : ∃ id, (synthesize env files).defaultDriver = some id := synthesize_default
    have hshape : ∃ config, parseDriverConfigShape (synthesize env files) = .ok config := by
      unfold parseDriverConfigShape
      rw [hid]
      exact ⟨_, rfl⟩
    obtain ⟨config, hconfig⟩ := hshape
    exact ⟨config, loadDriverConfig_eq_ok.mpr ⟨hconfig, hresolves⟩⟩

theorem mem_drivers (h : loadDriverConfig env files = .ok config) :
    id ∈ config.drivers.map Prod.fst ↔ id ∈ (synthesize env files).defined := by
  obtain ⟨_, _, hdrivers, _⟩ := parseDriverConfigShape_eq_ok.mp (loadDriverConfig_eq_ok.mp h).1
  rw [hdrivers]
  rfl

end Files

end Newide.Driver
