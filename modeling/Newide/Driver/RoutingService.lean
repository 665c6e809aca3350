import Mathlib.Data.List.Sort
import Mathlib.Data.String.Basic
import Newide.Driver.RoutingConfig

/-!
# Updates of the driver routing

The critical sections of `src/driver/driver-routing-service.ts` and the
documents of `src/driver/driver-routing-file-store.ts`.  Under the lock of
the directory an update reads the configuration from disk, compares the
revision of what is in force with the one the caller expects, checks every
driver, loads the result once without writing it, writes it and reads it
back.  The digest of a document and its text are parameters; which calls of
the file system fail is part of the input.
-/

namespace Newide.Driver

open Record Rows.Distinct

/-! ## Documents and revisions -/

structure UiDriverRoutingDocument where
  version : Nat := 1
  defaultDriver : String
  roles : Record String String

/-- `compareCodeUnits` of the keys. -/
def keyLe (a b : String × String) : Prop := a.1 ≤ b.1

instance : DecidableRel keyLe := fun a b => inferInstanceAs (Decidable (a.1 ≤ b.1))

instance : Std.Total keyLe := ⟨fun a b => le_total a.1 b.1⟩

instance : IsTrans (String × String) keyLe := ⟨fun _ _ _ hab hbc => le_trans hab hbc⟩

/-- Roles that follow the default are left out, the others are sorted. -/
def normalizeUiDriverRoutingDocument (defaultDriver : String) (roles : Record String String) :
    UiDriverRoutingDocument where
  defaultDriver
  roles := (roles.insertionSort keyLe).filter (·.2 ≠ defaultDriver)

def effectiveUiRoutingDocument (config : DriverConfig) : UiDriverRoutingDocument :=
  normalizeUiDriverRoutingDocument config.defaultDriver config.roles

def UiDriverRoutingDocument.layer (document : UiDriverRoutingDocument) : DriverConfigLayer where
  version := some document.version
  defaultDriver := some document.defaultDriver
  roles := document.roles

/-- `drivers.ui.local.yaml`: its text and the layer it holds. -/
structure UiFile where
  text : String
  layer : DriverConfigLayer

/-- What a deployment fixes: the layers below the UI's and the environment, the digest of a
document (`computeUiRoutingRevision`) and its text (`serializeUiDriverRoutingFile`). -/
structure RoutingSetup where
  manual : List DriverConfigLayer
  detected : Option (Record String DriverProfile) := none
  env : RoutingEnv := {}
  digest : UiDriverRoutingDocument → String
  render : UiDriverRoutingDocument → String

namespace RoutingSetup

variable (setup : RoutingSetup)

def files (ui : Option DriverConfigLayer) : RoutingFiles where
  manual := setup.manual
  detected := setup.detected
  ui

/-- `loadConfig` with the UI layer as given. -/
def loadConfig (ui : Option DriverConfigLayer) : Except (List String) DriverConfig :=
  loadDriverConfig setup.env (setup.files ui)

def revisionOf (config : DriverConfig) : String :=
  setup.digest (effectiveUiRoutingDocument config)

def uiFile (document : UiDriverRoutingDocument) : UiFile where
  text := setup.render document
  layer := document.layer

end RoutingSetup

/-! ## Errors -/

inductive DriverRoutingErrorCode where
  | revisionMismatch
  | driverNotFound
  | driverNotSelectable
  | defaultDriverLocked
  | configBusy
  | writeFailed

structure DriverRoutingError where
  code : DriverRoutingErrorCode
  message : String
  currentRevision : Option String := none
  field : Option String := none
  driverId : Option String := none
  lockedDriverId : Option String := none
  reasonCode : Option String := none
  limitations : Option (List String) := none
  pathCategory : Option String := none
  errorSummary : Option String := none

def revisionMismatch (current : String) : DriverRoutingError where
  code := .revisionMismatch
  message := "Driver routing revision does not match the current configuration"
  currentRevision := some current

def driverNotFound (field driverId : String) : DriverRoutingError where
  code := .driverNotFound
  message := "Unknown driver \"" ++ driverId ++ "\""
  field := some field
  driverId := some driverId

def defaultDriverLocked (lockedDriverId requestedDriverId : String) : DriverRoutingError where
  code := .defaultDriverLocked
  message := "default_driver is locked to \"" ++ lockedDriverId ++ "\" by NEWIDE_DRIVER"
  field := some "default_driver"
  driverId := some requestedDriverId
  lockedDriverId := some lockedDriverId

def writeFailed (summary : String) : DriverRoutingError where
  code := .writeFailed
  message := "Failed to persist driver routing configuration"
  pathCategory := some "project_agent_dir"
  errorSummary := some summary

def configBusy (summary : String) : DriverRoutingError where
  code := .configBusy
  message := "Driver routing configuration is being updated by another writer"
  pathCategory := some "project_agent_dir"
  errorSummary := some summary

/-! ## Checks -/

/-- `DriverRoutingDriverAvailability` -/
structure DriverAvailability where
  selectable : Bool
  reasonCode : Option String := none
  limitations : Option (List String) := none

/-- What the process knows about its drivers when a call checks them. -/
structure DriverProjection where
  hasRuntime : String → Bool
  projectAvailability : String → DriverProfile → DriverAvailability
  /-- The reason code of `registryFailureOf`. -/
  registryFailureOf : String → Option String := fun _ => none

def assertSelectable (drivers : DriverProjection) (field driverId : String)
    (profile : DriverProfile) : Except DriverRoutingError Unit :=
  let availability := drivers.projectAvailability driverId profile
  let hasRuntime := drivers.hasRuntime driverId
  if hasRuntime && availability.selectable then .ok ()
  else
    .error
      { code := .driverNotSelectable
        message := "Driver \"" ++ driverId ++ "\" is not selectable"
        field := some field
        driverId := some driverId
        reasonCode :=
          if hasRuntime then availability.reasonCode
          else some ((drivers.registryFailureOf driverId).getD "DRIVER_RUNTIME_NOT_CONFIGURED")
        limitations := availability.limitations }

def assertDriver (drivers : DriverProjection) (config : DriverConfig) (field driverId : String) :
    Except DriverRoutingError Unit :=
  match get driverId config.drivers with
  | none => .error (driverNotFound field driverId)
  | some profile => assertSelectable drivers field driverId profile

structure UpdateDriverRoutingInput where
  expectedRevision : String
  defaultDriver : String
  roles : Record String String := []
  distinct : Record.Distinct roles

namespace RoutingSetup

variable (setup : RoutingSetup)

def assertRevision (expectedRevision : String) (config : DriverConfig) :
    Except DriverRoutingError Unit :=
  if expectedRevision = setup.revisionOf config then .ok ()
  else .error (revisionMismatch (setup.revisionOf config))

/-- `NEWIDE_DRIVER` decides the default; another one would have no effect. -/
def assertUnlocked (defaultDriver : String) : Except DriverRoutingError Unit :=
  match setup.env.newideDriver with
  | some locked =>
      if defaultDriver = locked then .ok () else .error (defaultDriverLocked locked defaultDriver)
  | none => .ok ()

/-- `loadConfigSafely` with another UI layer, before anything is written. -/
def assertLoads (ui : Option DriverConfigLayer) : Except DriverRoutingError Unit :=
  match setup.loadConfig ui with
  | .ok _ => .ok ()
  | .error _ => .error (writeFailed "DriverConfigError")

/-- The checks of `updateRouting`, and the document it then writes. -/
def checkUpdate (drivers : DriverProjection) (diskConfig : DriverConfig)
    (input : UpdateDriverRoutingInput) : Except DriverRoutingError UiDriverRoutingDocument := do
  setup.assertRevision input.expectedRevision diskConfig
  setup.assertUnlocked input.defaultDriver
  assertDriver drivers diskConfig "default_driver" input.defaultDriver
  input.roles.forM fun entry =>
    assertDriver drivers diskConfig ("roles." ++ entry.1) entry.2
  let document := normalizeUiDriverRoutingDocument input.defaultDriver input.roles
  setup.assertLoads (some document.layer)
  pure document

/-- The checks of `resetRouting`. -/
def checkReset (diskConfig : DriverConfig) (expectedRevision : String) :
    Except DriverRoutingError Unit := do
  setup.assertRevision expectedRevision diskConfig
  setup.assertLoads none

/-! ## Critical sections -/

end RoutingSetup

/-- Which calls of the file system fail: the write or the removal, the reading back, and the
restoring after it. -/
structure FileFaults where
  write : Bool := false
  reload : Bool := false
  restore : Bool := false

/-- What a critical section leaves: the file, the configuration in memory, and its error. -/
structure SectionEnd where
  ui : Option UiFile
  memory : DriverConfig
  error : Option DriverRoutingError

namespace RoutingSetup

variable (setup : RoutingSetup)

/-- The file is replaced (or removed), read back, and restored if it cannot be read. -/
def install (ui next : Option UiFile) (diskConfig : DriverConfig) (faults : FileFaults) :
    SectionEnd :=
  if faults.write then
    ⟨ui, diskConfig, some (writeFailed "Failed to stage UI driver routing file")⟩
  else
    match if faults.reload then .error [] else setup.loadConfig (next.map UiFile.layer) with
    | .ok config => ⟨next, config, none⟩
    | .error _ =>
        ⟨if faults.restore then next else ui, diskConfig, some (writeFailed "DriverConfigError")⟩

/-- The critical section of `updateRouting`. -/
def updateSection (drivers : DriverProjection) (input : UpdateDriverRoutingInput)
    (faults : FileFaults) (ui : Option UiFile) (memory : DriverConfig) : SectionEnd :=
  match setup.loadConfig (ui.map UiFile.layer) with
  | .error _ => ⟨ui, memory, some (writeFailed "DriverConfigError")⟩
  | .ok diskConfig =>
      match setup.checkUpdate drivers diskConfig input with
      | .error e => ⟨ui, diskConfig, some e⟩
      | .ok document => setup.install ui (some (setup.uiFile document)) diskConfig faults

/-- The critical section of `resetRouting`; a missing file is not removed. -/
def resetSection (expectedRevision : String) (faults : FileFaults) (ui : Option UiFile)
    (memory : DriverConfig) : SectionEnd :=
  match setup.loadConfig (ui.map UiFile.layer) with
  | .error _ => ⟨ui, memory, some (writeFailed "DriverConfigError")⟩
  | .ok diskConfig =>
      match setup.checkReset diskConfig expectedRevision with
      | .error e => ⟨ui, diskConfig, some e⟩
      | .ok _ =>
          setup.install ui none diskConfig { faults with write := faults.write && ui.isSome }

end RoutingSetup

/-! ## Normal documents -/

section Documents

variable {defaultDriver : String} {roles : Record String String}

theorem normalize_distinct (h : Record.Distinct roles) :
    Record.Distinct (normalizeUiDriverRoutingDocument defaultDriver roles).roles :=
  (of_perm (List.perm_insertionSort keyLe roles).symm h).filter _

theorem normalize_normalize :
    normalizeUiDriverRoutingDocument defaultDriver
        (normalizeUiDriverRoutingDocument defaultDriver roles).roles =
      normalizeUiDriverRoutingDocument defaultDriver roles := by
  unfold normalizeUiDriverRoutingDocument
  dsimp only
  have hsorted : ((roles.insertionSort keyLe).filter (·.2 ≠ defaultDriver)).Pairwise keyLe :=
    (List.pairwise_insertionSort keyLe roles).filter _
  rw [hsorted.insertionSort_eq, List.filter_filter]
  simp

theorem get_normalize (h : Record.Distinct roles) (roleId : String) :
    get roleId (normalizeUiDriverRoutingDocument defaultDriver roles).roles =
      (get roleId roles).filter (· ≠ defaultDriver) := by
  have hperm := List.perm_insertionSort keyLe roles
  have hsorted : Record.Distinct (roles.insertionSort keyLe) := of_perm hperm.symm h
  unfold normalizeUiDriverRoutingDocument Record.get
  dsimp only
  rw [hsorted.lookup_filter, lookup_perm hperm.symm h roleId]
  cases Rows.lookup Prod.fst roleId (roles.insertionSort keyLe) with
  | none => rfl
  | some entry =>
      by_cases hvalue : entry.2 = defaultDriver
      · simp [Option.filter, hvalue]
      · simp [Option.filter, hvalue]

theorem resolve_normalize (h : Record.Distinct roles) (roleId : String) :
    (get roleId (normalizeUiDriverRoutingDocument defaultDriver roles).roles).getD defaultDriver =
      (get roleId roles).getD defaultDriver := by
  rw [get_normalize h]
  cases get roleId roles with
  | none => rfl
  | some driverId =>
      by_cases hvalue : driverId = defaultDriver
      · simp [Option.filter, hvalue]
      · simp [Option.filter, hvalue]

end Documents

end Newide.Driver
