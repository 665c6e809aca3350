import Newide.Core
import Newide.Driver.RoutingConfig

/-!
# The catalog of discovered drivers

`src/driver/driver-discovery-catalog.ts` and a round of
`src/driver/driver-discovery-service.ts`: a probe finds agents, each under
the id of the configured driver that uses it or under a generated id; what
a round no longer finds stays as stale unless its agent was found under
another id.  A round ends with two files: the profiles of the discovered
drivers, and the records, from which the next process starts.
-/

namespace Newide.Driver

open Record

inductive DriverConnectionType where
  | acp
  | pty
deriving DecidableEq

inductive DriverProbeStatus where
  | ready
  | failed
  | unavailable
  | stale

inductive DriverDiscoveryStatus where
  | ready
  | stale
  | failed
  | unsupported
deriving DecidableEq

/-- Whether an id comes from a configuration layer or was made from an agent. -/
inductive DriverSource where
  | configured
  | discovered
deriving DecidableEq

/-- What the probe says about one agent. -/
structure DriverProbe where
  agentId : String
  displayName : String
  provenance : String
  connectionType : DriverConnectionType := .acp
  agentVersion : Option String := none
  probedAt : String

structure DriverDiscoveryRecord where
  driverId : String
  agentId : String
  displayName : Option String := none
  connectionType : DriverConnectionType
  provenance : Option String := none
  probedAt : Option String := none
  agentVersion : Option String := none
  source : DriverSource
  status : DriverDiscoveryStatus
  reasonCode : Option String := none
  runtimeRegistered : Bool

open DriverDiscoveryRecord

def driverDiscoveryStale : String := "DRIVER_DISCOVERY_STALE"

def driverConnectionTypeUnsupported : String := "DRIVER_CONNECTION_TYPE_UNSUPPORTED"

/-- The service of the probe failed: its module is missing, or it ran and failed. -/
inductive ProbeFailure where
  | unavailable
  | failed

/-! ## Ids of discovered agents -/

/-- `toLowerCase` and the first eight digits of a `sha256`. -/
structure AgentNaming where
  toLowerCase : String → String
  shortHash : String → String

/-- Runs of other characters become one hyphen. -/
def foldAgentId : List Char → List Char
  | [] => []
  | c :: rest =>
      let folded := foldAgentId rest
      if ('a' ≤ c ∧ c ≤ 'z') ∨ ('0' ≤ c ∧ c ≤ '9') then c :: folded
      else if folded.head? = some '-' then folded else '-' :: folded

def normalizeAgentId (naming : AgentNaming) (agentId : String) : String :=
  let folded := (foldAgentId (naming.toLowerCase agentId).toList).dropWhile (· = '-')
  let trimmed := (folded.reverse.dropWhile (· = '-')).reverse
  if trimmed = [] then "agent" else String.ofList trimmed

def driverIdForDiscoveredAgent (naming : AgentNaming) (agentId : String) : String :=
  "discovered:" ++ normalizeAgentId naming agentId ++ "-" ++ naming.shortHash agentId

/-! ## The catalog -/

structure DriverDiscoveryCatalog where
  /-- By driver id. -/
  records : Record String DriverDiscoveryRecord := []
  probeStatus : DriverProbeStatus := .stale
  /-- Whether the runtime of a driver is registered. -/
  runtimeStates : Record String Bool := []

/-- `configuredDriverIdsByAgent`: of several profiles of one agent the smallest id. -/
def configuredDriverId (configured : Record String DriverProfile) (agentId : String) :
    Option String :=
  ((configured.insertionSort fun a b => a.1 ≤ b.1).find? (·.2.agent = agentId)).map Prod.fst

def DriverProbe.driverId (naming : AgentNaming) (configured : Record String DriverProfile)
    (probe : DriverProbe) : String :=
  (configuredDriverId configured probe.agentId).getD (driverIdForDiscoveredAgent naming probe.agentId)

def DriverProbe.record (naming : AgentNaming) (configured : Record String DriverProfile)
    (runtimeStates : Record String Bool) (probe : DriverProbe) : DriverDiscoveryRecord where
  driverId := probe.driverId naming configured
  agentId := probe.agentId
  displayName := some probe.displayName
  connectionType := probe.connectionType
  provenance := some probe.provenance
  probedAt := some probe.probedAt
  agentVersion := truthy probe.agentVersion
  source := if (configuredDriverId configured probe.agentId).isSome then .configured else .discovered
  status := if probe.connectionType = .acp then .ready else .unsupported
  reasonCode := if probe.connectionType = .acp then none else some driverConnectionTypeUnsupported
  runtimeRegistered := (get (probe.driverId naming configured) runtimeStates).getD false

def DriverDiscoveryRecord.markStale (record : DriverDiscoveryRecord) : DriverDiscoveryRecord :=
  { record with status := .stale, reasonCode := some driverDiscoveryStale }

def foundRecords (naming : AgentNaming) (configured : Record String DriverProfile)
    (runtimeStates : Record String Bool) (probes : List DriverProbe) :
    Record String DriverDiscoveryRecord :=
  ofEntries (probes.map fun probe =>
    (probe.driverId naming configured, probe.record naming configured runtimeStates))

/-- `merge` -/
def mergeProbe (naming : AgentNaming) (configured : Record String DriverProfile)
    (probes : List DriverProbe) (catalog : DriverDiscoveryCatalog) : DriverDiscoveryCatalog :=
  let found := foundRecords naming configured catalog.runtimeStates probes
  let seenAgents := probes.map DriverProbe.agentId
  { catalog with
    records := catalog.records.foldl (fun next entry =>
      if (get entry.1 next).isSome ∨ entry.2.agentId ∈ seenAgents then next
      else set next entry.1 entry.2.markStale) found
    probeStatus := .ready }

def markProbeFailure (failure : ProbeFailure) (catalog : DriverDiscoveryCatalog) :
    DriverDiscoveryCatalog :=
  { catalog with
    records := mapValues (fun _ record =>
      if record.source = .discovered then record.markStale else record) catalog.records
    probeStatus :=
      match failure with
      | .unavailable => .unavailable
      | .failed => .failed }

def recordRuntimeFailure (driverId reasonCode : String) (catalog : DriverDiscoveryCatalog) :
    DriverDiscoveryCatalog :=
  let runtimeStates := set catalog.runtimeStates driverId false
  match get driverId catalog.records with
  | none => { catalog with runtimeStates }
  | some record =>
      -- what discovery says about a driver is not overwritten by its runtime
      let next :=
        if record.status = .stale ∨ record.status = .unsupported then
          { record with runtimeRegistered := false }
        else
          { record with
            status := .failed, reasonCode := some reasonCode, runtimeRegistered := false }
      { catalog with runtimeStates, records := set catalog.records driverId next }

def recordRuntimeRegistered (driverId : String) (catalog : DriverDiscoveryCatalog) :
    DriverDiscoveryCatalog :=
  let runtimeStates := set catalog.runtimeStates driverId true
  match get driverId catalog.records with
  | none => { catalog with runtimeStates }
  | some record =>
      let next :=
        if record.status = .failed then
          { record with status := .ready, reasonCode := none, runtimeRegistered := true }
        else { record with runtimeRegistered := true }
      { catalog with runtimeStates, records := set catalog.records driverId next }

def DriverDiscoveryRecord.profile? (record : DriverDiscoveryRecord) :
    Option (String × DriverProfile) :=
  if record.source = .discovered then
    some (record.driverId, { agent := record.agentId, description := truthy record.displayName })
  else none

def discoveredProfiles (records : Record String DriverDiscoveryRecord) :
    Record String DriverProfile :=
  ofEntries (records.filterMap fun entry => entry.2.profile?)

/-! ## A round of discovery -/

structure DiscoveryRegistry where
  /-- `registerDiscovered`: the reason code of a failure. -/
  registerDiscovered : String → DriverProfile → Option String
  hasRuntime : String → Bool

def registerRuntimes (registry : DiscoveryRegistry) (configured : Record String DriverProfile)
    (catalog : DriverDiscoveryCatalog) : DriverDiscoveryCatalog :=
  let registered := (discoveredProfiles catalog.records).foldl (fun catalog entry =>
    if (get entry.1 catalog.records).any (·.status = .unsupported) then
      recordRuntimeFailure entry.1 driverConnectionTypeUnsupported catalog
    else
      match registry.registerDiscovered entry.1 entry.2 with
      | none => recordRuntimeRegistered entry.1 catalog
      | some reasonCode => recordRuntimeFailure entry.1 reasonCode catalog) catalog
  configured.foldl (fun catalog entry =>
    if (get entry.1 catalog.records).any (·.source = .configured) ∧ registry.hasRuntime entry.1 then
      recordRuntimeRegistered entry.1 catalog
    else catalog) registered

/-- `driver-discovery.json` -/
structure DriverDiscoveryStateDocument where
  probeStatus : DriverProbeStatus
  drivers : List DriverDiscoveryRecord

structure DiscoveryFiles where
  detected : Option (Record String DriverProfile) := none
  state : Option DriverDiscoveryStateDocument := none

/-- `snapshot`: the records by id. -/
def DriverDiscoveryCatalog.snapshot (catalog : DriverDiscoveryCatalog) :
    DriverDiscoveryStateDocument where
  probeStatus := catalog.probeStatus
  drivers := (catalog.records.map Prod.snd).insertionSort fun a b => a.driverId ≤ b.driverId

/-- `persist`: no file of profiles is made for no profiles. -/
def persistDiscovery (catalog : DriverDiscoveryCatalog) (files : DiscoveryFiles) :
    DiscoveryFiles where
  detected :=
    let profiles := discoveredProfiles catalog.records
    if profiles ≠ [] ∨ files.detected.isSome then some profiles else files.detected
  state := some catalog.snapshot

/-- What `driverDiscoveryStateDocumentSchema` accepts of a record. -/
def DriverDiscoveryRecord.readable (record : DriverDiscoveryRecord) : Bool :=
  record.driverId ≠ "" && record.agentId ≠ "" && record.displayName ≠ some "" &&
    record.provenance ≠ some "" && record.probedAt ≠ some "" && record.agentVersion ≠ some "" &&
    record.reasonCode ≠ some ""

/-- `createDriverDiscoveryRuntime`: the catalog of a new process; an unreadable file counts as
missing. -/
def createDriverDiscoveryRuntime (files : DiscoveryFiles) : DriverDiscoveryCatalog :=
  match files.state.filter fun state => state.drivers.all readable with
  | some state =>
      { records := ofEntries (state.drivers.map fun record => (record.driverId, record))
        probeStatus := state.probeStatus }
  | none => {}

def applyProbe (naming : AgentNaming) (configured : Record String DriverProfile)
    (probe : Except ProbeFailure (List DriverProbe)) (catalog : DriverDiscoveryCatalog) :
    DriverDiscoveryCatalog :=
  match probe with
  | .ok probes => mergeProbe naming configured probes catalog
  | .error failure => markProbeFailure failure catalog

/-- `run`: the probe, the registry if it is attached, and the files. -/
def discoveryRound (naming : AgentNaming) (configured : Record String DriverProfile)
    (probe : Except ProbeFailure (List DriverProbe)) (registry : Option DiscoveryRegistry)
    (catalog : DriverDiscoveryCatalog) (files : DiscoveryFiles) :
    DriverDiscoveryCatalog × DiscoveryFiles :=
  let merged := applyProbe naming configured probe catalog
  let registered := registry.elim merged (registerRuntimes · configured merged)
  (registered, persistDiscovery registered files)

/-! ## The records of a catalog -/

/-- Every record lies under its own id, one an id. -/
structure WellKeyed (records : Record String DriverDiscoveryRecord) : Prop where
  distinct : Distinct records
  keyed : ∀ entry ∈ records, entry.2.driverId = entry.1

variable {naming : AgentNaming} {configured : Record String DriverProfile}
  {runtimeStates : Record String Bool} {probes : List DriverProbe}
  {catalog : DriverDiscoveryCatalog} {records : Record String DriverDiscoveryRecord}
  {record : DriverDiscoveryRecord} {id : String}

theorem WellKeyed.nil : WellKeyed [] := ⟨Rows.Distinct.nil, by simp⟩

theorem WellKeyed.get_driverId (h : WellKeyed records) (hget : get id records = some record) :
    record.driverId = id :=
  h.keyed _ (get_eq_some_mem hget)

theorem WellKeyed.ofEntries {entries : List (String × DriverDiscoveryRecord)}
    (h : ∀ entry ∈ entries, entry.2.driverId = entry.1) : WellKeyed (ofEntries entries) where
  distinct := distinct_ofEntries entries
  keyed entry hentry := by
    rcases mem_spread Rows.Distinct.nil hentry with hnil | hmem
    · cases hnil
    · exact h entry hmem

theorem WellKeyed.mapValues (h : WellKeyed records)
    {f : String → DriverDiscoveryRecord → DriverDiscoveryRecord}
    (hf : ∀ id record, (f id record).driverId = record.driverId) :
    WellKeyed (mapValues f records) where
  distinct := h.distinct.mapValues f
  keyed entry hentry := by
    obtain ⟨old, hold, rfl⟩ := List.mem_map.mp hentry
    exact (hf _ _).trans (h.keyed old hold)

theorem WellKeyed.set (h : WellKeyed records) (hid : record.driverId = id) :
    WellKeyed (set records id record) where
  distinct := h.distinct.set id record
  keyed entry hentry := by
    rcases mem_set h.distinct hentry with rfl | hmem
    · exact hid
    · exact h.keyed entry hmem

theorem profile?_key (h : WellKeyed records) :
    ∀ entry ∈ records, ∀ out, entry.2.profile? = some out → out.1 = entry.1 := by
  intro entry hentry out hout
  unfold profile? at hout
  split at hout
  · cases hout
    exact h.keyed entry hentry
  · cases hout

theorem discoveredProfiles_eq (h : WellKeyed records) :
    discoveredProfiles records = records.filterMap fun entry => entry.2.profile? :=
  (h.distinct.filterMap (profile?_key h)).ofEntries

theorem get_discoveredProfiles (h : WellKeyed records) (id : String) :
    get id (discoveredProfiles records) =
      ((get id records).bind fun record => record.profile?.map Prod.snd) := by
  rw [discoveredProfiles_eq h]
  exact get_filterMap h.distinct (profile?_key h) id

theorem mem_discoveredProfiles (h : WellKeyed records) :
    id ∈ (discoveredProfiles records).map Prod.fst ↔
      ∃ record, get id records = some record ∧ record.source = .discovered := by
  rw [mem_keys_iff, get_discoveredProfiles h]
  cases hget : get id records with
  | none => simp
  | some record =>
      unfold profile?
      by_cases hsource : record.source = .discovered
      · simp [hsource]
      · simp [hsource]

/-! ## The records after a probe -/

/-- What a round makes of an old record: nothing when its agent was found. -/
def keepUnseen (probes : List DriverProbe) (entry : String × DriverDiscoveryRecord) :
    Option (String × DriverDiscoveryRecord) :=
  if entry.2.agentId ∈ probes.map DriverProbe.agentId then none
  else some (entry.1, entry.2.markStale)

theorem keepUnseen_key :
    ∀ entry ∈ records, ∀ out, keepUnseen probes entry = some out → out.1 = entry.1 := by
  intro entry _ out hout
  unfold keepUnseen at hout
  split at hout
  · cases hout
  · cases hout
    rfl

theorem mergeProbe_records :
    (mergeProbe naming configured probes catalog).records =
      fill (foundRecords naming configured catalog.runtimeStates probes)
        (catalog.records.filterMap (keepUnseen probes)) := by
  unfold mergeProbe
  dsimp only
  generalize foundRecords naming configured catalog.runtimeStates probes = base
  induction catalog.records generalizing base with
  | nil => rfl
  | cons entry rest ih =>
      rw [List.foldl_cons, ih]
      by_cases hseen : entry.2.agentId ∈ probes.map DriverProbe.agentId
      · have hkeep : keepUnseen probes entry = none := if_pos hseen
        rw [List.filterMap_cons_none hkeep, if_pos (.inr hseen)]
      · have hkeep : keepUnseen probes entry = some (entry.1, entry.2.markStale) := if_neg hseen
        rw [List.filterMap_cons_some hkeep, fill_cons]
        simp only [hseen, or_false]

theorem wellKeyed_found : WellKeyed (foundRecords naming configured runtimeStates probes) := by
  refine WellKeyed.ofEntries fun entry hentry => ?_
  obtain ⟨probe, _, rfl⟩ := List.mem_map.mp hentry
  rfl

theorem get_mergeProbe (h : WellKeyed catalog.records) (id : String) :
    get id (mergeProbe naming configured probes catalog).records =
      (get id (foundRecords naming configured catalog.runtimeStates probes)).or
        ((get id catalog.records).bind fun record =>
          if record.agentId ∈ probes.map DriverProbe.agentId then none
          else some record.markStale) := by
  rw [mergeProbe_records, get_fill wellKeyed_found.distinct (h.distinct.filterMap keepUnseen_key),
    get_filterMap h.distinct keepUnseen_key]
  congr 2
  funext record
  unfold keepUnseen
  split
  · rfl
  · rfl

theorem WellKeyed.mergeProbe (h : WellKeyed catalog.records) :
    WellKeyed (mergeProbe naming configured probes catalog).records := by
  have hdistinct : Distinct (Driver.mergeProbe naming configured probes catalog).records := by
    rw [mergeProbe_records]
    exact wellKeyed_found.distinct.fill _
  refine ⟨hdistinct, fun entry hentry => ?_⟩
  have hget := hdistinct.get_of_mem hentry
  rw [get_mergeProbe h, Option.or_eq_some_iff] at hget
  rcases hget with hfound | ⟨_, hold⟩
  · exact wellKeyed_found.get_driverId hfound
  · obtain ⟨record, hrecord, hstale⟩ := Option.bind_eq_some_iff.mp hold
    split at hstale
    · cases hstale
    · have hid : record.driverId = entry.1 := h.get_driverId hrecord
      rw [← Option.some.inj hstale]
      exact hid

/-- What was found under an id, and from which source. -/
theorem get_foundRecords (h : get id (foundRecords naming configured runtimeStates probes) =
    some record) : ∃ probe ∈ probes, probe.driverId naming configured = id ∧
      record = probe.record naming configured runtimeStates := by
  rcases mem_spread Rows.Distinct.nil (get_eq_some_mem h) with hnil | hmem
  · cases hnil
  · obtain ⟨probe, hprobe, heq⟩ := List.mem_map.mp hmem
    cases heq
    exact ⟨probe, hprobe, rfl, rfl⟩

theorem mem_foundRecords :
    id ∈ (foundRecords naming configured runtimeStates probes).map Prod.fst ↔
      ∃ probe ∈ probes, probe.driverId naming configured = id := by
  unfold foundRecords Record.ofEntries
  rw [mem_keys_spread]
  simp

/-! ## Registration changes no fact of a probe -/

def DriverDiscoveryRecord.facts (record : DriverDiscoveryRecord) : DriverDiscoveryRecord :=
  { record with status := .ready, reasonCode := none, runtimeRegistered := false }

/-- The records without their states. -/
def factsOf (records : Record String DriverDiscoveryRecord) : Record String DriverDiscoveryRecord :=
  mapValues (fun _ record => record.facts) records

theorem get_factsOf (id : String) :
    get id (factsOf records) = (get id records).map facts :=
  get_mapValues _ records id

theorem discoveredProfiles_facts : discoveredProfiles (factsOf records) = discoveredProfiles records := by
  unfold discoveredProfiles factsOf mapValues
  rw [List.filterMap_map]
  rfl

variable {record' : DriverDiscoveryRecord}

theorem factsOf_set (h : Distinct records) (hget : get id records = some record)
    (hfacts : record'.facts = record.facts) :
    factsOf (set records id record') = factsOf records := by
  unfold factsOf
  rw [mapValues_set _ h, hfacts]
  refine (h.mapValues _).set_get ?_
  rw [get_mapValues, hget]
  rfl

/-- A catalog with the facts of another one, and well keyed as that. -/
structure SameFacts (catalog other : DriverDiscoveryCatalog) : Prop where
  facts : factsOf other.records = factsOf catalog.records
  wellKeyed : WellKeyed catalog.records → WellKeyed other.records

theorem SameFacts.refl (catalog : DriverDiscoveryCatalog) : SameFacts catalog catalog := ⟨rfl, id⟩

theorem SameFacts.trans {a b c : DriverDiscoveryCatalog} (h : SameFacts a b) (h' : SameFacts b c) :
    SameFacts a c :=
  ⟨h'.facts.trans h.facts, fun ha => h'.wellKeyed (h.wellKeyed ha)⟩

theorem SameFacts.setRecord (h : Distinct catalog.records) (runtimeStates : Record String Bool)
    (hget : get id catalog.records = some record) (hfacts : record'.facts = record.facts) :
    SameFacts catalog
      { catalog with runtimeStates, records := set catalog.records id record' } := by
  refine ⟨factsOf_set h hget hfacts, fun hk => hk.set ?_⟩
  have hid : record'.facts.driverId = record.facts.driverId := by rw [hfacts]
  have hkey : record.driverId = id := hk.get_driverId hget
  exact hid.trans hkey

theorem recordRuntimeFailure_sameFacts (h : Distinct catalog.records) (reasonCode : String) :
    SameFacts catalog (recordRuntimeFailure id reasonCode catalog) := by
  unfold recordRuntimeFailure
  cases hget : get id catalog.records with
  | none => exact ⟨rfl, fun hk => hk⟩
  | some record =>
      refine SameFacts.setRecord h _ hget ?_
      split
      · rfl
      · rfl

theorem recordRuntimeRegistered_sameFacts (h : Distinct catalog.records) :
    SameFacts catalog (recordRuntimeRegistered id catalog) := by
  unfold recordRuntimeRegistered
  cases hget : get id catalog.records with
  | none => exact ⟨rfl, fun hk => hk⟩
  | some record =>
      refine SameFacts.setRecord h _ hget ?_
      split
      · rfl
      · rfl

theorem foldl_sameFacts {α : Type} {f : DriverDiscoveryCatalog → α → DriverDiscoveryCatalog}
    (hf : ∀ catalog a, WellKeyed catalog.records → SameFacts catalog (f catalog a)) (l : List α)
    (h : WellKeyed catalog.records) : SameFacts catalog (l.foldl f catalog) := by
  induction l generalizing catalog with
  | nil => exact SameFacts.refl catalog
  | cons a rest ih =>
      have hfirst := hf catalog a h
      exact hfirst.trans (ih (hfirst.wellKeyed h))

theorem registerRuntimes_sameFacts (registry : DiscoveryRegistry) (h : WellKeyed catalog.records) :
    SameFacts catalog (registerRuntimes registry configured catalog) := by
  unfold registerRuntimes
  have hfirst := foldl_sameFacts (f := fun catalog entry =>
    if (get entry.1 catalog.records).any (·.status = .unsupported) then
      recordRuntimeFailure entry.1 driverConnectionTypeUnsupported catalog
    else
      match registry.registerDiscovered entry.1 entry.2 with
      | none => recordRuntimeRegistered entry.1 catalog
      | some reasonCode => recordRuntimeFailure entry.1 reasonCode catalog)
    (fun catalog entry hk => by
      split
      · exact recordRuntimeFailure_sameFacts hk.distinct _
      · split
        · exact recordRuntimeRegistered_sameFacts hk.distinct
        · exact recordRuntimeFailure_sameFacts hk.distinct _)
    (discoveredProfiles catalog.records) h
  refine hfirst.trans (foldl_sameFacts (fun catalog entry hk => ?_) configured (hfirst.wellKeyed h))
  split
  · exact recordRuntimeRegistered_sameFacts hk.distinct
  · exact SameFacts.refl catalog

theorem markProbeFailure_sameFacts (failure : ProbeFailure) :
    SameFacts catalog (markProbeFailure failure catalog) := by
  have hmark : ∀ record : DriverDiscoveryRecord,
      (if record.source = .discovered then record.markStale else record).facts = record.facts ∧
        (if record.source = .discovered then record.markStale else record).driverId =
          record.driverId := by
    intro record
    split
    · exact ⟨rfl, rfl⟩
    · exact ⟨rfl, rfl⟩
  refine ⟨?_, fun hk => hk.mapValues fun _ record => (hmark record).2⟩
  unfold markProbeFailure factsOf mapValues
  rw [List.map_map]
  exact List.map_congr_left fun entry _ => Prod.ext rfl (hmark entry.2).1

end Newide.Driver
