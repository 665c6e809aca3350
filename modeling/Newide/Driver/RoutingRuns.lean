import Mathlib.Data.List.Infix
import Newide.Driver.DiscoveryCatalog
import Newide.Driver.RoutingUpdates

/-!
# Routing over rounds of discovery

The set of defined drivers is made of the manual layers and of the file
that every round of discovery writes anew, while the routing file refers to
both.  A run mixes rounds, restarts, new drivers in the manual layers, and
updates and resets of the routing; what the routing refers to stays defined
exactly as long as no round drops a driver that is in use.
-/

namespace Newide.Driver

open Record Runs RoutingSetup DriverProbe Rows.Distinct

/-! ## The system -/

structure RoutingDeployment where
  env : RoutingEnv := {}
  naming : AgentNaming
  digest : UiDriverRoutingDocument → String
  render : UiDriverRoutingDocument → String

structure RoutingWorld where
  manual : List DriverConfigLayer
  generated : DiscoveryFiles := {}
  ui : Option UiFile := none
  /-- The catalog and the configuration of the process. -/
  catalog : DriverDiscoveryCatalog := {}
  memory : DriverConfig
  /-- Every driver id an update has accepted so far. -/
  accepted : List String := []

abbrev ProbeAnswer := Except ProbeFailure (List DriverProbe)

inductive RoutingEvent where
  /-- `refreshDriverDiscovery` -/
  | round (probe : ProbeAnswer) (registry : DiscoveryRegistry)
  /-- A new process: its first round comes before its registry. -/
  | restart (probe : ProbeAnswer) (registry : DiscoveryRegistry)
  /-- A manual layer gets a driver it does not have. -/
  | addDriver (layer : Nat) (id : String) (profile : DriverProfile)
  | update (drivers : DriverProjection) (input : UpdateDriverRoutingInput)
  | reset (expected : String)

namespace RoutingDeployment

variable (d : RoutingDeployment)

def setup (w : RoutingWorld) : RoutingSetup where
  manual := w.manual
  detected := w.generated.detected
  env := d.env
  digest := d.digest
  render := d.render

def files (w : RoutingWorld) : RoutingFiles := (d.setup w).files (w.ui.map UiFile.layer)

def load (w : RoutingWorld) : Except (List String) DriverConfig :=
  (d.setup w).loadConfig (w.ui.map UiFile.layer)

/-- `configuredProfiles` -/
def configured (w : RoutingWorld) : Record String DriverProfile :=
  ((loadManualDriverConfig d.env w.manual).toOption.map DriverConfig.drivers).getD []

/-- The configuration is read from disk again. -/
def reload (w : RoutingWorld) : RoutingWorld :=
  match d.load w with
  | .ok memory => { w with memory }
  | .error _ => w

def startRecords (w : RoutingWorld) : RoutingEvent → Record String DriverDiscoveryRecord
  | .restart .. => (createDriverDiscoveryRuntime w.generated).records
  | _ => w.catalog.records

def endSection (w : RoutingWorld) (accepted : List String) (e : SectionEnd) : RoutingWorld :=
  { w with
    ui := e.ui
    memory := e.memory
    accepted := if e.error.isNone then w.accepted ++ accepted else w.accepted }

def addDriver (id : String) (profile : DriverProfile) (layer : DriverConfigLayer) :
    DriverConfigLayer :=
  if id ∈ layer.defined then layer else { layer with drivers := set layer.drivers id profile }

def next (w : RoutingWorld) : RoutingEvent → RoutingWorld
  | .round probe registry =>
      let out := discoveryRound d.naming (d.configured w) probe (some registry) w.catalog w.generated
      d.reload { w with catalog := out.1, generated := out.2 }
  | .restart probe registry =>
      let out := discoveryRound d.naming (d.configured w) probe none
        (createDriverDiscoveryRuntime w.generated) w.generated
      d.reload
        { w with
          catalog := registerRuntimes registry (d.configured w) out.1, generated := out.2 }
  | .addDriver layer id profile => { w with manual := w.manual.modify layer (addDriver id profile) }
  | .update drivers input =>
      endSection w (input.defaultDriver :: input.roles.map Prod.snd)
        ((d.setup w).updateSection drivers input {} w.ui w.memory)
  | .reset expected => endSection w [] ((d.setup w).resetSection expected {} w.ui w.memory)

/-! ## What must not happen -/

/-- The configuration loads, and what updates have accepted is defined. -/
def Resolves (w : RoutingWorld) : Prop :=
  ∃ config, d.load w = .ok config ∧ ∀ id ∈ w.accepted, id ∈ config.drivers.map Prod.fst

instance (w : RoutingWorld) : Decidable (d.Resolves w) :=
  decidable_of_iff ((d.load w).toOption.any fun config =>
      w.accepted.all (· ∈ config.drivers.map Prod.fst)) (by
    unfold Resolves
    cases d.load w with
    | error errors => simp [Except.toOption]
    | ok config => simp [Except.toOption])

/-- The drivers that the files refer to or that an update has accepted. -/
def InUse (w : RoutingWorld) (id : String) : Prop :=
  id ∈ (synthesize d.env (d.files w)).references ∨ id ∈ w.accepted

/-- A manual layer or the built-in one has the driver. -/
def Configured (w : RoutingWorld) (id : String) : Prop :=
  id = legacyDriverId ∨ ∃ layer ∈ w.manual, id ∈ layer.defined

/-- An agent without a name is recorded, under an id that no later probe takes. -/
def RecordsNameless (naming : AgentNaming) (configured : Record String DriverProfile)
    (probes : List DriverProbe) : Prop :=
  ∃ pre probe post, probes = pre ++ probe :: post ∧ probe.agentId = "" ∧
    configuredDriverId configured "" = none ∧
    ∀ later ∈ post, later.driverId naming configured ≠ probe.driverId naming configured

/-- A round that starts from `records` loses the driver `id`: no agent is found under it, and it
has no record or the agent of its record is found under another id. -/
def Loses (configured : Record String DriverProfile)
    (records : Record String DriverDiscoveryRecord) (id : String) : ProbeAnswer → Prop
  | .ok probes =>
      ((∀ probe ∈ probes, probe.driverId d.naming configured ≠ id) ∧
        ∀ record, get id records = some record → record.agentId ∈ probes.map agentId) ∨
      RecordsNameless d.naming configured probes
  | .error _ => get id records = none

/-- The round of this event loses a driver that is in use and in no manual layer. -/
def Drops (w : RoutingWorld) (event : RoutingEvent) : Prop :=
  match event with
  | .round probe _ | .restart probe _ =>
      ∃ id, d.InUse w id ∧ ¬ Configured w id ∧
        d.Loses (d.configured w) (startRecords w event) id probe
  | _ => False

end RoutingDeployment

/-! ## The records after a round -/

/-- What is recorded as configured is, and a discovered driver has a name. -/
structure SoundRecords (configured : String → Prop)
    (records : Record String DriverDiscoveryRecord) : Prop where
  wellKeyed : WellKeyed records
  configured : ∀ id record, get id records = some record → record.source = .configured →
    configured id
  named : ∀ id record, get id records = some record → record.source = .discovered → id ≠ ""

def ReadableRecords (records : Record String DriverDiscoveryRecord) : Prop :=
  ∀ id record, get id records = some record → record.source = .discovered → record.agentId ≠ ""

section Records

variable {naming : AgentNaming} {configured : Record String DriverProfile}
  {probes : List DriverProbe} {probe : ProbeAnswer} {catalog other : DriverDiscoveryCatalog}
  {records : Record String DriverDiscoveryRecord} {record : DriverDiscoveryRecord} {id : String}
  {P : String → Prop}

theorem SoundRecords.nil : SoundRecords P [] :=
  ⟨WellKeyed.nil, fun _ _ h => (by cases h), fun _ _ h => (by cases h)⟩

theorem SoundRecords.source (h : SoundRecords P records) (hid : ¬ P id)
    (hget : get id records = some record) : record.source = .discovered := by
  cases hsource : record.source with
  | discovered => rfl
  | configured => exact absurd (h.configured id record hget hsource) hid

theorem SameFacts.get_eq (h : SameFacts catalog other) (hget : get id other.records = some record) :
    ∃ old, get id catalog.records = some old ∧ old.facts = record.facts := by
  have hfacts : get id (factsOf other.records) = get id (factsOf catalog.records) := by rw [h.facts]
  rw [get_factsOf, get_factsOf, hget] at hfacts
  obtain ⟨old, hold, heq⟩ := Option.map_eq_some_iff.mp hfacts.symm
  exact ⟨old, hold, heq⟩

theorem facts_source_eq {old : DriverDiscoveryRecord} (h : old.facts = record.facts) :
    old.source = record.source ∧ old.agentId = record.agentId := by
  have hsource : old.facts.source = record.facts.source := by rw [h]
  have hagent : old.facts.agentId = record.facts.agentId := by rw [h]
  exact ⟨hsource, hagent⟩

theorem SameFacts.sound (h : SameFacts catalog other) (hsound : SoundRecords P catalog.records) :
    SoundRecords P other.records where
  wellKeyed := h.wellKeyed hsound.wellKeyed
  configured id record hget hsource := by
    obtain ⟨old, hold, heq⟩ := h.get_eq hget
    exact hsound.configured id old hold ((facts_source_eq heq).1.trans hsource)
  named id record hget hsource := by
    obtain ⟨old, hold, heq⟩ := h.get_eq hget
    exact hsound.named id old hold ((facts_source_eq heq).1.trans hsource)

theorem SameFacts.profiles (h : SameFacts catalog other) :
    discoveredProfiles other.records = discoveredProfiles catalog.records := by
  rw [← discoveredProfiles_facts, h.facts, discoveredProfiles_facts]

theorem SoundRecords.mono {Q : String → Prop} (h : SoundRecords P records)
    (hPQ : ∀ id, P id → Q id) : SoundRecords Q records :=
  ⟨h.wellKeyed, fun id record hget hsource => hPQ id (h.configured id record hget hsource), h.named⟩

theorem configuredDriverId_mem {agentId : String}
    (h : configuredDriverId configured agentId = some id) : id ∈ configured.map Prod.fst := by
  obtain ⟨entry, hentry, rfl⟩ := Option.map_eq_some_iff.mp h
  have hmem := List.mem_of_find?_eq_some hentry
  exact List.mem_map_of_mem ((List.mem_insertionSort _).mp hmem)

theorem driverIdForDiscoveredAgent_ne (agentId : String) :
    driverIdForDiscoveredAgent naming agentId ≠ "" := by
  intro h
  have hlist := congrArg String.toList h
  simp [driverIdForDiscoveredAgent] at hlist

theorem probe_source {runtimeStates : Record String Bool} (p : DriverProbe) :
    ((p.record naming configured runtimeStates).source = .configured ∧
        p.driverId naming configured ∈ configured.map Prod.fst) ∨
      ((p.record naming configured runtimeStates).source = .discovered ∧
        configuredDriverId configured p.agentId = none ∧
        p.driverId naming configured = driverIdForDiscoveredAgent naming p.agentId) := by
  unfold record driverId
  cases hconfigured : configuredDriverId configured p.agentId with
  | none => exact .inr ⟨rfl, rfl, rfl⟩
  | some id => exact .inl ⟨rfl, configuredDriverId_mem hconfigured⟩

theorem applyProbe_sound (h : SoundRecords P catalog.records)
    (hP : ∀ id ∈ configured.map Prod.fst, P id) :
    SoundRecords P (applyProbe naming configured probe catalog).records := by
  cases probe with
  | error failure => exact (markProbeFailure_sameFacts failure).sound h
  | ok probes =>
      have hcases : ∀ id record,
          get id (mergeProbe naming configured probes catalog).records = some record →
          (∃ p ∈ probes, p.driverId naming configured = id ∧
              record = p.record naming configured catalog.runtimeStates) ∨
            ∃ old, get id catalog.records = some old ∧ record = old.markStale := by
        intro id record hget
        rw [get_mergeProbe h.wellKeyed, Option.or_eq_some_iff] at hget
        rcases hget with hfound | ⟨_, hold⟩
        · exact .inl (get_foundRecords hfound)
        · obtain ⟨old, hget, hstale⟩ := Option.bind_eq_some_iff.mp hold
          split at hstale
          · cases hstale
          · exact .inr ⟨old, hget, (Option.some.inj hstale).symm⟩
      refine ⟨h.wellKeyed.mergeProbe, fun id record hget hsource => ?_,
        fun id record hget hsource => ?_⟩
      · rcases hcases id record hget with ⟨p, _, rfl, rfl⟩ | ⟨old, hold, rfl⟩
        · rcases probe_source p with ⟨_, hmem⟩ | ⟨hdiscovered, _, _⟩
          · exact hP _ hmem
          · exact absurd (hsource.symm.trans hdiscovered) (by decide)
        · exact h.configured id old hold hsource
      · rcases hcases id record hget with ⟨p, _, rfl, rfl⟩ | ⟨old, hold, rfl⟩
        · rcases probe_source p with ⟨hconfigured, _⟩ | ⟨_, _, hid⟩
          · exact absurd (hsource.symm.trans hconfigured) (by decide)
          · rw [hid]
            exact driverIdForDiscoveredAgent_ne _
        · exact h.named id old hold hsource

/-- An id of no configured driver keeps its profile when an agent was found under it, or when the
agent of its record was not found. -/
theorem mem_profiles_merge (h : SoundRecords (· ∈ configured.map Prod.fst) catalog.records)
    (hid : id ∉ configured.map Prod.fst) :
    id ∈ (discoveredProfiles (mergeProbe naming configured probes catalog).records).map Prod.fst ↔
      (∃ p ∈ probes, p.driverId naming configured = id) ∨
        ∃ old, get id catalog.records = some old ∧
          old.agentId ∉ probes.map agentId := by
  have hprobed : SoundRecords (· ∈ configured.map Prod.fst)
      (applyProbe naming configured (.ok probes) catalog).records :=
    applyProbe_sound h fun _ hid => hid
  have hmerged : SoundRecords (· ∈ configured.map Prod.fst)
      (mergeProbe naming configured probes catalog).records := hprobed
  rw [mem_discoveredProfiles hmerged.wellKeyed]
  have hsome : (∃ record, get id (mergeProbe naming configured probes catalog).records =
        some record ∧ record.source = .discovered) ↔
      (get id (mergeProbe naming configured probes catalog).records).isSome := by
    rw [Option.isSome_iff_exists]
    exact ⟨fun ⟨record, hget, _⟩ => ⟨record, hget⟩,
      fun ⟨record, hget⟩ => ⟨record, hget, hmerged.source hid hget⟩⟩
  rw [hsome, get_mergeProbe h.wellKeyed, Option.isSome_or, Bool.or_eq_true, ← mem_keys_iff,
    mem_foundRecords]
  refine or_congr_right ?_
  cases hget : get id catalog.records with
  | none => simp
  | some old =>
      simp

theorem mem_profiles_failure (h : SoundRecords P catalog.records) (hid : ¬ P id)
    (failure : ProbeFailure) :
    id ∈ (discoveredProfiles (markProbeFailure failure catalog).records).map Prod.fst ↔
      get id catalog.records ≠ none := by
  rw [(markProbeFailure_sameFacts failure).profiles, mem_discoveredProfiles h.wellKeyed,
    Option.ne_none_iff_exists']
  exact ⟨fun ⟨record, hget, _⟩ => ⟨record, hget⟩,
    fun ⟨record, hget⟩ => ⟨record, hget, h.source hid hget⟩⟩

theorem readableProfiles_iff (h : SoundRecords P records) :
    readableProfiles (discoveredProfiles records) = true ↔ ReadableRecords records := by
  rw [discoveredProfiles_eq h.wellKeyed]
  unfold readableProfiles
  rw [List.all_eq_true]
  constructor
  · intro hall id record hget hsource
    have hprofile : record.profile? =
        some (record.driverId, ⟨record.agentId, truthy record.displayName⟩) := if_pos hsource
    have hentry := hall _ (List.mem_filterMap.mpr ⟨(id, record), get_eq_some_mem hget, hprofile⟩)
    simp only [Bool.and_eq_true, decide_eq_true_eq] at hentry
    exact hentry.1.2
  · intro hread entry hentry
    obtain ⟨⟨id, record⟩, hmem, hprofile⟩ := List.mem_filterMap.mp hentry
    have hget := h.wellKeyed.distinct.get_of_mem hmem
    unfold DriverDiscoveryRecord.profile? at hprofile
    split at hprofile
    · rename_i hsource
      cases hprofile
      have hid : record.driverId = id := h.wellKeyed.get_driverId hget
      have hname := h.named id record hget hsource
      have hagent := hread id record hget hsource
      have hdescription := truthy_ne record.displayName
      simp only [Bool.and_eq_true, decide_eq_true_eq]
      exact ⟨⟨hid ▸ hname, hagent⟩, hdescription⟩
    · cases hprofile

theorem readable_merge (h : SoundRecords P catalog.records) (hread : ReadableRecords catalog.records) :
    ReadableRecords (mergeProbe naming configured probes catalog).records ↔
      ¬ RoutingDeployment.RecordsNameless naming configured probes := by
  constructor
  · rintro hmerged ⟨pre, p, post, rfl, hagent, hconfigured, hlater⟩
    have hfound : get (p.driverId naming configured)
        (foundRecords naming configured catalog.runtimeStates (pre ++ p :: post)) =
          some (p.record naming configured catalog.runtimeStates) := by
      refine get_ofEntries_eq_some.mpr ⟨_, _, by rw [List.map_append, List.map_cons], ?_⟩
      intro hmem
      obtain ⟨entry, hentry, hkey⟩ := List.mem_map.mp hmem
      obtain ⟨later, hmem, rfl⟩ := List.mem_map.mp hentry
      exact hlater later hmem hkey
    refine hmerged (p.driverId naming configured)
      (p.record naming configured catalog.runtimeStates) ?_ ?_ hagent
    · rw [get_mergeProbe h.wellKeyed, hfound]
      rfl
    · unfold record
      rw [hagent, hconfigured]
      rfl
  · intro hnot id record hget hsource hagent
    rw [get_mergeProbe h.wellKeyed, Option.or_eq_some_iff] at hget
    rcases hget with hfound | ⟨_, hold⟩
    · obtain ⟨pre, post, hentries, hlater⟩ := get_ofEntries_eq_some.mp hfound
      obtain ⟨pre', rest, rfl, hpre, hrest⟩ := List.map_eq_append_iff.mp hentries
      obtain ⟨p, post', rfl, hp, hpost⟩ := List.map_eq_cons_iff.mp hrest
      cases hp
      rcases @probe_source naming configured catalog.runtimeStates p with ⟨hconf, _⟩ | ⟨_, hnone, _⟩
      · exact absurd (hsource.symm.trans hconf) (by decide)
      · have hname : p.agentId = "" := hagent
        refine hnot ⟨pre', p, post', rfl, hname, hname ▸ hnone, fun later hmem hkey => hlater ?_⟩
        rw [← hpost, List.map_map]
        exact List.mem_map.mpr ⟨later, hmem, hkey⟩
    · obtain ⟨old, hget, hstale⟩ := Option.bind_eq_some_iff.mp hold
      split at hstale
      · cases hstale
      · obtain rfl := (Option.some.inj hstale).symm
        exact hread id old hget hsource hagent

theorem readable_failure (failure : ProbeFailure) (hread : ReadableRecords catalog.records) :
    ReadableRecords (markProbeFailure failure catalog).records := by
  intro id record hget hsource
  obtain ⟨old, hold, heq⟩ := (markProbeFailure_sameFacts failure).get_eq hget
  obtain ⟨hsame, hagent⟩ := facts_source_eq heq
  rw [← hagent]
  exact hread id old hold (hsame.trans hsource)

end Records

namespace RoutingDeployment

variable {d : RoutingDeployment} {w w' : RoutingWorld} {event : RoutingEvent} {probe : ProbeAnswer}
  {catalog catalog' : DriverDiscoveryCatalog} {id : String}

theorem mem_configured : id ∈ (d.configured w).map Prod.fst ↔ Configured w id := by
  unfold configured Configured loadManualDriverConfig
  have hlayer : id ∈ (applyEnvOverlay (mergeManualLayers d.env w.manual) d.env).defined ↔
      id = legacyDriverId ∨ ∃ layer ∈ w.manual, id ∈ layer.defined := by
    rw [DriverConfigLayer.mem_defined_overlay, mem_defined_manualLayers]
  have hmanual : ∃ id, (synthesize d.env ⟨w.manual, none, none⟩).defaultDriver = some id :=
    synthesize_default
  obtain ⟨default, hdefault⟩ : ∃ id, (applyEnvOverlay (mergeManualLayers d.env w.manual)
      d.env).defaultDriver = some id := hmanual
  rw [← hlayer]
  unfold parseDriverConfigShape
  rw [hdefault]
  rfl

/-- The two generated files tell what the catalog of the process knows. -/
structure Synced (d : RoutingDeployment) (w : RoutingWorld) : Prop where
  sound : SoundRecords (Configured w) w.catalog.records
  stored : SoundRecords (Configured w) (createDriverDiscoveryRuntime w.generated).records
  detected : w.generated.detected = some (discoveredProfiles w.catalog.records) ∨
    (w.generated.detected = none ∧ discoveredProfiles w.catalog.records = [])
  plain : ∀ file, w.ui = some file → file.layer.drivers = []

theorem Synced.mem_defined (h : Synced d w) :
    id ∈ (synthesize d.env (d.files w)).defined ↔
      Configured w id ∨ id ∈ (d.files w).discovered := by
  have hui : ¬ ∃ layer, (d.files w).ui = some layer ∧ id ∈ layer.defined := by
    rintro ⟨layer, hlayer, hid⟩
    obtain ⟨file, hfile, rfl⟩ := Option.map_eq_some_iff.mp hlayer
    unfold DriverConfigLayer.defined at hid
    rw [h.plain file hfile] at hid
    cases hid
  rw [mem_defined_synthesize, or_iff_left_of_imp (b := ∃ layer, _) (fun hui' => absurd hui' hui)]
  simp [RoutingFiles.configured, Configured, files, setup, RoutingSetup.files]

theorem resolves_iff : d.Resolves w ↔
    ∀ id, d.InUse w id → id ∈ (synthesize d.env (d.files w)).defined := by
  constructor
  · rintro ⟨config, hload, haccepted⟩ id (hreference | hid)
    · exact (loadDriverConfig_eq_ok.mp hload).2 id hreference
    · exact (mem_drivers hload).mp (haccepted id hid)
  · intro hall
    obtain ⟨config, hload⟩ := loadDriverConfig_isOk.mpr fun id hid => hall id (.inl hid)
    exact ⟨config, hload, fun id hid => (mem_drivers hload).mpr (hall id (.inr hid))⟩

theorem Synced.readable (h : Synced d w) (hid : id ∈ (d.files w).discovered) :
    ReadableRecords w.catalog.records := by
  have hread : readableProfiles (discoveredProfiles w.catalog.records) = true := by
    unfold RoutingFiles.discovered readDiscoveredLayer at hid
    have hfile : (d.files w).detected = w.generated.detected := rfl
    rw [hfile] at hid
    rcases h.detected with hsome | ⟨_, hnil⟩
    · rw [hsome] at hid
      by_contra hnot
      rw [Option.filter_some_neg (Bool.eq_false_iff.mpr hnot)] at hid
      cases hid
    · rw [hnil]
      rfl
  exact (readableProfiles_iff h.sound).mp hread

theorem mem_discovered_persist (hgenerated : w'.generated = persistDiscovery catalog w.generated) :
    id ∈ (d.files w').discovered ↔
      readableProfiles (discoveredProfiles catalog.records) = true ∧
        id ∈ (discoveredProfiles catalog.records).map Prod.fst := by
  have hfile : (d.files w').detected = (persistDiscovery catalog w.generated).detected := by
    rw [← hgenerated]
    rfl
  unfold RoutingFiles.discovered readDiscoveredLayer
  rw [hfile]
  unfold persistDiscovery
  dsimp only
  split
  · cases hread : readableProfiles (discoveredProfiles catalog.records) with
    | false =>
        rw [Option.filter_some_neg (by simp [hread])]
        simp
    | true =>
        rw [Option.filter_some_pos hread]
        simp
  · rename_i hnone
    rw [not_or, not_not] at hnone
    have hmissing : w.generated.detected = none := by simpa using hnone.2
    rw [hnone.1, hmissing]
    simp

theorem stored_persist {P : String → Prop} {generated : DiscoveryFiles}
    (h : SoundRecords P catalog.records) :
    SoundRecords P (createDriverDiscoveryRuntime (persistDiscovery catalog generated)).records := by
  unfold createDriverDiscoveryRuntime persistDiscovery
  dsimp only
  cases hfilter : (some catalog.snapshot).filter
      (fun state => state.drivers.all DriverDiscoveryRecord.readable) with
  | none => exact SoundRecords.nil
  | some state =>
      obtain ⟨heq, _⟩ := Option.filter_eq_some_iff.mp hfilter
      obtain rfl := Option.some.inj heq
      have hpairs : (catalog.records.map Prod.snd).map (fun record => (record.driverId, record)) =
          catalog.records := by
        rw [List.map_map]
        refine (List.map_congr_left fun entry hentry => ?_).trans (List.map_id _)
        exact Prod.ext (h.wellKeyed.keyed entry hentry) rfl
      have hperm : (catalog.snapshot.drivers.map fun record => (record.driverId, record)).Perm
          catalog.records := by
        refine ((List.perm_insertionSort _ _).map _).trans ?_
        rw [hpairs]
      have hdistinct : Distinct (catalog.snapshot.drivers.map fun record =>
          (record.driverId, record)) :=
        of_perm hperm.symm h.wellKeyed.distinct
      have hget : ∀ id, get id (catalog.snapshot.drivers.map fun record =>
          (record.driverId, record)) = get id catalog.records := by
        intro id
        unfold Record.get
        rw [lookup_perm hperm hdistinct]
      dsimp only
      rw [hdistinct.ofEntries]
      refine ⟨⟨hdistinct, fun entry hentry => ?_⟩, fun id record hrecord => ?_,
        fun id record hrecord => ?_⟩
      · obtain ⟨record, _, rfl⟩ := List.mem_map.mp hentry
        rfl
      · rw [hget] at hrecord
        exact h.configured id record hrecord
      · rw [hget] at hrecord
        exact h.named id record hrecord

theorem stored_readable :
    ReadableRecords (createDriverDiscoveryRuntime w.generated).records := by
  intro id record hget _
  unfold createDriverDiscoveryRuntime at hget
  split at hget
  · rename_i state hstate
    have hall := (Option.filter_eq_some_iff.mp hstate).2
    rcases mem_spread nil (get_eq_some_mem hget) with hnil | hmem
    · cases hnil
    · obtain ⟨old, hold, heq⟩ := List.mem_map.mp hmem
      cases heq
      have hread := List.all_eq_true.mp hall record hold
      simp only [DriverDiscoveryRecord.readable, Bool.and_eq_true, decide_eq_true_eq] at hread
      exact hread.1.1.1.1.1.2
  · cases hget

/-! ## Rounds -/

/-- What a round leaves: the catalog that was written, the same facts in memory, and the rest of
the world as it was. -/
structure Rounded (d : RoutingDeployment) (w : RoutingWorld) (base : DriverDiscoveryCatalog)
    (probe : ProbeAnswer) (w' : RoutingWorld) : Prop where
  written : ∃ catalog, SameFacts (applyProbe d.naming (d.configured w) probe base) catalog ∧
    SameFacts catalog w'.catalog ∧ w'.generated = persistDiscovery catalog w.generated
  manual : w'.manual = w.manual
  ui : w'.ui = w.ui
  accepted : w'.accepted = w.accepted

theorem reload_fields : (d.reload w).manual = w.manual ∧ (d.reload w).generated = w.generated ∧
    (d.reload w).ui = w.ui ∧ (d.reload w).catalog = w.catalog ∧
    (d.reload w).accepted = w.accepted := by
  unfold reload
  split
  · exact ⟨rfl, rfl, rfl, rfl, rfl⟩
  · exact ⟨rfl, rfl, rfl, rfl, rfl⟩

theorem round_rounded (registry : DiscoveryRegistry) (h : Synced d w) :
    Rounded d w w.catalog probe (d.next w (.round probe registry)) := by
  obtain ⟨hmanual, hgenerated, hui, hcatalog, haccepted⟩ := reload_fields (d := d)
    (w := { w with
      catalog := (discoveryRound d.naming (d.configured w) probe (some registry) w.catalog
        w.generated).1
      generated := (discoveryRound d.naming (d.configured w) probe (some registry) w.catalog
        w.generated).2 })
  have hkeys : SoundRecords (Configured w)
      (applyProbe d.naming (d.configured w) probe w.catalog).records :=
    applyProbe_sound h.sound fun id hid => mem_configured.mp hid
  refine ⟨⟨_, registerRuntimes_sameFacts registry hkeys.wellKeyed, ?_, hgenerated⟩, hmanual, hui,
    haccepted⟩
  rw [show (d.next w (.round probe registry)).catalog = _ from hcatalog]
  exact SameFacts.refl _

theorem restart_rounded (registry : DiscoveryRegistry) (h : Synced d w) :
    Rounded d w (createDriverDiscoveryRuntime w.generated) probe
      (d.next w (.restart probe registry)) := by
  obtain ⟨hmanual, hgenerated, hui, hcatalog, haccepted⟩ := reload_fields (d := d)
    (w := { w with
      catalog := registerRuntimes registry (d.configured w) (discoveryRound d.naming
        (d.configured w) probe none (createDriverDiscoveryRuntime w.generated) w.generated).1
      generated := (discoveryRound d.naming (d.configured w) probe none
        (createDriverDiscoveryRuntime w.generated) w.generated).2 })
  have hkeys : SoundRecords (Configured w) (applyProbe d.naming (d.configured w) probe
      (createDriverDiscoveryRuntime w.generated)).records :=
    applyProbe_sound h.stored fun id hid => mem_configured.mp hid
  refine ⟨⟨_, SameFacts.refl _, ?_, hgenerated⟩, hmanual, hui, haccepted⟩
  rw [show (d.next w (.restart probe registry)).catalog = _ from hcatalog]
  exact registerRuntimes_sameFacts registry hkeys.wellKeyed

section Rounds

variable {base : DriverDiscoveryCatalog}

theorem Rounded.configured_iff (hround : Rounded d w base probe w') :
    Configured w' id ↔ Configured w id := by
  unfold Configured
  rw [hround.manual]

theorem Rounded.synced (hround : Rounded d w base probe w') (h : Synced d w)
    (hbase : SoundRecords (Configured w) base.records) : Synced d w' := by
  obtain ⟨catalog, hprobe, hmemory, hgenerated⟩ := hround.written
  have hconfigured : ∀ id, Configured w id → Configured w' id :=
    fun id hid => hround.configured_iff.mpr hid
  have hcatalog : SoundRecords (Configured w) catalog.records :=
    hprobe.sound (applyProbe_sound hbase fun id hid => mem_configured.mp hid)
  refine ⟨(hmemory.sound hcatalog).mono hconfigured, ?_, ?_, ?_⟩
  · rw [hgenerated]
    exact (stored_persist hcatalog).mono hconfigured
  · rw [hmemory.profiles, hgenerated]
    unfold persistDiscovery
    dsimp only
    split
    · exact .inl rfl
    · rename_i hnone
      rw [not_or, not_not] at hnone
      exact .inr ⟨by simpa using hnone.2, hnone.1⟩
  · rw [hround.ui]
    exact h.plain

theorem Rounded.inUse_iff (hround : Rounded d w base probe w') : d.InUse w' id ↔ d.InUse w id := by
  have hsame : SameRouting (synthesize d.env (d.files w')) (synthesize d.env (d.files w)) := by
    refine sameRouting_synthesize ?_ ?_
    · have hmanual : (d.files w').manual = (d.files w).manual := hround.manual
      rw [hmanual]
      exact List.forall₂_same.mpr fun layer _ => ⟨rfl, rfl⟩
    · have hui : (d.files w').ui = w'.ui.map UiFile.layer := rfl
      rw [hui, hround.ui]
      rfl
  unfold InUse
  rw [hround.accepted, hsame.references]

/-- A driver of no manual layer is still there after a round exactly when the round does not lose
it, provided the profiles could be read before. -/
theorem Rounded.discovered_iff (hround : Rounded d w base probe w')
    (hbase : SoundRecords (Configured w) base.records) (hread : ReadableRecords base.records)
    (hid : ¬ Configured w id) :
    id ∈ (d.files w').discovered ↔ ¬ d.Loses (d.configured w) base.records id probe := by
  obtain ⟨catalog, hprobe, _, hgenerated⟩ := hround.written
  have hafter : SoundRecords (Configured w)
      (applyProbe d.naming (d.configured w) probe base).records :=
    applyProbe_sound hbase fun id hid => mem_configured.mp hid
  rw [mem_discovered_persist hgenerated, hprobe.profiles, readableProfiles_iff hafter]
  cases probe with
  | error failure =>
      have hreadable := readable_failure failure hread
      exact (and_iff_right hreadable).trans (mem_profiles_failure hbase hid failure)
  | ok probes =>
      have hkeys : SoundRecords (· ∈ (d.configured w).map Prod.fst) base.records :=
        hbase.mono fun id hid => mem_configured.mpr hid
      have happly : applyProbe d.naming (d.configured w) (.ok probes) base =
          mergeProbe d.naming (d.configured w) probes base := rfl
      rw [happly]
      refine (and_congr (readable_merge hbase hread)
        (mem_profiles_merge hkeys fun hmem => hid (mem_configured.mp hmem))).trans ?_
      unfold Loses
      rw [not_or, and_comm]
      refine and_congr_left fun _ => ?_
      rw [not_and_or]
      simp only [not_forall, not_not, exists_prop]

end Rounds

/-! ## The other steps -/

theorem Synced.addDriver (h : Synced d w) (layer : Nat) (profile : DriverProfile) :
    Synced d (d.next w (.addDriver layer id profile)) ∧
      (d.Resolves w → d.Resolves (d.next w (.addDriver layer id profile))) := by
  have hgrows : ∀ other, Configured w other →
      Configured (d.next w (.addDriver layer id profile)) other := by
    rintro other (hlegacy | ⟨old, hold, hother⟩)
    · exact .inl hlegacy
    · obtain ⟨k, hk, rfl⟩ := List.mem_iff_getElem.mp hold
      refine .inr ⟨_, List.getElem_mem (by simpa [next] using hk), ?_⟩
      simp only [next, List.getElem_modify]
      split
      · unfold RoutingDeployment.addDriver
        split
        · exact hother
        · exact (mem_keys_set other).mpr (.inr hother)
      · exact hother
  have hsynced : Synced d (d.next w (.addDriver layer id profile)) :=
    ⟨h.sound.mono hgrows, h.stored.mono hgrows, h.detected, h.plain⟩
  refine ⟨hsynced, fun hresolves => resolves_iff.mpr fun other hother => ?_⟩
  have hsame : SameRouting (synthesize d.env (d.files (d.next w (.addDriver layer id profile))))
      (synthesize d.env (d.files w)) := by
    refine sameRouting_synthesize ?_ rfl
    refine List.forall₂_iff_get.mpr ⟨List.length_modify _ _ _, fun k hk hk' => ?_⟩
    simp only [files, setup, RoutingSetup.files, next, List.get_eq_getElem, List.getElem_modify]
    split
    · unfold RoutingDeployment.addDriver
      split
      · exact ⟨rfl, rfl⟩
      · exact ⟨rfl, rfl⟩
    · exact ⟨rfl, rfl⟩
  have hold : d.InUse w other := hother.imp_left fun href => hsame.references ▸ href
  refine hsynced.mem_defined.mpr ?_
  rcases h.mem_defined.mp (resolves_iff.mp hresolves other hold) with hconf | hdisc
  · exact .inl (hgrows other hconf)
  · exact .inr hdisc

theorem defined_ui (h : Synced d w) {ui : Option UiFile} {memory : DriverConfig}
    {accepted : List String} (hplain : ∀ file, ui = some file → file.layer.drivers = []) :
    Synced d { w with ui, memory, accepted } ∧
      ∀ id, id ∈ (synthesize d.env (d.files { w with ui, memory, accepted })).defined ↔
        id ∈ (synthesize d.env (d.files w)).defined := by
  have hsynced : Synced d { w with ui, memory, accepted } := ⟨h.sound, h.stored, h.detected, hplain⟩
  refine ⟨hsynced, fun id => ?_⟩
  rw [hsynced.mem_defined, h.mem_defined]
  rfl

theorem Synced.threw (h : Synced d w) {accepted : List String} {e : SectionEnd}
    {error : DriverRoutingError} (herror : e.error = some error) (hui : e.ui = w.ui) :
    Synced d (endSection w accepted e) ∧ (d.Resolves w → d.Resolves (endSection w accepted e)) := by
  have hend : endSection w accepted e = { w with ui := w.ui, memory := e.memory, accepted := w.accepted } := by
    unfold endSection
    rw [herror, hui]
    rfl
  rw [hend]
  exact ⟨(defined_ui h h.plain).1, id⟩

theorem Synced.installed (h : Synced d w) {accepted : List String} {e : SectionEnd}
    {expected : String} {ui : Option UiFile}
    (hplain : ∀ file, ui = some file → file.layer.drivers = [])
    (herror : e.error = none) (hinstalls : e.Installs (d.setup w) expected w.ui ui)
    (haccepted : ∀ id ∈ accepted, id ∈ (synthesize d.env (d.files w)).defined) :
    Synced d (endSection w accepted e) ∧ (d.Resolves w → d.Resolves (endSection w accepted e)) := by
  have hend : endSection w accepted e =
      { w with ui, memory := e.memory, accepted := w.accepted ++ accepted } := by
    unfold endSection
    rw [herror, hinstalls.file]
    rfl
  rw [hend]
  obtain ⟨hsynced, hdefined⟩ := @defined_ui d w h ui e.memory (w.accepted ++ accepted) hplain
  refine ⟨hsynced, fun hresolves => resolves_iff.mpr ?_⟩
  rintro id (href | hid)
  · exact (loadDriverConfig_eq_ok.mp hinstalls.memory).2 id href
  · rw [hdefined]
    rcases List.mem_append.mp hid with hold | hnew
    · exact resolves_iff.mp hresolves id (.inr hold)
    · exact haccepted id hnew

theorem checkUpdate_defined {setup : RoutingSetup} {drivers : DriverProjection}
    {config : DriverConfig} {input : UpdateDriverRoutingInput} {document : UiDriverRoutingDocument}
    (h : setup.checkUpdate drivers config input = .ok document) :
    ∀ id ∈ input.defaultDriver :: input.roles.map Prod.snd, id ∈ config.drivers.map Prod.fst := by
  have hdriver : ∀ field id, assertDriver drivers config field id = .ok () →
      id ∈ config.drivers.map Prod.fst := by
    intro field id hok
    unfold assertDriver at hok
    split at hok
    · cases hok
    · rename_i profile hprofile
      exact mem_keys_iff.mpr (by rw [hprofile]; rfl)
  unfold checkUpdate at h
  simp only [bind, Except.bind, pure, Except.pure] at h
  split at h
  · cases h
  · split at h
    · cases h
    · split at h
      · cases h
      · rename_i hdefault
        split at h
        · cases h
        · rename_i hroles
          intro id hid
          rcases List.mem_cons.mp hid with rfl | hid
          · exact hdriver _ _ hdefault
          · obtain ⟨entry, hentry, rfl⟩ := List.mem_map.mp hid
            exact hdriver _ _ (Fallible.forM_eq_ok.mp hroles entry hentry)

theorem restores_none : FileFaults.Restores {} := rfl

theorem Synced.update (h : Synced d w) (drivers : DriverProjection)
    (input : UpdateDriverRoutingInput) :
    Synced d (d.next w (.update drivers input)) ∧
      (d.Resolves w → d.Resolves (d.next w (.update drivers input))) := by
  cases herror : ((d.setup w).updateSection drivers input {} w.ui w.memory).error with
  | some error => exact h.threw herror (updateSection_refuses restores_none herror).file
  | none =>
      have hinstalls := (updateSection_installs herror).1
      refine h.installed (fun file hfile => by cases hfile; rfl) herror hinstalls ?_
      unfold updateSection at herror
      split at herror
      · cases herror
      · rename_i diskConfig hdisk
        split at herror
        · cases herror
        · rename_i document hcheck
          exact fun id hid => (mem_drivers hdisk).mp (checkUpdate_defined hcheck id hid)

theorem Synced.reset (h : Synced d w) (expected : String) :
    Synced d (d.next w (.reset expected)) ∧
      (d.Resolves w → d.Resolves (d.next w (.reset expected))) := by
  cases herror : ((d.setup w).resetSection expected {} w.ui w.memory).error with
  | some error => exact h.threw herror (resetSection_refuses restores_none herror).file
  | none =>
      have hinstalls := resetSection_installs herror
      exact h.installed (fun file hfile => by cases hfile) herror hinstalls
        (fun id hid => by cases hid)

theorem Rounded.resolves_iff {base : DriverDiscoveryCatalog}
    (hround : Rounded d w base probe w') (h : Synced d w)
    (hbase : SoundRecords (Configured w) base.records)
    (hread : ReadableRecords w.catalog.records → ReadableRecords base.records)
    (hresolves : d.Resolves w) :
    d.Resolves w' ↔ ¬ ∃ id, d.InUse w id ∧ ¬ Configured w id ∧
      d.Loses (d.configured w) base.records id probe := by
  have hsynced := hround.synced h hbase
  have hbefore := RoutingDeployment.resolves_iff.mp hresolves
  have hkept : ∀ id, d.InUse w id → ¬ Configured w id →
      (id ∈ (d.files w').discovered ↔ ¬ d.Loses (d.configured w) base.records id probe) := by
    intro id hid hnot
    have hdiscovered : id ∈ (d.files w).discovered :=
      (h.mem_defined.mp (hbefore id hid)).resolve_left hnot
    exact hround.discovered_iff hbase (hread (h.readable hdiscovered)) hnot
  rw [RoutingDeployment.resolves_iff]
  constructor
  · rintro hafter ⟨id, hid, hnot, hloses⟩
    have hdefined := hsynced.mem_defined.mp (hafter id (hround.inUse_iff.mpr hid))
    have hstill := hdefined.resolve_left fun hconf => hnot (hround.configured_iff.mp hconf)
    exact (hkept id hid hnot).mp hstill hloses
  · intro hnone id hid
    have hold := hround.inUse_iff.mp hid
    refine hsynced.mem_defined.mpr ?_
    by_cases hconf : Configured w id
    · exact .inl (hround.configured_iff.mpr hconf)
    · exact .inr ((hkept id hold hconf).mpr fun hloses => hnone ⟨id, hold, hconf, hloses⟩)

/-- A step keeps the files in step with the catalog, and what resolves exactly when it drops no
driver in use. -/
theorem Synced.next (h : Synced d w) (event : RoutingEvent) :
    Synced d (d.next w event) ∧
      (d.Resolves w → (d.Resolves (d.next w event) ↔ ¬ d.Drops w event)) := by
  cases event with
  | round probe registry =>
      have hround : Rounded d w w.catalog probe (d.next w (.round probe registry)) :=
        round_rounded registry h
      exact ⟨hround.synced h h.sound, hround.resolves_iff h h.sound id⟩
  | restart probe registry =>
      have hround : Rounded d w (createDriverDiscoveryRuntime w.generated) probe
          (d.next w (.restart probe registry)) := restart_rounded registry h
      exact ⟨hround.synced h h.stored,
        hround.resolves_iff h h.stored fun _ => stored_readable⟩
  | addDriver layer id profile =>
      obtain ⟨hsynced, hkeeps⟩ : Synced d (d.next w (.addDriver layer id profile)) ∧
          (d.Resolves w → d.Resolves (d.next w (.addDriver layer id profile))) :=
        h.addDriver layer profile
      exact ⟨hsynced, fun hresolves => iff_of_true (hkeeps hresolves) not_false⟩
  | update drivers input =>
      obtain ⟨hsynced, hkeeps⟩ := h.update drivers input
      exact ⟨hsynced, fun hresolves => iff_of_true (hkeeps hresolves) not_false⟩
  | reset expected =>
      obtain ⟨hsynced, hkeeps⟩ := h.reset expected
      exact ⟨hsynced, fun hresolves => iff_of_true (hkeeps hresolves) not_false⟩

/-! ## Runs -/

/-- A project before the first round and the first update. -/
def fresh (manual : List DriverConfigLayer) (memory : DriverConfig) : RoutingWorld where
  manual
  memory

theorem synced_fresh (manual : List DriverConfigLayer) (memory : DriverConfig) :
    Synced d (fresh manual memory) where
  sound := SoundRecords.nil
  stored := SoundRecords.nil
  detected := .inr ⟨rfl, rfl⟩
  plain := fun _ hfile => (by cases hfile)

/-- In a project whose manual layers resolve, the configuration always loads and every driver an
update has accepted stays defined, exactly when no round drops a driver that is in use. -/
theorem routing_never_dangles_iff (d : RoutingDeployment) (manual : List DriverConfigLayer)
    (memory : DriverConfig) (events : List RoutingEvent)
    (hstart : d.Resolves (fresh manual memory)) :
    (∀ seen, seen <+: events → d.Resolves (seen.foldl d.next (fresh manual memory))) ↔
      ¬ Happened d.next (fresh manual memory) events fun w event _ => d.Drops w event :=
  always_iff_not_happened (J := Synced d) (fun _ event h => (h.next event).1)
    (fun _ event h hresolves hnot => ((h.next event).2 hresolves).mpr hnot)
    (fun _ event h hresolves hdrops hafter => ((h.next event).2 hresolves).mp hafter hdrops)
    (synced_fresh manual memory) hstart

end RoutingDeployment

/-! ## A driver that is configured after it was discovered -/

def exampleDeployment : RoutingDeployment where
  naming := { toLowerCase := id, shortHash := fun _ => "1a2b3c4d" }
  digest := fun document => document.defaultDriver
  render := fun document => document.defaultDriver

def exampleProject : RoutingWorld :=
  RoutingDeployment.fresh [{}] { version := none, defaultDriver := "", drivers := [], roles := [] }

def exampleRegistry : DiscoveryRegistry where
  registerDiscovered := fun _ _ => none
  hasRuntime := fun _ => true

def gooseProbe : DriverProbe where
  agentId := "goose"
  displayName := "Goose CLI"
  provenance := "path"
  probedAt := "2026-10-01T00:00:00.000Z"

def chooseGoose : List RoutingEvent :=
  [.round (.ok [gooseProbe]) exampleRegistry,
    .update anyDriver
      { expectedRevision := legacyDriverId, defaultDriver := "discovered:goose-1a2b3c4d",
        distinct := nil }]

/-- The agent goes missing, and the process is started again. -/
def missGoose : List RoutingEvent :=
  chooseGoose ++ [.restart (.ok []) exampleRegistry, .round (.error .failed) exampleRegistry]

/-- The user writes a driver for the agent before it is found again. -/
def configureGoose : List RoutingEvent :=
  chooseGoose ++
    [.addDriver 0 "goose" { agent := "goose" }, .round (.ok [gooseProbe]) exampleRegistry]

theorem routing_never_dangles_stale :
    ¬ Happened exampleDeployment.next exampleProject missGoose
      fun w event _ => exampleDeployment.Drops w event := by
  refine (RoutingDeployment.routing_never_dangles_iff exampleDeployment [{}] _ _ ?_).mp
    fun seen hseen => ?_
  · decide +kernel
  · have hall : ∀ seen ∈ missGoose.inits,
        exampleDeployment.Resolves (seen.foldl exampleDeployment.next exampleProject) := by
      decide +kernel
    exact hall seen ((List.mem_inits seen missGoose).mpr hseen)

/-- The round records the agent under the new driver and drops the one in use. -/
theorem routing_dangles_after_configuring :
    exampleDeployment.Resolves exampleProject ∧
      "discovered:goose-1a2b3c4d" ∈
        (chooseGoose.foldl exampleDeployment.next exampleProject).accepted ∧
      ¬ exampleDeployment.Resolves
        (configureGoose.foldl exampleDeployment.next exampleProject) := by
  decide +kernel

end Newide.Driver
