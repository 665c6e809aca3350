import Newide.Foundation.Fallible
import Newide.Memory.DeliveryLifecycle

/-!
# Persona versions

`src/memory/services/persona-version-history.ts` and the write-back rules
of `persona-evolution-decision.ts`: how a row of the version history is
built by each of the three writers, when two writes of one version number
are the same write, and when an evolution or a rollback may be written.
-/

namespace Newide.Memory

open Fallible

/-! ## The records -/

structure PersonaDef where
  roleId : String
  version : Int
  summary : String
  skillsOverview : String
  experienceCoverage : String
  recentPerformance : String
  notes : String
  generatedAt : String
deriving DecidableEq

inductive PersonaVersionSource where
  | seed | baseline | evolution | rollback | manual
deriving DecidableEq

/-- One version of a Persona, and where it came from. -/
structure PersonaVersionRecord where
  roleId : String
  personaVersion : Int
  persona : PersonaDef
  source : PersonaVersionSource
  parentVersion : Option Int := none
  sourceRunId : Option String := none
  strategyVersion : Option String := none
  inputSnapshotHash : Option String := none
  rollbackFromVersion : Option Int := none
  changeSummary : Option String := none
  reviewedBy : Option String := none
  createdAt : String
deriving DecidableEq

inductive PersonaEvolutionOutcome where
  | evolved | pendingReview | rejected
deriving DecidableEq

structure PersonaEvolutionFields where
  outcome : Option PersonaEvolutionOutcome := none
  parentVersion : Option Int := none
  personaVersion : Option Int := none
  strategyVersion : Option String := none
  inputSnapshotHash : Option String := none
  sourceRunId : Option String := none
  evaluatedAt : Option String := none
  reasons : Option (List String) := none
  changeSummary : Option String := none
  reviewedBy : Option String := none

abbrev PersonaEvolutionMarker := DeliveryRecord PersonaEvolutionFields

/-- An ISO timestamp: its text, which is stored, and what `Date.parse` reads from it. -/
structure Timestamp where
  text : String
  ms : Time

/-! ## Building a row -/

def assertPersonaRoleId (expectedRoleId : String) (persona : PersonaDef) : Except String Unit :=
  ensure (persona.roleId = expectedRoleId)
    ("Persona role_id mismatch: expected " ++ expectedRoleId ++ ", got " ++ persona.roleId ++ ".")

def assertPersonaVersionRecordIdentity (record : PersonaVersionRecord) : Except String Unit := do
  assertPersonaRoleId record.roleId record.persona
  ensure (record.persona.version = record.personaVersion)
    ("Persona version mismatch: history row says v" ++ toString record.personaVersion
      ++ ", persona body says v" ++ toString record.persona.version ++ ".")

structure PersonaVersionRecordInput where
  persona : PersonaDef
  source : PersonaVersionSource
  createdAt : String
  parentVersion : Option Int := none
  sourceRunId : Option String := none
  strategyVersion : Option String := none
  inputSnapshotHash : Option String := none
  rollbackFromVersion : Option Int := none
  changeSummary : Option String := none
  reviewedBy : Option String := none

/-- The only place that puts `persona_version` beside the body it is read off. -/
def personaVersionRecord (input : PersonaVersionRecordInput) :
    Except String PersonaVersionRecord := do
  let record : PersonaVersionRecord :=
    { roleId := input.persona.roleId
      personaVersion := input.persona.version
      persona := input.persona
      source := input.source
      parentVersion := input.parentVersion
      sourceRunId := input.sourceRunId
      strategyVersion := input.strategyVersion
      inputSnapshotHash := input.inputSnapshotHash
      rollbackFromVersion := input.rollbackFromVersion
      changeSummary := input.changeSummary
      reviewedBy := input.reviewedBy
      createdAt := input.createdAt }
  assertPersonaVersionRecordIdentity record
  return record

def seedPersonaVersionRecord (persona : PersonaDef) : Except String PersonaVersionRecord :=
  personaVersionRecord { persona, source := .seed, createdAt := persona.generatedAt }

structure EvolvedPersonaVersionInput where
  persona : PersonaDef
  parentVersion : Int
  sourceRunId : String
  strategyVersion : String
  inputSnapshotHash : String
  changeSummary : Option String
  reviewedBy : Option String
  now : String

def evolvedPersonaVersionRecord (input : EvolvedPersonaVersionInput) :
    Except String PersonaVersionRecord :=
  personaVersionRecord
    { persona := input.persona
      source := .evolution
      createdAt := input.now
      parentVersion := some input.parentVersion
      sourceRunId := some input.sourceRunId
      strategyVersion := some input.strategyVersion
      inputSnapshotHash := some input.inputSnapshotHash
      changeSummary := input.changeSummary
      reviewedBy := input.reviewedBy }

/-- The parent is recorded only when the write moves the version on. -/
def manualPersonaVersionRecord (persona : PersonaDef) (previousVersion : Option Int)
    (now : String) : Except String PersonaVersionRecord :=
  personaVersionRecord
    { persona
      source := .manual
      createdAt := now
      parentVersion := previousVersion.filter (· < persona.version) }

def summarizePersonaRollback (parentVersion nextVersion targetVersion : Int)
    (reason : Option String) : String :=
  let base := "Persona v" ++ toString parentVersion ++ " → v" ++ toString nextVersion
    ++ " rolled back to v" ++ toString targetVersion ++ "."
  match reason with
  | none => base
  | some reason => base ++ " Reason: " ++ reason

def buildRolledBackPersona (roleId : String) (target : PersonaDef) (nextVersion : Int)
    (now : String) : PersonaDef where
  roleId := roleId
  version := nextVersion
  summary := target.summary
  skillsOverview := target.skillsOverview
  experienceCoverage := target.experienceCoverage
  recentPerformance := target.recentPerformance
  notes := target.notes
  generatedAt := now

def personaRollbackRecord (persona : PersonaDef) (parentVersion targetVersion : Int)
    (reason reviewedBy : Option String) (now : String) : Except String PersonaVersionRecord :=
  personaVersionRecord
    { persona
      source := .rollback
      createdAt := now
      parentVersion := some parentVersion
      rollbackFromVersion := some targetVersion
      changeSummary :=
        some (summarizePersonaRollback parentVersion persona.version targetVersion reason)
      reviewedBy }

/-- A row belongs to the role and carries the version of its body. -/
structure PersonaVersionRecord.Of (record : PersonaVersionRecord) (persona : PersonaDef) : Prop where
  body : record.persona = persona
  personaVersion : record.personaVersion = persona.version
  roleId : record.roleId = persona.roleId

variable {input : PersonaVersionRecordInput} {record : PersonaVersionRecord}

theorem personaVersionRecord_of (h : personaVersionRecord input = .ok record) :
    record.Of input.persona := by
  simp only [personaVersionRecord, bind_eq_ok, pure_eq_ok] at h
  obtain ⟨_, _, rfl⟩ := h
  exact ⟨rfl, rfl, rfl⟩

theorem personaVersionRecord_origin (h : personaVersionRecord input = .ok record) :
    record.source = input.source ∧ record.inputSnapshotHash = input.inputSnapshotHash := by
  simp only [personaVersionRecord, bind_eq_ok, pure_eq_ok] at h
  obtain ⟨_, _, rfl⟩ := h
  exact ⟨rfl, rfl⟩

theorem personaVersionRecord_ok (input : PersonaVersionRecordInput) :
    ∃ record, personaVersionRecord input = .ok record := by
  refine ⟨_, bind_eq_ok.mpr ⟨⟨⟩, ?_, rfl⟩⟩
  exact bind_eq_ok.mpr ⟨⟨⟩, ensure_eq_ok.mpr rfl, ensure_eq_ok.mpr rfl⟩

/-! ## One row a version -/

/-- The same body, field by field. -/
def isSamePersonaBody (left right : PersonaDef) : Prop :=
  left.roleId = right.roleId ∧ left.version = right.version ∧ left.summary = right.summary ∧
    left.skillsOverview = right.skillsOverview ∧
    left.experienceCoverage = right.experienceCoverage ∧
    left.recentPerformance = right.recentPerformance ∧ left.notes = right.notes ∧
    left.generatedAt = right.generatedAt

instance : DecidableRel isSamePersonaBody := fun _ _ => inferInstanceAs (Decidable (_ ∧ _))

/-- The same write: all but `created_at` and `parent_version`, which a replay reads anew. -/
def isSamePersonaVersionWrite (left right : PersonaVersionRecord) : Prop :=
  left.roleId = right.roleId ∧ left.personaVersion = right.personaVersion ∧
    left.source = right.source ∧ left.sourceRunId = right.sourceRunId ∧
    left.strategyVersion = right.strategyVersion ∧
    left.inputSnapshotHash = right.inputSnapshotHash ∧
    left.rollbackFromVersion = right.rollbackFromVersion ∧
    left.changeSummary = right.changeSummary ∧ left.reviewedBy = right.reviewedBy ∧
    isSamePersonaBody left.persona right.persona

instance : DecidableRel isSamePersonaVersionWrite := fun _ _ => inferInstanceAs (Decidable (_ ∧ _))

inductive PersonaVersionAppendResolution where
  | append
  | identical
  | conflict (existing : PersonaVersionRecord)
deriving DecidableEq

/-- How a write of a version number is filed, the same for all three writers. -/
def resolvePersonaVersionAppend (existing : Option PersonaVersionRecord)
    (incoming : PersonaVersionRecord) : PersonaVersionAppendResolution :=
  match existing with
  | none => .append
  | some existing =>
      if isSamePersonaVersionWrite existing incoming then .identical else .conflict existing

theorem resolvePersonaVersionAppend_eq_append {existing : Option PersonaVersionRecord}
    {incoming : PersonaVersionRecord} :
    resolvePersonaVersionAppend existing incoming = .append ↔ existing = none := by
  cases existing with
  | none => simp [resolvePersonaVersionAppend]
  | some existing =>
      simp only [resolvePersonaVersionAppend]
      split <;> simp

def personaVersionConflictMessage (record : PersonaVersionRecord) : String :=
  "Persona version " ++ toString record.personaVersion ++ " of " ++ record.roleId
    ++ " is already recorded with different content; persona version history is append-only, "
    ++ "so this write was rejected and neither the current persona nor the history changed."

def assertPersonaVersionMonotonic (roleId : String) (currentVersion nextVersion : Int) :
    Except String Unit :=
  ensure (currentVersion < nextVersion)
    ("Persona version must advance: " ++ roleId ++ " is at v" ++ toString currentVersion
      ++ ", the write asked for v" ++ toString nextVersion
      ++ ". Use rollbackPersona to put an older version back; it writes a new version rather than "
      ++ "reusing an old one.")

/-! ## Writing back on a condition -/

inductive PersonaEvolutionWriteResolution where
  | apply (parentVersion nextVersion : Int)
  | conflict (parentVersion currentVersion : Int)

/-- An evolution is written only over the version it was decided on. -/
def resolvePersonaEvolutionWrite (parentVersion currentVersion : Int) :
    PersonaEvolutionWriteResolution :=
  if currentVersion ≠ parentVersion then .conflict parentVersion currentVersion
  else .apply parentVersion (parentVersion + 1)

inductive PersonaRollbackResolution where
  | apply (parentVersion nextVersion targetVersion : Int)
  | conflict (expectedVersion currentVersion : Int)

/-- A rollback is written only over the version its caller read. -/
def resolvePersonaRollback (expectedCurrentVersion currentVersion targetVersion : Int) :
    PersonaRollbackResolution :=
  if currentVersion ≠ expectedCurrentVersion then .conflict expectedCurrentVersion currentVersion
  else .apply currentVersion (currentVersion + 1) targetVersion

end Newide.Memory
