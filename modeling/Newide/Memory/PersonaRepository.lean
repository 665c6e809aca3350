import Mathlib.Data.Int.Order.Basic
import Newide.Foundation.AppendOnly
import Newide.Foundation.Statements
import Newide.Memory.PersonaVersions

/-!
# The Persona side of the memory repository

The methods of `src/memory/adapters/in-memory-repository.ts` that write a
Persona or its version history.  None of them awaits between its checks
and its writes; a throw keeps what was written before it.
-/

namespace Newide.Memory

open Fallible Statement

/-- The Persona part of the store of one agent: the current Persona, the copy in the handle, the
history by version number, and the mark of the evolution channel. -/
structure AgentStore where
  persona : PersonaDef
  handlePersona : PersonaDef
  personaVersions : History Int PersonaVersionRecord
  personaEvolution : Option PersonaEvolutionMarker := none

structure PersonaRepository where
  agents : String → Option AgentStore := fun _ => none

variable {f : AgentStore → AgentStore}

namespace PersonaRepository

variable {repo : PersonaRepository} {roleId : String} {store : AgentStore}

def requireStore (roleId : String) (repo : PersonaRepository) : Except String AgentStore :=
  orThrow (repo.agents roleId) ("Agent not found: " ++ roleId)

def setAgent (repo : PersonaRepository) (roleId : String) (store : AgentStore) :
    PersonaRepository :=
  { repo with agents := fun role => if role = roleId then some store else repo.agents role }

/-- Assign to fields of the store of `roleId`. -/
def assign (repo : PersonaRepository) (roleId : String) (f : AgentStore → AgentStore) :
    PersonaRepository :=
  { repo with
    agents := fun role => if role = roleId then (repo.agents role).map f else repo.agents role }

@[simp] theorem setAgent_self : (repo.setAgent roleId store).agents roleId = some store :=
  if_pos rfl

theorem setAgent_ne {role : String} (hne : role ≠ roleId) :
    (repo.setAgent roleId store).agents role = repo.agents role :=
  if_neg hne

@[simp] theorem setAgent_setAgent {next : AgentStore} :
    (repo.setAgent roleId store).setAgent roleId next = repo.setAgent roleId next := by
  simp only [setAgent, mk.injEq]
  funext role
  by_cases heq : role = roleId
  · simp [heq]
  · simp [heq]

theorem assign_of_store (h : repo.agents roleId = some store) :
    repo.assign roleId f = repo.setAgent roleId (f store) := by
  simp only [assign, setAgent, mk.injEq]
  funext role
  by_cases heq : role = roleId
  · simp [heq, h]
  · simp [heq]

theorem assign_of_absent (h : repo.agents roleId = none) :
    repo.assign roleId f = repo := by
  cases repo
  simp only [assign, mk.injEq]
  funext role
  by_cases heq : role = roleId
  · subst heq
    exact (if_pos rfl).trans ((congrArg _ h).trans h.symm)
  · exact if_neg heq

@[simp] theorem assign_setAgent {f : AgentStore → AgentStore} :
    (repo.setAgent roleId store).assign roleId f = repo.setAgent roleId (f store) := by
  rw [assign_of_store setAgent_self, setAgent_setAgent]

end PersonaRepository

abbrev RepositoryStatement (α : Type) := Statement PersonaRepository String α

def setPersona (roleId : String) (persona : PersonaDef) : RepositoryStatement PUnit :=
  update fun repo => repo.assign roleId fun store => { store with persona }

def setHandlePersona (roleId : String) (persona : PersonaDef) : RepositoryStatement PUnit :=
  update fun repo => repo.assign roleId fun store => { store with handlePersona := persona }

def setPersonaVersion (roleId : String) (record : PersonaVersionRecord) :
    RepositoryStatement PUnit :=
  update fun repo => repo.assign roleId fun store =>
    { store with personaVersions := store.personaVersions.file record.personaVersion record }

def setPersonaEvolution (roleId : String) (marker : Option PersonaEvolutionMarker) :
    RepositoryStatement PUnit :=
  update fun repo => repo.assign roleId fun store => { store with personaEvolution := marker }

/-! ## The first version -/

def createSeedPersona (roleId : String) (personaSeed : Option String) (now : String) :
    PersonaDef where
  roleId := roleId
  version := 1
  summary := personaSeed.getD ("Seed persona for " ++ roleId)
  skillsOverview := "Retrieve with query_memory."
  experienceCoverage := "Retrieve with query_memory."
  recentPerformance := "Awaiting first task."
  notes := "Initialized by MemoryRepository."
  generatedAt := now

def initializeAgent (roleId : String) (personaSeed : Option String) (now : String) :
    RepositoryStatement PUnit := do
  read fun repo => ensure (repo.agents roleId = none) ("Agent already exists: " ++ roleId)
  let persona := createSeedPersona roleId personaSeed now
  let seed ← lift (seedPersonaVersionRecord persona)
  update fun repo => repo.setAgent roleId
    { persona
      handlePersona := persona
      personaVersions := History.file (fun _ => none) persona.version seed }

/-! ## The edit -/

def savePersona (roleId : String) (persona : PersonaDef) (now : String) :
    RepositoryStatement PUnit := do
  let store ← read (PersonaRepository.requireStore roleId)
  lift (assertPersonaRoleId roleId persona)
  let record ← lift (manualPersonaVersionRecord persona (some store.persona.version) now)
  match resolvePersonaVersionAppend (store.personaVersions record.personaVersion) record with
  | .conflict _ => lift (.error (personaVersionConflictMessage record))
  | .identical => return ⟨⟩
  | .append =>
      lift (assertPersonaVersionMonotonic roleId store.persona.version record.personaVersion)
      setPersona roleId persona
      setHandlePersona roleId persona
      setPersonaVersion roleId record

/-! ## The evolution -/

structure PersonaEvolutionCompletionRequest where
  roleId : String
  claimToken : String
  owner : Option String := none
  /-- The version the decision was made on. -/
  parentVersion : Int
  outcome : PersonaEvolutionOutcome
  strategyVersion : String
  inputSnapshotHash : String
  sourceRunId : String
  reasons : List String := []
  changeSummary : Option String := none
  reviewedBy : Option String := none
  persona : Option PersonaDef := none
  now : Timestamp

inductive PersonaEvolutionCompletionResult where
  | applied (marker : PersonaEvolutionMarker) (persona : Option PersonaDef)
  | claimLost
  | parentConflict (expectedParentVersion currentVersion : Int)

namespace PersonaEvolutionCompletionRequest

def holder (request : PersonaEvolutionCompletionRequest) : HolderInput where
  claimToken := request.claimToken
  owner := request.owner
  now := request.now.ms

/-- The Persona of an `evolved` conclusion, under the version its parent gives it. -/
def evolvedPersona (request : PersonaEvolutionCompletionRequest) :
    Except String (Option PersonaDef) := do
  if request.outcome = .evolved then
    let persona ← orThrow request.persona
      "completePersonaEvolution requires a persona when the outcome is \"evolved\"."
    assertPersonaRoleId request.roleId persona
    ensure (persona.version = request.parentVersion + 1)
      ("completePersonaEvolution requires persona version " ++ toString (request.parentVersion + 1)
        ++ " (parent " ++ toString request.parentVersion ++ " + 1); got "
        ++ toString persona.version ++ ".")
    return some persona
  else
    return none

end PersonaEvolutionCompletionRequest

def personaEvolutionSettlement (marker : PersonaEvolutionMarker)
    (request : PersonaEvolutionCompletionRequest) : PersonaEvolutionMarker :=
  { marker with
    item :=
      { outcome := some request.outcome
        parentVersion := some request.parentVersion
        personaVersion :=
          if request.outcome = .evolved then some (request.parentVersion + 1) else none
        strategyVersion := some request.strategyVersion
        inputSnapshotHash := some request.inputSnapshotHash
        sourceRunId := some request.sourceRunId
        evaluatedAt := some request.now.text
        reasons := some request.reasons
        changeSummary := request.changeSummary <|> marker.item.changeSummary
        reviewedBy := request.reviewedBy <|> marker.item.reviewedBy } }

/-- Write an evolved Persona, its row and the settled marker, over the parent only. -/
def writeEvolvedPersona (store : AgentStore) (request : PersonaEvolutionCompletionRequest)
    (persona : PersonaDef) (settled : PersonaEvolutionMarker) :
    RepositoryStatement PersonaEvolutionCompletionResult := do
  match resolvePersonaEvolutionWrite request.parentVersion store.persona.version with
  | .conflict parentVersion currentVersion => return .parentConflict parentVersion currentVersion
  | .apply _ _ =>
      let record ← lift (evolvedPersonaVersionRecord
        { persona
          parentVersion := request.parentVersion
          sourceRunId := request.sourceRunId
          strategyVersion := request.strategyVersion
          inputSnapshotHash := request.inputSnapshotHash
          changeSummary := request.changeSummary
          reviewedBy := request.reviewedBy
          now := request.now.text })
      let resolution := resolvePersonaVersionAppend (store.personaVersions record.personaVersion) record
      match resolution with
      | .conflict _ => lift (.error (personaVersionConflictMessage record))
      | .append | .identical =>
          setPersona request.roleId persona
          setHandlePersona request.roleId persona
          if resolution = .append then
            setPersonaVersion request.roleId record
          setPersonaEvolution request.roleId (some settled)
          return .applied settled (some persona)

def completePersonaEvolution (request : PersonaEvolutionCompletionRequest) :
    RepositoryStatement PersonaEvolutionCompletionResult := do
  match ← read fun repo => .ok (repo.agents request.roleId) with
  | none => return .claimLost
  | some store =>
      match store.personaEvolution with
      | none => return .claimLost
      | some marker =>
          let evolved ← lift request.evolvedPersona
          match completeDeliveryRecord (personaEvolutionSettlement marker request) request.holder
            none with
          | none => return .claimLost
          | some settled =>
              match evolved with
              | some persona => writeEvolvedPersona store request persona settled
              | none =>
                  setPersonaEvolution request.roleId (some settled)
                  return .applied settled none

/-! ## The rollback -/

structure PersonaRollbackRequest where
  roleId : String
  targetVersion : Int
  /-- The version the caller read. -/
  expectedCurrentVersion : Int
  reason : Option String := none
  reviewedBy : Option String := none
  now : String

inductive PersonaRollbackResult where
  | applied (persona : PersonaDef) (record : PersonaVersionRecord)
  | targetMissing (targetVersion : Int)
  | versionConflict (expectedVersion currentVersion : Int)

def rollbackPersona (request : PersonaRollbackRequest) :
    RepositoryStatement PersonaRollbackResult := do
  let store ← read (PersonaRepository.requireStore request.roleId)
  match store.personaVersions request.targetVersion with
  | none => return .targetMissing request.targetVersion
  | some target =>
      lift (assertPersonaVersionRecordIdentity target)
      lift (assertPersonaRoleId request.roleId target.persona)
      match resolvePersonaRollback request.expectedCurrentVersion store.persona.version
        request.targetVersion with
      | .conflict expectedVersion currentVersion =>
          return .versionConflict expectedVersion currentVersion
      | .apply parentVersion nextVersion targetVersion =>
          let persona :=
            buildRolledBackPersona request.roleId target.persona nextVersion request.now
          let record ← lift (personaRollbackRecord persona parentVersion targetVersion
            request.reason request.reviewedBy request.now)
          let resolution :=
            resolvePersonaVersionAppend (store.personaVersions record.personaVersion) record
          match resolution with
          | .conflict _ => lift (.error (personaVersionConflictMessage record))
          | .append | .identical =>
              setPersona request.roleId persona
              setHandlePersona request.roleId persona
              if resolution = .append then
                setPersonaVersion request.roleId record
              return .applied persona record

/-! ## Calls -/

inductive PersonaCall where
  | initializeAgent (roleId : String) (personaSeed : Option String) (now : String)
  | savePersona (roleId : String) (persona : PersonaDef) (now : String)
  | completePersonaEvolution (request : PersonaEvolutionCompletionRequest)
  | rollbackPersona (request : PersonaRollbackRequest)
  /-- Claiming, failing, expiring and retrying an evolution write the marker only. -/
  | mark (roleId : String) (marker : Option PersonaEvolutionMarker)

inductive PersonaAnswer where
  | done
  | completion (result : PersonaEvolutionCompletionResult)
  | rollback (result : PersonaRollbackResult)

def PersonaCall.exec : PersonaCall → RepositoryStatement PersonaAnswer
  | .initializeAgent roleId personaSeed now => do
      Memory.initializeAgent roleId personaSeed now
      return .done
  | .savePersona roleId persona now => do
      Memory.savePersona roleId persona now
      return .done
  | .completePersonaEvolution request => do
      return .completion (← Memory.completePersonaEvolution request)
  | .rollbackPersona request => do
      return .rollback (← Memory.rollbackPersona request)
  | .mark roleId marker => do
      setPersonaEvolution roleId marker
      return .done

/-- The repository after a call, however it ended. -/
def PersonaRepository.step (repo : PersonaRepository) (call : PersonaCall) : PersonaRepository :=
  (call.exec repo).2

end Newide.Memory
