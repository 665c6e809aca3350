import Newide.Memory.MemoryRepository
import Newide.Memory.AgentStores

/-!
# The Skills of the in-memory repository

The methods of `src/memory/adapters/in-memory-repository.ts` that write
Skills, as calls that other calls interleave with at their awaits.  What a
call does once an embedding or an agent was awaited is one write, made
from what the call looked up before.
-/

namespace Newide.Memory

open Fallible

def isMarketEligibleSkill (skill : StoredSkill) : Bool :=
  skill.reviewStatus = .approved && skill.marketStatus ≠ "superseded"

/-! ## Writes -/

/-- `items[index] = item`.  Where the index is past the end the source would leave a gap. -/
def assign {α : Type} (items : List α) (index : Nat) (item : α) : List α :=
  if index < items.length then items.set index item else items ++ [item]

inductive SkillGain where
  | promoted | imported

namespace AgentMemoryStore

def pushSkill (store : AgentMemoryStore) (gain : SkillGain) (skill : StoredSkill) : AgentMemoryStore :=
  let skills := store.skills ++ [skill]
  { store with
    skills
    handle := { store.handle with
      skillCount := skills.length, ownedSkills := store.handle.ownedSkills ++ [skill.id] }
    metrics :=
      match gain with
      | .promoted => { store.metrics with
          skillCount := skills.length
          promotedSkillCount := store.metrics.promotedSkillCount + 1 }
      | .imported => { store.metrics with
          skillCount := skills.length
          importedSkillCount := store.metrics.importedSkillCount + 1 } }

def assignSkill (store : AgentMemoryStore) (index : Nat) (skill : StoredSkill) : AgentMemoryStore :=
  { store with skills := assign store.skills index skill }

def withoutSkill (store : AgentMemoryStore) (skillId : String) (skills : List StoredSkill) : AgentMemoryStore :=
  { store with
    skills
    handle := { store.handle with
      skillCount := skills.length
      ownedSkills := store.handle.ownedSkills.filter (· ≠ skillId) }
    metrics := { store.metrics with skillCount := skills.length } }

def deleteSkill (store : AgentMemoryStore) (skillId : String) : AgentMemoryStore :=
  store.withoutSkill skillId (store.skills.filter fun skill => skill.id ≠ skillId)

/-- Take the Skill at an index away, as `transferSkillToMarket` does. -/
def takeSkill (store : AgentMemoryStore) (index : Nat) (skillId : String) : AgentMemoryStore :=
  store.withoutSkill skillId (store.skills.eraseIdx index)

def receiveSkill (store : AgentMemoryStore) (skill : StoredSkill) : AgentMemoryStore :=
  let skills := store.skills ++ [skill]
  { store with
    skills
    handle := { store.handle with
      skillCount := skills.length, ownedSkills := store.handle.ownedSkills ++ [skill.id] }
    metrics := { store.metrics with skillCount := skills.length } }

end AgentMemoryStore

/-- What one step of a call writes. -/
inductive SkillWrite where
  | push (roleId : String) (skill : StoredSkill)
  | assign (roleId : String) (index : Nat) (skill : StoredSkill)
  | delete (roleId skillId : String)
  | move (fromRoleId : String) (index : Nat) (skillId : String) (moved : StoredSkill)
  | adopt (roleId : String) (copy : StoredSkill) (owner : String) (index : Nat)
      (updatedSource : StoredSkill)

namespace InMemoryRepository

/-- Change the store of an agent; one that was never created is left alone. -/
def modify (repo : InMemoryRepository) (roleId : String) (f : AgentMemoryStore → AgentMemoryStore) :
    InMemoryRepository :=
  match repo.store? roleId with
  | none => repo
  | some store => repo.setStore roleId (f store)

def write (repo : InMemoryRepository) : SkillWrite → InMemoryRepository
  | .push roleId skill => repo.modify roleId (·.pushSkill .promoted skill)
  | .assign roleId index skill => repo.modify roleId (·.assignSkill index skill)
  | .delete roleId skillId => repo.modify roleId (·.deleteSkill skillId)
  | .move fromRoleId index skillId moved =>
      (repo.modify fromRoleId (·.takeSkill index skillId)).modify marketPoolRoleId
        (·.receiveSkill moved)
  | .adopt roleId copy owner index updatedSource =>
      (repo.modify roleId (·.pushSkill .imported copy)).modify owner
        (·.assignSkill index updatedSource)

def skillsOf (repo : InMemoryRepository) (roleId : String) : List StoredSkill :=
  (repo.store? roleId).elim [] AgentMemoryStore.skills

/-- `findSkillOwner`: the first agent with a Skill of this id, and where it is. -/
def findSkillOwner (repo : InMemoryRepository) (skillId : String) :
    Option (String × Nat × StoredSkill) :=
  repo.agents.findSome? fun agent =>
    (agent.2.skills.findIdx? fun skill => skill.id = skillId).bind fun index =>
      agent.2.skills[index]?.map fun skill => (agent.1, index, skill)

end InMemoryRepository

/-! ## Calls -/

inductive SkillReply where
  | saved (skill : StoredSkill) (created : Bool)
  | done
  | imported (imported source : StoredSkill) (created : Bool)
  | moved (skill : StoredSkill)

/-- Where a call of the repository is: at its await, or at its end. -/
inductive SkillCall where
  | saving (roleId : String) (skill : StoredSkill)
  | updating (roleId : String) (index : Nat) (skill : StoredSkill)
  | importing (roleId owner : String) (index : Nat) (source copy : StoredSkill) (now : Time)
  | transferring (fromRoleId : String) (index : Nat) (skillId : String)
      (marketStatus : Option String)
  | ended (result : Except String SkillReply)

/-- A call is made, an agent is created, or the await of a call ends. -/
inductive SkillLabel where
  | ensureAgent (roleId : String)
  | saveSkillIfAbsent (roleId : String) (skill : StoredSkill)
  | updateSkill (roleId : String) (skill : StoredSkill)
  | updateSkillEmbedding (roleId skillId : String) (embedding : Embedding)
  | deleteSkill (roleId skillId : String)
  | marketImportSkill (roleId sourceSkillId uuid : String) (now : Time)
  | transferSkillToMarket (fromRoleId skillId : String) (marketStatus : Option String)
  | resume (call : Nat) (embedded : Except String Embedding) (now : Time)

structure SkillState where
  repo : InMemoryRepository := {}
  calls : List SkillCall := []
  /-- The ids that Skills were given so far. -/
  issued : List String := []

def findSkillByPromotedFrom (skills : List StoredSkill) (promotedFrom : String) :
    Option StoredSkill :=
  skills.find? fun skill => skill.promotedFrom = some promotedFrom

namespace SkillState

def startSave (repo : InMemoryRepository) (roleId : String) (skill : StoredSkill) : SkillCall :=
  match repo.requireStore roleId with
  | .error message => .ended (.error message)
  | .ok store =>
      match skill.promotedFrom.bind (findSkillByPromotedFrom store.skills) with
      | some existing => .ended (.ok (.saved existing false))
      | none => .saving roleId skill

def startUpdate (repo : InMemoryRepository) (roleId : String) (skill : StoredSkill) : SkillCall :=
  match repo.requireStore roleId with
  | .error message => .ended (.error message)
  | .ok store =>
      match store.skills.findIdx? fun item => item.id = skill.id with
      | none => .ended (.error ("Skill not found: " ++ skill.id))
      | some index => .updating roleId index skill

def importedCopy (roleId sourceSkillId uuid : String) (now : Time) (source : StoredSkill) :
    StoredSkill :=
  { source with
    id := uuid
    agentId := roleId
    importedFrom := some sourceSkillId
    importedBy := none
    promotedFrom := none
    createdAt := now
    updatedAt := now }

def startImport (repo : InMemoryRepository) (roleId sourceSkillId uuid : String) (now : Time) :
    SkillCall :=
  match repo.findSkillOwner sourceSkillId with
  | none => .ended (.error ("Market skill not found: " ++ sourceSkillId))
  | some (owner, index, source) =>
      if !isMarketEligibleSkill source then
        .ended (.error ("Market skill not importable (review/status): " ++ sourceSkillId))
      else match repo.requireStore roleId with
        | .error message => .ended (.error message)
        | .ok importer =>
            match importer.skills.find? fun skill => skill.importedFrom = some sourceSkillId with
            | some existing => .ended (.ok (.imported existing source false))
            | none => .importing roleId owner index source
                (importedCopy roleId sourceSkillId uuid now source) now

def startTransfer (repo : InMemoryRepository) (fromRoleId skillId : String)
    (marketStatus : Option String) : SkillCall :=
  match repo.requireStore fromRoleId with
  | .error message => .ended (.error message)
  | .ok source =>
      match source.skills.findIdx? fun skill => skill.id = skillId with
      | none => .ended (.error ("Skill not found: " ++ skillId))
      | some index => .transferring fromRoleId index skillId marketStatus

def movedSkill (original : StoredSkill) (marketStatus : Option String) (now : Time) : StoredSkill :=
  { original with
    agentId := marketPoolRoleId
    marketStatus := marketStatus.getD original.marketStatus
    originAgentId := some (original.originAgentId.getD original.agentId)
    updatedAt := now }

/-- The source of an import, with its importer; it is made from what was looked up. -/
def importedSource (source : StoredSkill) (roleId : String) (now : Time) : StoredSkill :=
  { source with importedBy := some (source.importedBy.getD [] ++ [roleId]), updatedAt := now }

/-- What a call writes after its await, and how it ends. -/
def finish (dimensions : Nat) (repo : InMemoryRepository) (call : SkillCall)
    (embedded : Except String Embedding) (now : Time) :
    Option SkillWrite × Except String SkillReply :=
  match call with
  | .saving roleId skill =>
      match withDescriptionEmbedding dimensions skill.descriptionEmbedding embedded with
      | .error message => (none, .error message)
      | .ok embedding =>
          let stored := { skill with descriptionEmbedding := embedding }
          match skill.promotedFrom.bind (findSkillByPromotedFrom (repo.skillsOf roleId)) with
          | some raced => (none, .ok (.saved raced false))
          | none => (some (.push roleId stored),
              .ok (.saved (if skill.promotedFrom = none then skill else stored) true))
  | .updating roleId index skill =>
      match withDescriptionEmbedding dimensions skill.descriptionEmbedding embedded with
      | .error message => (none, .error message)
      | .ok embedding =>
          let stored := { skill with descriptionEmbedding := embedding }
          match skill.promotedFrom.bind (findSkillByPromotedFrom (repo.skillsOf roleId)) with
          | some clash =>
              if clash.id ≠ stored.id then
                (none, .error ("Skill for promoted_from=" ++ skill.promotedFrom.getD "" ++
                  " already exists in " ++ roleId ++ "; skill " ++ stored.id ++
                  " was left unchanged."))
              else (some (.assign roleId index stored), .ok .done)
          | none => (some (.assign roleId index stored), .ok .done)
  | .importing roleId owner index source copy begun =>
      match withDescriptionEmbedding dimensions copy.descriptionEmbedding embedded with
      | .error message => (none, .error message)
      | .ok embedding =>
          let stored := { copy with descriptionEmbedding := embedding }
          let updatedSource := importedSource source roleId begun
          (some (.adopt roleId stored owner index updatedSource),
            .ok (.imported stored updatedSource true))
  | .transferring fromRoleId index skillId marketStatus =>
      match (repo.skillsOf fromRoleId)[index]? with
      | none => (none, .error "Cannot read properties of undefined")
      | some original =>
          let moved := movedSkill original marketStatus now
          (some (.move fromRoleId index skillId moved), .ok (.moved moved))
  | .ended result => (none, result)

def start (repo : InMemoryRepository) : SkillLabel → Option SkillWrite × SkillCall
  | .saveSkillIfAbsent roleId skill => (none, startSave repo roleId skill)
  | .updateSkill roleId skill => (none, startUpdate repo roleId skill)
  | .updateSkillEmbedding roleId skillId embedding =>
      match repo.requireStore roleId with
      | .error message => (none, .ended (.error message))
      | .ok store =>
          match store.skills.findIdx? fun item => item.id = skillId with
          | none => (none, .ended (.error ("Skill not found: " ++ skillId)))
          | some index =>
              match store.skills[index]? with
              | none => (none, .ended (.error ("Skill not found: " ++ skillId)))
              | some existing =>
                  (some (.assign roleId index { existing with descriptionEmbedding := embedding }),
                    .ended (.ok .done))
  | .deleteSkill roleId skillId =>
      match repo.requireStore roleId with
      | .error message => (none, .ended (.error message))
      | .ok store =>
          if store.skills.any fun skill => skill.id = skillId then
            (some (.delete roleId skillId), .ended (.ok .done))
          else (none, .ended (.error ("Skill not found: " ++ skillId)))
  | .marketImportSkill roleId sourceSkillId uuid now =>
      (none, startImport repo roleId sourceSkillId uuid now)
  | .transferSkillToMarket fromRoleId skillId marketStatus =>
      (none, startTransfer repo fromRoleId skillId marketStatus)
  | .ensureAgent _ | .resume _ _ _ => (none, .ended (.ok .done))

def newId? : SkillLabel → Option String
  | .saveSkillIfAbsent _ skill => some skill.id
  | .marketImportSkill _ _ uuid _ => some uuid
  | _ => none

/-- The agent a call creates if it is missing. -/
def createdAgent? (repo : InMemoryRepository) : SkillLabel → Option String
  | .ensureAgent roleId => some roleId
  | .transferSkillToMarket fromRoleId skillId marketStatus =>
      match startTransfer repo fromRoleId skillId marketStatus with
      | .transferring _ _ _ _ => some marketPoolRoleId
      | _ => none
  | _ => none

def written (dimensions : Nat) (s : SkillState) (label : SkillLabel) : Option SkillWrite :=
  match label with
  | .resume i embedded now =>
      s.calls[i]?.bind fun call => (finish dimensions s.repo call embedded now).1
  | label => (start s.repo label).1

def calling (dimensions : Nat) (s : SkillState) (label : SkillLabel) : List SkillCall :=
  match label with
  | .ensureAgent _ => s.calls
  | .resume i embedded now =>
      match s.calls[i]? with
      | none => s.calls
      | some call => s.calls.set i (.ended (finish dimensions s.repo call embedded now).2)
  | label => s.calls ++ [(start s.repo label).2]

def next (dimensions : Nat) (s : SkillState) (label : SkillLabel) : SkillState where
  repo :=
    match createdAgent? s.repo label, s.written dimensions label with
    | some roleId, _ => s.repo.ensureAgent roleId
    | none, some change => s.repo.write change
    | none, none => s.repo
  calls := s.calling dimensions label
  issued := (newId? label).toList ++ s.issued

end SkillState

end Newide.Memory
