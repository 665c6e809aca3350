import Newide.Foundation.Records
import Newide.Foundation.Fallible
import Newide.Memory.Experiences

/-!
# The stores of the agents

`InMemoryRepository` of `src/memory/adapters/in-memory-repository.ts` as
its methods see it between two awaits: for each agent its Skills and
Experiences, with the counts and id lists of its handle and metrics.  The
copy of the metrics inside the handle and the fields that no method here
reads are left out.
-/

namespace Newide.Memory

open Fallible

abbrev Embedding := List Rat

/-- An Experience as the extractor hands it out: nobody owns it yet. -/
structure CandidateExperience extends ExperienceRecord where
  descriptionEmbedding : Embedding := []

structure StoredExperience extends CandidateExperience where
  agentId : String

/-- A Skill with the fields the market reads; one without a market status has the empty one. -/
structure StoredSkill extends SkillRecord where
  importedFrom : Option String := none
  importedBy : Option (List String) := none
  originAgentId : Option String := none
  descriptionEmbedding : Embedding := []
deriving DecidableEq

structure AgentHandle where
  skillCount : Nat := 0
  experienceCount : Nat := 0
  ownedSkills : List String := []
  ownedExps : List String := []

structure AgentMetrics where
  skillCount : Nat := 0
  experienceCount : Nat := 0
  importedSkillCount : Nat := 0
  promotedSkillCount : Nat := 0

/-- A store starts as `initializeAgent` makes it. -/
structure AgentMemoryStore where
  handle : AgentHandle := {}
  metrics : AgentMetrics := {}
  skills : List StoredSkill := []
  experiences : List StoredExperience := []

namespace AgentMemoryStore

/-- `findExperienceById`. -/
def experience? (store : AgentMemoryStore) (id : String) : Option StoredExperience :=
  store.experiences.find? fun experience => experience.id = id

def pushExperience (store : AgentMemoryStore) (experience : StoredExperience) : AgentMemoryStore :=
  let experiences := store.experiences ++ [experience]
  { store with
    experiences
    handle := { store.handle with
      experienceCount := experiences.length
      ownedExps := store.handle.ownedExps ++ [experience.id] }
    metrics := { store.metrics with experienceCount := experiences.length } }

/-- The counts and the id list of the Experiences are those of the list. -/
structure ExperiencesAgree (store : AgentMemoryStore) : Prop where
  handle : store.handle.experienceCount = store.experiences.length
  metrics : store.metrics.experienceCount = store.experiences.length
  owned : store.handle.ownedExps = store.experiences.map fun experience => experience.id

theorem ExperiencesAgree.push {store : AgentMemoryStore} (h : store.ExperiencesAgree)
    (experience : StoredExperience) : (store.pushExperience experience).ExperiencesAgree where
  handle := rfl
  metrics := rfl
  owned := by
    simp only [pushExperience, List.map_append, List.map_singleton, h.owned]

end AgentMemoryStore

/-- The agents in the order they were created in; each has one store. -/
structure InMemoryRepository where
  agents : Record String AgentMemoryStore := []
  distinct : Record.Distinct agents := by exact Rows.Distinct.nil

namespace InMemoryRepository

def store? (repo : InMemoryRepository) (roleId : String) : Option AgentMemoryStore :=
  Record.get roleId repo.agents

def setStore (repo : InMemoryRepository) (roleId : String) (store : AgentMemoryStore) :
    InMemoryRepository where
  agents := Record.set repo.agents roleId store
  distinct := repo.distinct.set roleId store

def requireStore (repo : InMemoryRepository) (roleId : String) : Except String AgentMemoryStore :=
  orThrow (repo.store? roleId) ("Agent not found: " ++ roleId)

def ensureAgent (repo : InMemoryRepository) (roleId : String) : InMemoryRepository :=
  match repo.store? roleId with
  | some _ => repo
  | none => repo.setStore roleId {}

variable (repo : InMemoryRepository) (roleId other : String) (store : AgentMemoryStore)

@[simp] theorem store?_setStore_self : (repo.setStore roleId store).store? roleId = some store := by
  simp [store?, setStore, Record.get_set repo.distinct]

theorem store?_setStore :
    (repo.setStore roleId store).store? other =
      if other = roleId then some store else repo.store? other :=
  Record.get_set repo.distinct other

theorem store?_ensureAgent :
    (repo.ensureAgent roleId).store? other =
      if other = roleId then some ((repo.store? roleId).getD {}) else repo.store? other := by
  unfold ensureAgent
  cases hstore : repo.store? roleId with
  | none => exact store?_setStore repo roleId other {}
  | some store =>
      dsimp only
      split
      · next h => rw [h, hstore]; rfl
      · rfl

end InMemoryRepository

/-- `withDescriptionEmbedding` of a record with this embedding: it is kept if it has the right
dimensions, and what the provider answers takes its place otherwise. -/
def withDescriptionEmbedding (dimensions : Nat) (current : Embedding)
    (embed : Except String Embedding) : Except String Embedding :=
  if current.length = dimensions then .ok current else embed

end Newide.Memory
