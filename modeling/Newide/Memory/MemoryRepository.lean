import Mathlib.Logic.Relation
import Newide.Foundation.Rows
import Newide.Memory.PromotionCandidates

/-!
# Experiences and Skills in the memory repository

The methods of `src/memory/adapters/in-memory-repository.ts` by which
feedback and promotion write Experiences and Skills.  Each of them reads,
decides and writes without an await in between, except
`saveSkillIfAbsent`, which awaits the embedding between its two checks;
its two halves are two definitions.

What such a method can write is said once, by `ExperienceEffect` and
`MemoryEffect`.
-/

namespace Newide.Memory

open Fallible Rows

/-! ## The store -/

/-- The Skills and Experiences of one agent; an Experience is saved under an id once. -/
structure RoleStore where
  roleId : String
  skills : List SkillRecord := []
  experiences : List ExperienceRecord := []
  distinct : Rows.Distinct ExperienceRecord.id experiences := by exact Rows.Distinct.nil

structure MemoryRepository where
  stores : List RoleStore := []
  distinct : Rows.Distinct RoleStore.roleId stores := by exact Rows.Distinct.nil

namespace RoleStore

def experience? (store : RoleStore) (id : String) : Option ExperienceRecord :=
  lookup ExperienceRecord.id id store.experiences

/-- `findSkillByPromotedFrom`. -/
def skillFrom? (store : RoleStore) (promotedFrom : String) : Option SkillRecord :=
  store.skills.find? fun skill => skill.promotedFrom = some promotedFrom

def write (store : RoleStore) (next : ExperienceRecord) : RoleStore where
  roleId := store.roleId
  skills := store.skills
  experiences := replace ExperienceRecord.id next store.experiences
  distinct := store.distinct.replace next

def addSkill (store : RoleStore) (skill : SkillRecord) : RoleStore :=
  { store with skills := store.skills ++ [skill] }

def saveExperienceIfAbsent (store : RoleStore) (experience : ExperienceRecord) : RoleStore :=
  match hnew : store.experience? experience.id with
  | some _ => store
  | none =>
      { roleId := store.roleId
        skills := store.skills
        experiences := store.experiences ++ [experience]
        distinct := store.distinct.append_new (lookup_eq_none.mp hnew) }

@[simp] theorem write_roleId (next : ExperienceRecord) (store : RoleStore) :
    (store.write next).roleId = store.roleId := rfl

@[simp] theorem addSkill_roleId (skill : SkillRecord) (store : RoleStore) :
    (store.addSkill skill).roleId = store.roleId := rfl

@[simp] theorem save_roleId (experience : ExperienceRecord) (store : RoleStore) :
    (store.saveExperienceIfAbsent experience).roleId = store.roleId := by
  unfold saveExperienceIfAbsent
  split <;> rfl

end RoleStore

namespace MemoryRepository

def store? (repo : MemoryRepository) (roleId : String) : Option RoleStore :=
  lookup RoleStore.roleId roleId repo.stores

def experience? (repo : MemoryRepository) (roleId experienceId : String) :
    Option ExperienceRecord :=
  (repo.store? roleId).bind (·.experience? experienceId)

/-- Write the store of `roleId`; the role of a store never changes. -/
def updateStore (repo : MemoryRepository) (roleId : String) (f : RoleStore → RoleStore)
    (hf : ∀ store, (f store).roleId = store.roleId) : MemoryRepository where
  stores := update RoleStore.roleId roleId f repo.stores
  distinct := repo.distinct.update hf

def writeExperience (repo : MemoryRepository) (roleId : String) (next : ExperienceRecord) :
    MemoryRepository :=
  repo.updateStore roleId (·.write next) (RoleStore.write_roleId next)

def addSkill (repo : MemoryRepository) (roleId : String) (skill : SkillRecord) :
    MemoryRepository :=
  repo.updateStore roleId (·.addSkill skill) (RoleStore.addSkill_roleId skill)

def requireStore (repo : MemoryRepository) (roleId : String) : Except String RoleStore :=
  orThrow (repo.store? roleId) ("Agent not found: " ++ roleId)

structure ExperienceSaveResult where
  experience : ExperienceRecord
  created : Bool

def saveExperienceIfAbsent (repo : MemoryRepository) (roleId : String)
    (experience : ExperienceRecord) : Except String (ExperienceSaveResult × MemoryRepository) := do
  let store ← repo.requireStore roleId
  match store.experience? experience.id with
  | some raced => return ({ experience := raced, created := false }, repo)
  | none =>
      return ({ experience, created := true },
        repo.updateStore roleId (·.saveExperienceIfAbsent experience)
          (RoleStore.save_roleId experience))

def ensureAgent (repo : MemoryRepository) (roleId : String) : MemoryRepository :=
  match hnew : repo.store? roleId with
  | some _ => repo
  | none =>
      { stores := repo.stores ++ [{ roleId }]
        distinct :=
          have habsent : ∀ old ∈ repo.stores, old.roleId ≠ roleId :=
            lookup_eq_none.mp hnew
          repo.distinct.append_new habsent }

end MemoryRepository

/-! ## Feedback -/

inductive ExperienceFeedbackOutcome where
  | applied | alreadyApplied | experienceMissing
deriving DecidableEq

structure ExperienceFeedbackResult where
  outcome : ExperienceFeedbackOutcome
  experience : Option ExperienceRecord := none

namespace MemoryRepository

def applyExperienceFeedback (repo : MemoryRepository) (roleId : String)
    (input : ExperienceFeedbackApplication) (now : Time) :
    Except String (ExperienceFeedbackResult × MemoryRepository) := do
  let store ← repo.requireStore roleId
  match store.experience? input.experienceId with
  | none => return ({ outcome := .experienceMissing }, repo)
  | some current =>
      if isFeedbackApplied current input.feedbackId then
        return ({ outcome := .alreadyApplied, experience := some current }, repo)
      else
        let next := applyFeedbackToExperience current input now
        return ({ outcome := .applied, experience := some next },
          repo.writeExperience roleId next)

end MemoryRepository

/-! ## Claims -/

def marketPoolRoleId : String := "__market__"

structure PromotionRuntime where
  sha256 : PromotionSnapshot → String
  localeCompare : String → String → Ordering

structure PromotionClaimRequest where
  roleId : Option String := none
  owner : String
  now : Time
  leaseMs : Int
  strategyVersion : String
  approval : PromotionApprovalMode
  policy : DeliveryRetryPolicy := defaultPromotionRetryPolicy

def promotionCandidateInput (request : PromotionClaimRequest) : PromotionCandidateInput where
  now := request.now
  strategyVersion := request.strategyVersion
  approval := request.approval
  policy := request.policy

structure ClaimedPromotionCandidate where
  roleId : String
  experience : ExperienceRecord
  claimToken : String
  attemptCount : Nat

/-- `comparePromotionCandidates`: first created first, then by id. -/
def promotionBefore (runtime : PromotionRuntime) (left right : String × ExperienceRecord) : Prop :=
  if left.2.createdAt ≠ right.2.createdAt then left.2.createdAt < right.2.createdAt
  else runtime.localeCompare left.2.id right.2.id ≠ .gt

instance (runtime : PromotionRuntime) : DecidableRel (promotionBefore runtime) :=
  fun left right => inferInstanceAs (Decidable
    (if left.2.createdAt ≠ right.2.createdAt then left.2.createdAt < right.2.createdAt
      else runtime.localeCompare left.2.id right.2.id ≠ .gt))

namespace MemoryRepository

def promotionRoleIds (repo : MemoryRepository) : Option String → List String
  | some roleId => [roleId]
  | none => (repo.stores.map (·.roleId)).filter (· ≠ marketPoolRoleId)

def scanPromotionCandidates (runtime : PromotionRuntime) (repo : MemoryRepository)
    (roleId : Option String) (input : PromotionCandidateInput) :
    List (String × ExperienceRecord) :=
  let candidates := (repo.promotionRoleIds roleId).flatMap fun role =>
    ((repo.store? role).elim [] (·.experiences)).filterMap fun experience =>
      match planPromotionCandidate runtime.sha256 experience input with
      | .skip _ => none
      | _ => some (role, experience)
  candidates.insertionSort (promotionBefore runtime)

/-- The plan is made again over the Experience as it is now. -/
def claimPromotionSync (runtime : PromotionRuntime) (repo : MemoryRepository)
    (roleId experienceId : String) (request : PromotionClaimRequest) (claimToken : String) :
    Except String (Option ClaimedPromotionCandidate × MemoryRepository) :=
  match repo.experience? roleId experienceId with
  | none => .ok (none, repo)
  | some experience =>
      let plan :=
        planPromotionCandidate runtime.sha256 experience (promotionCandidateInput request)
      match plan.marker request.policy request.now with
      | none => .ok (none, repo)
      | some marker =>
          match claimDeliveryRecord request.policy marker
            { owner := request.owner, now := request.now, leaseMs := request.leaseMs,
              claimToken } with
          | .error message => .error message
          | .ok none =>
              match plan with
              | .expireThenClaim _ =>
                  .ok (none,
                    repo.writeExperience roleId { experience with promotion := some marker })
              | _ => .ok (none, repo)
          | .ok (some claimed) =>
              let next := { experience with promotion := some claimed }
              .ok (some { roleId, experience := next, claimToken,
                          attemptCount := claimed.attemptCount },
                repo.writeExperience roleId next)

/-- The candidates one by one, until one is claimed; a throw leaves what was written. -/
def claimFirstPromotion (runtime : PromotionRuntime) (request : PromotionClaimRequest)
    (claimToken : String) (repo : MemoryRepository) :
    List (String × ExperienceRecord) → Option ClaimedPromotionCandidate × MemoryRepository
  | [] => (none, repo)
  | (roleId, experience) :: rest =>
      match repo.claimPromotionSync runtime roleId experience.id request claimToken with
      | .error _ => (none, repo)
      | .ok (some claimed, after) => (some claimed, after)
      | .ok (none, after) => claimFirstPromotion runtime request claimToken after rest

def claimNextPromotionCandidate (runtime : PromotionRuntime) (repo : MemoryRepository)
    (request : PromotionClaimRequest) (claimToken : String) :
    Option ClaimedPromotionCandidate × MemoryRepository :=
  repo.claimFirstPromotion runtime request claimToken
    (repo.scanPromotionCandidates runtime request.roleId (promotionCandidateInput request))

end MemoryRepository

/-! ## Skills -/

structure SkillSaveResult where
  skill : SkillRecord
  created : Bool

namespace MemoryRepository

/-- `saveSkillIfAbsent` before the embedding: the Skill that is there already. -/
def findPromotedSkill (repo : MemoryRepository) (roleId experienceId : String) :
    Except String (Option SkillRecord) := do
  let store ← repo.requireStore roleId
  return store.skillFrom? experienceId

/-- And after it: look once more, and write. -/
def saveSkillIfAbsent (repo : MemoryRepository) (roleId experienceId : String)
    (skill : SkillRecord) : Except String (SkillSaveResult × MemoryRepository) := do
  let store ← repo.requireStore roleId
  match store.skillFrom? experienceId with
  | some raced => return ({ skill := raced, created := false }, repo)
  | none => return ({ skill, created := true }, repo.addSkill roleId skill)

end MemoryRepository

/-! ## Conclusions -/

inductive PromotedSkillViolation where
  | missing | otherRole | otherSource

inductive RepositoryError where
  | error (message : String)
  /-- `PromotionSkillIntegrityError`. -/
  | integrity (violation : PromotedSkillViolation) (message : String)

structure PromotedSkillFacts where
  roleId : String
  promotedFrom : Option String

/-- The Skill must be there, belong to the role, and come from the Experience. -/
def assertPromotedSkillReference (roleId experienceId skillId : String) :
    Option PromotedSkillFacts → Except RepositoryError Unit
  | none =>
      .error (.integrity .missing
        ("Promotion integrity: skill " ++ skillId ++ " does not exist, so experience "
          ++ experienceId ++ " cannot be promoted to it."))
  | some skill =>
      if skill.roleId ≠ roleId then
        .error (.integrity .otherRole
          ("Promotion integrity: skill " ++ skillId ++ " belongs to agent " ++ skill.roleId
            ++ ", not " ++ roleId ++ "; experience " ++ experienceId
            ++ " cannot be promoted to it."))
      else if skill.promotedFrom ≠ some experienceId then
        .error (.integrity .otherSource
          ("Promotion integrity: skill " ++ skillId ++ " was promoted from "
            ++ skill.promotedFrom.getD "nothing" ++ ", not from experience " ++ experienceId
            ++ "."))
      else .ok ()

structure PromotionCompletionRequest where
  roleId : String
  experienceId : String
  claimToken : String
  owner : Option String := none
  outcome : PromotionOutcome
  strategyVersion : String
  inputSnapshotHash : String
  reasons : List String
  skillId : Option String := none
  now : Time

structure PromotionFailureRequest where
  roleId : String
  experienceId : String
  claimToken : String
  owner : Option String := none
  error : String
  retryable : Bool
  now : Time
  policy : DeliveryRetryPolicy := defaultPromotionRetryPolicy

namespace MemoryRepository

def findSkillFactsById (repo : MemoryRepository) (skillId : String) : Option PromotedSkillFacts :=
  repo.stores.findSome? fun store =>
    (store.skills.find? fun skill => skill.id = skillId).map fun skill =>
      { roleId := store.roleId, promotedFrom := skill.promotedFrom }

/-- The marker with a conclusion; it names a Skill only when that is what was concluded. -/
def concluded (marker : ExperiencePromotion) (request : PromotionCompletionRequest) :
    ExperiencePromotion :=
  { marker with
    item :=
      { marker.item with
        outcome := some request.outcome
        strategyVersion := some request.strategyVersion
        inputSnapshotHash := some request.inputSnapshotHash
        evaluatedAt := some request.now
        skillId := if request.outcome = .promoted then request.skillId else none
        reasons := some request.reasons } }

def completePromotion (repo : MemoryRepository) (request : PromotionCompletionRequest) :
    Except RepositoryError (Option ExperienceRecord × MemoryRepository) := do
  ensure (request.outcome = .promoted → request.skillId.isSome)
    (RepositoryError.error
      "completePromotion requires a skill_id when the outcome is \"promoted\".")
  match repo.experience? request.roleId request.experienceId with
  | none => return (none, repo)
  | some experience =>
      match experience.promotion with
      | none => return (none, repo)
      | some marker =>
          match completeDeliveryRecord (concluded marker request)
            { claimToken := request.claimToken, owner := request.owner, now := request.now }
            none with
          | none => return (none, repo)
          | some completed =>
              match if request.outcome = .promoted then request.skillId else none with
              | none =>
                  let next := { experience with promotion := some completed }
                  return (some next, repo.writeExperience request.roleId next)
              | some promotedTo =>
                  assertPromotedSkillReference request.roleId request.experienceId promotedTo
                    (repo.findSkillFactsById promotedTo)
                  let next :=
                    { experience with promotion := some completed, promotedTo := some promotedTo }
                  return (some next, repo.writeExperience request.roleId next)

def movePromotion (repo : MemoryRepository) (roleId experienceId : String)
    (move : ExperiencePromotion → Option ExperiencePromotion) :
    Option ExperienceRecord × MemoryRepository :=
  match repo.experience? roleId experienceId with
  | none => (none, repo)
  | some experience =>
      match experience.promotion.bind move with
      | none => (none, repo)
      | some moved =>
          let next := { experience with promotion := some moved }
          (some next, repo.writeExperience roleId next)

def failPromotion (repo : MemoryRepository) (request : PromotionFailureRequest) :
    Option ExperienceRecord × MemoryRepository :=
  repo.movePromotion request.roleId request.experienceId fun marker =>
    failDeliveryRecord request.policy marker
      { claimToken := request.claimToken, owner := request.owner, now := request.now }
      request.error request.retryable

def retryDeadLetterPromotion (repo : MemoryRepository) (roleId experienceId : String)
    (now : Time) : Option ExperienceRecord × MemoryRepository :=
  repo.movePromotion roleId experienceId fun marker => resetDeliveryForRetry marker now

/-- Each claim that ran out is taken back; one write does not change what another one finds. -/
def restoreExpiredPromotionClaims (repo : MemoryRepository) (roleId : Option String) (now : Time)
    (policy : DeliveryRetryPolicy) : MemoryRepository :=
  let found := (repo.promotionRoleIds roleId).flatMap fun role =>
    ((repo.store? role).elim [] (·.experiences)).map fun experience => (role, experience.id)
  found.foldl (fun repo key => (repo.movePromotion key.1 key.2 fun marker =>
    if isDeliveryClaimExpired marker now then some (expireDeliveryClaimRecord policy marker now)
    else none).2) repo

end MemoryRepository

end Newide.Memory
