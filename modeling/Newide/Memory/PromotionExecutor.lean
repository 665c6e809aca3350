import Newide.Memory.DeliveryFailures
import Newide.Memory.MemoryEffects

/-!
# The promotion executor

`src/memory/services/promotion-executor.ts`: one claimed candidate from
the verdict of the strategy to its end.  The strategy is injected, so
what it answers is an input; the executor checks it before it writes.

An execution stops at each call of the repository.  One that crashes is
one that takes no further step.
-/

namespace Newide.Memory

open Fallible Relation

/-! ## Decisions -/

inductive PromotionVerdict where
  | eligible | pendingReview | rejected
deriving DecidableEq

inductive PromotionBlockerRule where
  | alreadyPromoted | negativeExperience | belowConfidenceThreshold | insufficientReferences
  | tooRecent | insufficientUserRating

structure PromotionDecision where
  verdict : PromotionVerdict
  strategyVersion : String
  approval : PromotionApprovalMode
  reasons : List String := []
  blockingRules : List PromotionBlockerRule := []
  experienceId : String

inductive PromotionDecisionViolation where
  | decisionShape | verdict | strategyVersion | experienceId | approval | reasons | blockingRules
  | verdictApproval | verdictCombination

def isBlank (c : Char) : Bool :=
  (9 ≤ c.toNat && c.toNat ≤ 13) || (0x2000 ≤ c.toNat && c.toNat ≤ 0x200a) ||
    c.toNat ∈ [32, 160, 0x1680, 0x2028, 0x2029, 0x202f, 0x205f, 0x3000, 0xfeff]

def isNonEmptyString (value : String) : Bool :=
  value.toList.any fun c => !isBlank c

/-- `VERDICT_APPROVAL_PAIRING`. -/
def allowedApprovals : PromotionVerdict → List PromotionApprovalMode
  | .eligible => [.autoApprove]
  | .pendingReview => [.manualReview]
  | .rejected => [.autoApprove, .manualReview]

/-- The checks of `assertPromotionDecisionConsistent` on a value of the right shape, in order. -/
def assertPromotionDecisionConsistent (decision : PromotionDecision) (experienceId : String)
    (approval : PromotionApprovalMode) (strategyVersion : String) :
    Except PromotionDecisionViolation Unit := do
  ensure (isNonEmptyString decision.strategyVersion) .strategyVersion
  ensure (decision.strategyVersion = strategyVersion) .strategyVersion
  ensure (isNonEmptyString decision.experienceId) .experienceId
  ensure (decision.experienceId = experienceId) .experienceId
  ensure (decision.approval = approval) .approval
  ensure (decision.reasons.all isNonEmptyString) .reasons
  ensure (decision.approval ∈ allowedApprovals decision.verdict) .verdictApproval
  if decision.verdict = .rejected then
    ensure (decision.blockingRules ≠ []) .verdictCombination
    ensure (decision.reasons ≠ []) .verdictCombination
  else
    ensure (decision.blockingRules = []) .verdictCombination

/-! ## Failures -/

/-- `classifyPromotionFailure` of a decision that violates the contract. -/
def classifyContractFailure (message : String) : DeliveryFailureClassification :=
  knownDeliveryFailure .payloadUnreadable
    (message ++ " (the strategy decision itself is invalid, so retrying cannot fix it; this is a "
      ++ "configuration error or a strategy defect that needs a human)") false

/-- `classifyPromotionFailure` of what the repository throws. -/
def classifyRepositoryFailure : RepositoryError → DeliveryFailureClassification
  | .integrity _ message =>
      knownDeliveryFailure .storageError
        (message ++ " (the reference itself is invalid, so retrying cannot fix it; this candidate "
          ++ "needs human review)") false
  | .error message =>
      if message.startsWith "Agent not found:" then
        knownDeliveryFailure .deliveryMissing
          (message ++ " (the owning Agent was removed while this experience was being promoted; "
            ++ "re-running will not bring it back)") false
      else classifyDeliveryFailure (.other message)

/-! ## One execution -/

structure PromotionExecutionOptions where
  approval : PromotionApprovalMode
  now : Time
  strategyVersion : String
  owner : Option String := none
  policy : DeliveryRetryPolicy := defaultPromotionRetryPolicy

inductive PromotionExecutionStatus where
  | promoted | pendingReview | rejected | retried | deadLetter | failed

structure PromotionExecutionResult where
  status : PromotionExecutionStatus
  skillId : Option String := none
  skillReused : Option Bool := none
  failure : Option DeliveryFailureClassification := none

inductive StrategyAnswer where
  | threw (e : ThrownError)
  /-- Not a decision at all, or one with a field of the wrong shape. -/
  | malformed (message : String)
  | decided (decision : PromotionDecision)

inductive ExecutionPoint where
  | evaluating
  /-- `settleDecision`. -/
  | settling (decision : PromotionDecision) (outcome : PromotionOutcome)
  | saving (decision : PromotionDecision)
  /-- Inside `saveSkillIfAbsent`, once the embedding is there. -/
  | embedding (decision : PromotionDecision) (skill : SkillRecord)
  | completing (decision : PromotionDecision) (saved : SkillSaveResult)
  /-- `recordFailure`. -/
  | failing (failure : DeliveryFailureClassification) (skillReused : Option Bool)
  | finished (result : PromotionExecutionResult)

structure PromotionExecution where
  candidate : ClaimedPromotionCandidate
  options : PromotionExecutionOptions
  point : ExecutionPoint := .evaluating

def buildPromotedSkill (id roleId : String) (experience : ExperienceRecord) (now : Time)
    (approval : PromotionApprovalMode) : SkillRecord where
  id := id
  description := experience.description
  content := experience.content
  version := "1.0.0"
  reviewStatus := if approval = .autoApprove then .approved else .pending
  tags := experience.tags
  promotedFrom := some experience.id
  promotedAt := now
  agentId := roleId
  marketStatus := "available"
  reviewedBy := if approval = .autoApprove then some "system:auto-approval" else none
  reviewedAt := if approval = .autoApprove then some now else none
  createdAt := now
  updatedAt := now

namespace PromotionExecution

variable (sha256 : PromotionSnapshot → String)

/-- The strategy has answered; `message` words the violation of the contract. -/
def evaluated (execution : PromotionExecution) (message : PromotionDecisionViolation → String) :
    StrategyAnswer → ExecutionPoint
  | .threw e => .failing (classifyDeliveryFailure e) none
  | .malformed described => .failing (classifyContractFailure described) none
  | .decided decision =>
      match assertPromotionDecisionConsistent decision execution.candidate.experience.id
        execution.options.approval execution.options.strategyVersion with
      | .error violation => .failing (classifyContractFailure (message violation)) none
      | .ok _ =>
          match decision.verdict with
          | .eligible => .saving decision
          | .pendingReview => .settling decision .pendingReview
          | .rejected => .settling decision .rejected

def completionRequest (execution : PromotionExecution) (decision : PromotionDecision)
    (outcome : PromotionOutcome) (strategyVersion : String) (skillId : Option String) :
    PromotionCompletionRequest where
  roleId := execution.candidate.roleId
  experienceId := execution.candidate.experience.id
  claimToken := execution.candidate.claimToken
  owner := execution.options.owner
  outcome := outcome
  strategyVersion := strategyVersion
  inputSnapshotHash := promotionInputSnapshotHash sha256 execution.candidate.experience
  reasons := decision.reasons
  skillId := skillId
  now := execution.options.now

def failureRequest (execution : PromotionExecution) (failure : DeliveryFailureClassification) :
    PromotionFailureRequest where
  roleId := execution.candidate.roleId
  experienceId := execution.candidate.experience.id
  claimToken := execution.candidate.claimToken
  owner := execution.options.owner
  error := failure.message
  retryable := failure.retryable
  now := execution.options.now
  policy := execution.options.policy

/-- The claim was lost before the conclusion could be written. -/
def conclusionLost (experienceId outcome : String) : DeliveryFailureClassification :=
  knownDeliveryFailure .deliveryMissing
    ("Promotion claim for experience " ++ experienceId ++ " was lost before the \"" ++ outcome
      ++ "\" conclusion could be written.") false

/-- The Skill is stored, the Experience is not bound to it. -/
def writeBackLost (skillId : String) : DeliveryFailureClassification :=
  knownDeliveryFailure .storageError
    ("Skill " ++ skillId ++ " was stored but the experience write-back did not apply (claim lost, "
      ++ "lease expired, or a concurrent write won); the next attempt reuses the same Skill.") true

def outcomeText : PromotionOutcome → String
  | .promoted => "promoted"
  | .pendingReview => "pending_review"
  | .rejected => "rejected"

def settledResult : PromotionOutcome → PromotionExecutionStatus
  | .promoted => .promoted
  | .pendingReview => .pendingReview
  | .rejected => .rejected

/-- The next call of the repository: where the execution goes on, and what the call wrote.  `id` is
the random id of a Skill that is built. -/
def advance (execution : PromotionExecution) (id : String) (repo : MemoryRepository) :
    ExecutionPoint × MemoryRepository :=
  let roleId := execution.candidate.roleId
  let experience := execution.candidate.experience
  match execution.point with
  | .evaluating => (.evaluating, repo)
  | .settling decision outcome =>
      match repo.completePromotion
        (execution.completionRequest sha256 decision outcome decision.strategyVersion none) with
      | .error e => (.failing (classifyRepositoryFailure e) none, repo)
      | .ok (some _, after) => (.finished { status := settledResult outcome }, after)
      | .ok (none, after) =>
          let failure := conclusionLost experience.id (outcomeText outcome)
          (.finished { status := .failed, failure := some failure }, after)
  | .saving decision =>
      match repo.findPromotedSkill roleId experience.id with
      | .error message => (.failing (classifyRepositoryFailure (.error message)) none, repo)
      | .ok (some skill) => (.completing decision { skill, created := false }, repo)
      | .ok none =>
          (.embedding decision (buildPromotedSkill id roleId experience execution.options.now
            execution.options.approval), repo)
  | .embedding decision skill =>
      match repo.saveSkillIfAbsent roleId experience.id skill with
      | .error message => (.failing (classifyRepositoryFailure (.error message)) none, repo)
      | .ok (saved, after) => (.completing decision saved, after)
  | .completing decision saved =>
      match repo.completePromotion
        (execution.completionRequest sha256 decision .promoted execution.options.strategyVersion
          (some saved.skill.id)) with
      | .error e => (.failing (classifyRepositoryFailure e) (some !saved.created), repo)
      | .ok (some _, after) =>
          (.finished { status := .promoted, skillId := some saved.skill.id
                       skillReused := some !saved.created }, after)
      | .ok (none, after) =>
          (.failing (writeBackLost saved.skill.id) (some !saved.created), after)
  | .failing failure skillReused =>
      match repo.failPromotion (execution.failureRequest failure) with
      | (none, after) =>
          (.finished { status := .failed, skillReused, failure := some failure }, after)
      | (some failed, after) =>
          let dead := failed.promotion.any fun marker => marker.status = .deadLetter
          (.finished { status := if dead then .deadLetter else .retried, skillReused
                       failure := some failure }, after)
  | .finished result => (.finished result, repo)

/-- The call throws instead, as the storage behind it fails. -/
def thrown (execution : PromotionExecution) (e : ThrownError) : ExecutionPoint :=
  match execution.point with
  | .failing failure skillReused =>
      .finished { status := .failed, skillReused, failure := some failure }
  | .completing _ saved => .failing (classifyDeliveryFailure e) (some !saved.created)
  | .finished result => .finished result
  | _ => .failing (classifyDeliveryFailure e) none

end PromotionExecution

end Newide.Memory
