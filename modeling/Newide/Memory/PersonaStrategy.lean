import Newide.Memory.PersonaInputs
import Newide.Memory.PromotionExecutor
import Newide.Memory.PersonaRepository

/-!
# The strategy of the Persona evolution

`src/memory/adapters/default-persona-evolution-strategy.ts`, the contract
of `persona-evolution-decision.ts` its decisions are checked against, and
the part of `persona-evolution-executor.ts` that turns a decision into
the conclusion of a claimed candidate.
-/

namespace Newide.Memory

open Fallible

/-! ## Decisions -/

inductive PersonaEvolutionVerdict where
  | eligible | pendingReview | rejected
deriving DecidableEq

inductive PersonaEvolutionBlockerRule where
  | noApprovedInput | noNewInput | personaUnchanged | parentVersionChanged | feedbackUnavailable
  | belowFeedbackQuality

structure PersonaEvolutionPersonaDraft where
  summary : String
  skillsOverview : String
  experienceCoverage : String
  recentPerformance : String
  notes : String

structure PersonaEvolutionDecision where
  verdict : PersonaEvolutionVerdict
  roleId : String
  strategyVersion : String
  approval : PersonaEvolutionApprovalMode
  parentVersion : Int
  inputSnapshotHash : String
  reasons : List String
  blockingRules : List PersonaEvolutionBlockerRule := []
  persona : Option PersonaEvolutionPersonaDraft := none

structure PersonaEvolutionEvaluationInput where
  roleId : String
  approval : PersonaEvolutionApprovalMode
  currentPersona : PersonaDef
  parentVersion : Int
  snapshot : PersonaEvolutionInputSnapshot
  inputSnapshotHash : String
  lastEvolution : Option PersonaEvolutionLastRun := none

/-! ## The strategy -/

/-- The checks of `assertValidConfig` are fields; the least confidence is in thousandths. -/
structure DefaultPersonaEvolutionStrategy where
  version : String := "persona-threshold.v1"
  approval : PersonaEvolutionApprovalMode := .manualReview
  minApprovedSkills : Nat := 0
  minExperiences : Nat := 0
  minAverageConfidence : Option Rat := none
  version_ne : version ≠ "" := by decide
  confidence_range : ∀ least ∈ minAverageConfidence, 0 ≤ least ∧ least ≤ 1000 := by simp

namespace DefaultPersonaEvolutionStrategy

variable (runtime : PersonaRuntime) (strategy : DefaultPersonaEvolutionStrategy)
  (input : PersonaEvolutionEvaluationInput)

def reject (blockingRules : List PersonaEvolutionBlockerRule) (reasons : List String) :
    PersonaEvolutionDecision where
  verdict := .rejected
  roleId := input.roleId
  strategyVersion := strategy.version
  approval := input.approval
  parentVersion := input.parentVersion
  inputSnapshotHash := input.inputSnapshotHash
  reasons := reasons
  blockingRules := blockingRules

def sizeReasons (roleId : String) (snapshot : PersonaEvolutionInputSnapshot) : List String :=
  if snapshot.skills.length = 0 ∧ snapshot.experiences.length = 0 then
    ["Role " ++ roleId ++ " has no approved skills and no eligible experiences to evolve from."]
  else
    (if snapshot.skills.length < strategy.minApprovedSkills then
      ["Only " ++ toString snapshot.skills.length
        ++ " approved skills; the strategy requires at least "
        ++ toString strategy.minApprovedSkills ++ "."]
    else []) ++
    (if snapshot.experiences.length < strategy.minExperiences then
      ["Only " ++ toString snapshot.experiences.length
        ++ " eligible experiences; the strategy requires at least "
        ++ toString strategy.minExperiences ++ "."]
    else [])

/-- The feedback is looked at only where a least confidence is asked for. -/
def feedbackBlock (roleId : String) (snapshot : PersonaEvolutionInputSnapshot) :
    Option (PersonaEvolutionBlockerRule × String) :=
  match strategy.minAverageConfidence with
  | none => none
  | some least =>
      match snapshot.feedback with
      | none => some (.feedbackUnavailable,
          "The strategy requires an average confidence of at least " ++ runtime.printed least
            ++ ", but no feedback aggregate is available for " ++ roleId ++ ".")
      | some feedback =>
          if feedback.averageConfidence < least then
            some (.belowFeedbackQuality,
              "Average confidence " ++ runtime.printed feedback.averageConfidence
                ++ " is below the required " ++ runtime.printed least ++ ".")
          else none

/-- What keeps an input from being evolved, whatever the Persona is. -/
def inputBlocks (roleId : String) (snapshot : PersonaEvolutionInputSnapshot) :
    List (PersonaEvolutionBlockerRule × String) :=
  if strategy.sizeReasons roleId snapshot ≠ [] then
    (strategy.sizeReasons roleId snapshot).map fun reason => (.noApprovedInput, reason)
  else (strategy.feedbackBlock runtime roleId snapshot).toList

end DefaultPersonaEvolutionStrategy

def PersonaEvolutionLastRun.EvolvedFrom (last : PersonaEvolutionLastRun) (hash : String) : Prop :=
  last.outcome = .evolved ∧ last.inputSnapshotHash = some hash

instance (last : PersonaEvolutionLastRun) (hash : String) : Decidable (last.EvolvedFrom hash) :=
  inferInstanceAs (Decidable (_ ∧ _))

/-- All but the notes. -/
def personaContentMatches (draft : PersonaEvolutionPersonaDraft) (current : PersonaDef) : Prop :=
  draft.summary = current.summary ∧ draft.skillsOverview = current.skillsOverview ∧
    draft.experienceCoverage = current.experienceCoverage ∧
    draft.recentPerformance = current.recentPerformance

instance (draft : PersonaEvolutionPersonaDraft) (current : PersonaDef) :
    Decidable (personaContentMatches draft current) :=
  inferInstanceAs (Decidable (_ ∧ _))

/-- `text.slice(0, 12)`. -/
def hashStart (hash : String) : String :=
  String.ofList (hash.toList.take 12)

def personaDraft (runtime : PersonaRuntime) (input : PersonaEvolutionEvaluationInput) :
    PersonaEvolutionPersonaDraft where
  summary := input.currentPersona.summary
  skillsOverview := buildSkillsOverview input.snapshot.skills
  experienceCoverage := buildExperienceCoverage runtime input.snapshot.experiences
  recentPerformance := input.currentPersona.recentPerformance
  notes := "Evolved by DefaultPersonaEvolutionStrategy from v" ++ toString input.parentVersion
    ++ " using " ++ toString input.snapshot.skills.length ++ " approved skills and "
    ++ toString input.snapshot.experiences.length ++ " experiences (snapshot "
    ++ hashStart input.inputSnapshotHash ++ ")."

namespace DefaultPersonaEvolutionStrategy

def evaluate (runtime : PersonaRuntime) (strategy : DefaultPersonaEvolutionStrategy)
    (input : PersonaEvolutionEvaluationInput) : PersonaEvolutionDecision :=
  let blocks := strategy.inputBlocks runtime input.roleId input.snapshot
  if blocks ≠ [] then strategy.reject input (blocks.map Prod.fst) (blocks.map Prod.snd)
  else if ∃ last ∈ input.lastEvolution, last.EvolvedFrom input.inputSnapshotHash then
    let evolved := (input.lastEvolution.bind (·.personaVersion)).getD input.parentVersion
    strategy.reject input [.noNewInput]
      ["Persona v" ++ toString evolved ++ " was already evolved from this exact input snapshot; "
        ++ "a strategy version change alone must not produce another version."]
  else if personaContentMatches (personaDraft runtime input) input.currentPersona then
    strategy.reject input [.personaUnchanged]
      ["The evolved persona fields are identical to " ++ input.roleId ++ " v"
        ++ toString input.parentVersion ++ "; there is nothing to write."]
  else
    { verdict := if input.approval = .manualReview then .pendingReview else .eligible
      roleId := input.roleId
      strategyVersion := strategy.version
      approval := input.approval
      parentVersion := input.parentVersion
      inputSnapshotHash := input.inputSnapshotHash
      reasons :=
        [if input.approval = .manualReview then
          "Candidate qualifies but the run is in manual_review mode; it is recorded without "
            ++ "writing a Persona version."
        else "Candidate qualifies and the run is in auto_approve mode."]
      persona := some (personaDraft runtime input) }

variable {runtime : PersonaRuntime} {strategy : DefaultPersonaEvolutionStrategy}
  {input : PersonaEvolutionEvaluationInput}

theorem personaContentMatches_draft :
    personaContentMatches (personaDraft runtime input) input.currentPersona ↔
      buildSkillsOverview input.snapshot.skills = input.currentPersona.skillsOverview ∧
        buildExperienceCoverage runtime input.snapshot.experiences =
          input.currentPersona.experienceCoverage := by
  simp [personaContentMatches, personaDraft]

/-- An input is evolved only where nothing blocks it, an evolution from it is not the last
conclusion, the Persona is not what it gives, and the run approves by itself. -/
theorem evaluate_eligible (h : (strategy.evaluate runtime input).verdict = .eligible) :
    strategy.inputBlocks runtime input.roleId input.snapshot = [] ∧
      (¬ ∃ last ∈ input.lastEvolution, last.EvolvedFrom input.inputSnapshotHash) ∧
      ¬ personaContentMatches (personaDraft runtime input) input.currentPersona ∧
      input.approval = .autoApprove := by
  unfold evaluate at h
  dsimp only at h
  split at h
  · cases h
  next hblocks =>
  split at h
  · cases h
  next hlast =>
  split at h
  · cases h
  next hcontent =>
  refine ⟨not_not.mp hblocks, hlast, hcontent, ?_⟩
  dsimp only at h
  split at h
  · cases h
  next hauto =>
  cases happroval : input.approval with
  | autoApprove => rfl
  | manualReview => exact absurd happroval hauto

end DefaultPersonaEvolutionStrategy

/-! ## The contract -/

/-- Violations of the shape cannot happen to a value of the type. -/
inductive PersonaEvolutionViolation where
  | decisionShape | verdict | roleId | strategyVersion | approval | parentVersion
  | inputSnapshotHash | reasons | blockingRules | verdictApproval | verdictCombination
  | personaDraft

structure PersonaEvolutionExpected where
  roleId : String
  approval : PersonaEvolutionApprovalMode
  strategyVersion : String
  parentVersion : Int
  inputSnapshotHash : String

/-- `VERDICT_APPROVAL_PAIRING`. -/
def PersonaEvolutionVerdict.allowedApprovals :
    PersonaEvolutionVerdict → List PersonaEvolutionApprovalMode
  | .eligible => [.autoApprove]
  | .pendingReview => [.manualReview]
  | .rejected => [.autoApprove, .manualReview]

def isPersonaDraft (draft : PersonaEvolutionPersonaDraft) : Bool :=
  [draft.summary, draft.skillsOverview, draft.experienceCoverage, draft.recentPerformance,
    draft.notes].all isNonEmptyString

def assertPersonaEvolutionDecisionConsistent (decision : PersonaEvolutionDecision)
    (expected : PersonaEvolutionExpected) : Except PersonaEvolutionViolation Unit := do
  ensure (isNonEmptyString decision.roleId) .roleId
  ensure (decision.roleId = expected.roleId) .roleId
  ensure (isNonEmptyString decision.strategyVersion) .strategyVersion
  ensure (decision.strategyVersion = expected.strategyVersion) .strategyVersion
  ensure (decision.approval = expected.approval) .approval
  ensure (0 < decision.parentVersion) .parentVersion
  ensure (decision.parentVersion = expected.parentVersion) .parentVersion
  ensure (isNonEmptyString decision.inputSnapshotHash) .inputSnapshotHash
  ensure (decision.inputSnapshotHash = expected.inputSnapshotHash) .inputSnapshotHash
  ensure (decision.reasons.all isNonEmptyString) .reasons
  ensure (decision.approval ∈ decision.verdict.allowedApprovals) .verdictApproval
  if decision.verdict = .rejected then
    ensure (decision.blockingRules ≠ []) .verdictCombination
    ensure (decision.reasons ≠ []) .verdictCombination
    ensure (decision.persona = none) .verdictCombination
  else
    ensure (decision.blockingRules = []) .verdictCombination
    ensure (decision.persona.any isPersonaDraft) .personaDraft

/-! ## The executor -/

def buildEvolvedPersona (roleId : String) (draft : PersonaEvolutionPersonaDraft)
    (parentVersion : Int) (now : String) : PersonaDef where
  roleId := roleId
  version := parentVersion + 1
  summary := draft.summary
  skillsOverview := draft.skillsOverview
  experienceCoverage := draft.experienceCoverage
  recentPerformance := draft.recentPerformance
  notes := draft.notes
  generatedAt := now

def summarizePersonaEvolutionChange (parentVersion personaVersion : Int)
    (snapshot : PersonaEvolutionInputSnapshot) (inputSnapshotHash : String) : String :=
  "Persona v" ++ toString parentVersion ++ " → v" ++ toString personaVersion ++ " from "
    ++ toString snapshot.skills.length ++ " approved skills and "
    ++ toString snapshot.experiences.length ++ " experiences (snapshot "
    ++ hashStart inputSnapshotHash ++ ")."

structure ClaimedPersonaEvolutionCandidate where
  roleId : String
  claimToken : String
  attemptCount : Nat
  persona : PersonaDef
  snapshot : PersonaEvolutionInputSnapshot
  inputSnapshotHash : String
  lastEvolution : Option PersonaEvolutionLastRun

structure PersonaEvolutionExecutionOptions where
  approval : PersonaEvolutionApprovalMode
  sourceRunId : String
  /-- `AUTO_APPROVAL_REVIEWER` where nobody is named. -/
  reviewedBy : String := "system:auto-approval"
  now : Timestamp

namespace ClaimedPersonaEvolutionCandidate

def evaluationInput (candidate : ClaimedPersonaEvolutionCandidate)
    (approval : PersonaEvolutionApprovalMode) : PersonaEvolutionEvaluationInput where
  roleId := candidate.roleId
  approval := approval
  currentPersona := candidate.persona
  parentVersion := candidate.persona.version
  snapshot := candidate.snapshot
  inputSnapshotHash := candidate.inputSnapshotHash
  lastEvolution := candidate.lastEvolution

/-- How `settleConclusion` concludes a decision that writes no Persona. -/
def conclusion (candidate : ClaimedPersonaEvolutionCandidate) (owner : Option String)
    (strategy : DefaultPersonaEvolutionStrategy) (options : PersonaEvolutionExecutionOptions)
    (decision : PersonaEvolutionDecision) (outcome : PersonaEvolutionOutcome) :
    PersonaEvolutionCompletionRequest where
  roleId := candidate.roleId
  claimToken := candidate.claimToken
  owner := owner
  parentVersion := candidate.persona.version
  outcome := outcome
  strategyVersion := strategy.version
  inputSnapshotHash := candidate.inputSnapshotHash
  sourceRunId := options.sourceRunId
  reasons := decision.reasons
  now := options.now

/-- `executePersonaEvolutionCandidate` up to its call of `completePersonaEvolution`. -/
def completionRequest (runtime : PersonaRuntime) (candidate : ClaimedPersonaEvolutionCandidate)
    (owner : Option String) (strategy : DefaultPersonaEvolutionStrategy)
    (options : PersonaEvolutionExecutionOptions) :
    Except PersonaEvolutionViolation PersonaEvolutionCompletionRequest := do
  let parentVersion := candidate.persona.version
  let decision := strategy.evaluate runtime (candidate.evaluationInput options.approval)
  assertPersonaEvolutionDecisionConsistent decision
    { roleId := candidate.roleId
      approval := options.approval
      strategyVersion := strategy.version
      parentVersion
      inputSnapshotHash := candidate.inputSnapshotHash }
  let concluded := candidate.conclusion owner strategy options decision
  match decision.verdict with
  | .rejected => return concluded .rejected
  | .pendingReview => return concluded .pendingReview
  | .eligible =>
      let nextPersona := decision.persona.map fun draft =>
        buildEvolvedPersona candidate.roleId draft parentVersion options.now.text
      return { concluded .evolved with
        changeSummary := some (summarizePersonaEvolutionChange parentVersion (parentVersion + 1)
          candidate.snapshot candidate.inputSnapshotHash)
        reviewedBy := some options.reviewedBy
        persona := nextPersona }

end ClaimedPersonaEvolutionCandidate

/-! ## The marker in the repository -/

structure PersonaEvolutionClaimRequest where
  owner : String
  now : Time
  leaseMs : Int
  strategyVersion : String
  approval : PersonaEvolutionApprovalMode
  policy : DeliveryRetryPolicy := defaultPersonaEvolutionRetryPolicy

def PersonaEvolutionClaimRequest.candidateInput (request : PersonaEvolutionClaimRequest)
    (inputSnapshotHash : String) : PersonaEvolutionCandidateInput where
  now := request.now
  strategyVersion := request.strategyVersion
  approval := request.approval
  inputSnapshotHash := inputSnapshotHash
  policy := request.policy

/-- The claim of one role; `claimNextPersonaEvolutionCandidate` makes one a role, in turn, until
one is granted. -/
def claimPersonaEvolutionSync (runtime : PersonaRuntime) (skills : List SkillRecord)
    (experiences : List ExperienceRecord) (roleId : String)
    (request : PersonaEvolutionClaimRequest) (claimToken : String) :
    RepositoryStatement (Option ClaimedPersonaEvolutionCandidate) := do
  match ← Statement.read fun repo => .ok (repo.agents roleId) with
  | none => return none
  | some store =>
      let snapshot := buildPersonaEvolutionSnapshot runtime roleId skills experiences
      let inputSnapshotHash := runtime.inputSnapshotHash roleId skills experiences
      -- Before the plan resets the marker.
      let lastEvolution := personaEvolutionLastRun store.personaEvolution
      let plan := planPersonaEvolutionCandidate store.personaEvolution
        (request.candidateInput inputSnapshotHash)
      match plan.marker request.policy request.now with
      | none => return none
      | some marker =>
          let claimed ← Statement.lift (claimDeliveryRecord request.policy marker
            { owner := request.owner, now := request.now, leaseMs := request.leaseMs, claimToken })
          match claimed with
          | none =>
              if plan.expires then
                setPersonaEvolution roleId (some marker)
              return none
          | some claimed =>
              setPersonaEvolution roleId (some claimed)
              return some
                { roleId
                  claimToken
                  attemptCount := claimed.attemptCount
                  persona := store.persona
                  snapshot
                  inputSnapshotHash
                  lastEvolution }

def movePersonaEvolution (roleId : String)
    (move : PersonaEvolutionMarker → Option PersonaEvolutionMarker) :
    RepositoryStatement (Option PersonaEvolutionMarker) := do
  match ← Statement.read fun repo => .ok (repo.agents roleId) with
  | none => return none
  | some store =>
      match store.personaEvolution.bind move with
      | none => return none
      | some moved =>
          setPersonaEvolution roleId (some moved)
          return some moved

structure PersonaEvolutionFailureRequest where
  roleId : String
  claimToken : String
  owner : Option String := none
  error : String
  retryable : Bool
  now : Time
  policy : DeliveryRetryPolicy := defaultPersonaEvolutionRetryPolicy

def failPersonaEvolution (request : PersonaEvolutionFailureRequest) :
    RepositoryStatement (Option PersonaEvolutionMarker) :=
  movePersonaEvolution request.roleId fun marker =>
    failDeliveryRecord request.policy marker
      { claimToken := request.claimToken, owner := request.owner, now := request.now }
      request.error request.retryable

/-- What `restoreExpiredPersonaEvolutionClaims` does to each role. -/
def restoreExpiredPersonaEvolutionClaim (roleId : String) (now : Time)
    (policy : DeliveryRetryPolicy) : RepositoryStatement (Option PersonaEvolutionMarker) :=
  movePersonaEvolution roleId fun marker =>
    if isDeliveryClaimExpired marker now then some (expireDeliveryClaimRecord policy marker now)
    else none

def retryDeadLetterPersonaEvolution (roleId : String) (now : Time) :
    RepositoryStatement (Option PersonaEvolutionMarker) :=
  movePersonaEvolution roleId fun marker => resetDeliveryForRetry marker now

end Newide.Memory
