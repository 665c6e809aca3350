import Newide.Council.RoleRuns
import Newide.Foundation.Records

/-!
# A Council round

`runCouncilRound`: the proposers, who work at the same time, then the
reviewer, then the synthesizer.  With a recovery key the round has a file
that holds its participants, the proposals it was given, those it has
recorded, and one entry for each role.

The runs of the roles are part of what a round is here.  A process that
crashes has performed the beginning of some of them.
-/

namespace Newide.Council

structure CouncilRoundInput where
  taskId : String
  proposals : List Proposal := []
  participants : Option (List CouncilParticipantBinding)
  candidateArtifacts : List ArtifactRef := []
  evidenceArtifactRefs : List String := []
  maxRounds : Option Int := none

structure CouncilRecoveryState where
  taskId : String
  councilRunId : String
  panel : CouncilPanel
  initialProposals : List Proposal
  proposals : Record String Proposal := []
  roles : Record RoleId CouncilRoleRecovery := []

/-- What a process finds: the recovery file, and `reviews.json` in the reviewer's workspace. -/
structure CouncilDisk where
  file : CouncilRecoveryState
  reviewFile : ReviewReading := .ok none

structure CouncilSynthesis where
  synthesisId : String
  synthesizerId : String
  inputProposalIds : List String
  inputReviewIds : List String
  artifactRefs : List String
  summary : String

inductive CouncilVerdict where
  | select | requestRevision
deriving DecidableEq

structure CouncilDecision where
  decisionId : String
  selectedArtifactRefs : List String
  verdict : CouncilVerdict
  reason : String

structure CouncilRunResult where
  councilRunId : String
  participants : List CouncilParticipantBinding
  proposals : List Proposal
  reviews : List Review
  synthesis : Option CouncilSynthesis
  decision : CouncilDecision
  generatedArtifactRefs : List ArtifactRef
  selectedArtifactRefs : List String
  diagnosticRefs : List String

/-- One process of a round: the roles it ran, what it recorded, and how it ended. -/
structure RoundRun where
  proposing : List (CouncilParticipantBinding × RoleRun) := []
  /-- The proposals of this round's proposers, if none of them failed the round. -/
  generated : Option (List (String × Proposal)) := none
  review : Option RoleRun := none
  synthesis : Option RoleRun := none
  outcome : Except CouncilError CouncilRunResult

section Round

variable (env : CouncilEnv) (options : CouncilOptions)

def tryRunRole (councilRunId : String) (spec : RoleSpec) (recovery : Option CouncilDisk) : RoleRun :=
  match recovery with
  | none => startRole env options councilRunId spec false
  | some disk =>
      match Record.get spec.roleId disk.file.roles with
      | none => startRole env options councilRunId spec true
      | some saved => resumeRole env options councilRunId spec saved disk.reviewFile

/-! ## Proposals -/

variable (input : CouncilRoundInput) (panel : CouncilPanel) (recovery : Option CouncilDisk)

def representedAgentIds : List String :=
  (input.proposals.filterMap (·.agentId)).filter (· ≠ "")

/-- The proposers that no proposal of the input represents. -/
def pendingProposers : List CouncilParticipantBinding :=
  panel.proposers.filter (·.agentId ∉ representedAgentIds input)

def proposalSpec (participant : CouncilParticipantBinding) : RoleSpec where
  participant
  phase := .proposal
  inputArtifactRefs := input.evidenceArtifactRefs
  maxAttempts := 2

def buildProposal (participant : CouncilParticipantBinding) (result : AgentExecutionResult) :
    Proposal where
  proposalId := env.ids.proposal participant.participantId
  agentId := some (result.agentId.getD participant.agentId)
  artifactRefs := result.artifactRefs.map (·.artifactId)
  report := result.report
  affectedPaths := result.artifactRefs.filterMap (·.targetPath)
  completionEvidence := [result.driverRunResultId]

def councilRunIdOf : String :=
  match recovery with
  | none => env.ids.councilRun
  | some disk => disk.file.councilRunId

def runProposers : List (CouncilParticipantBinding × RoleRun) :=
  (pendingProposers input panel).map fun participant =>
    (participant, tryRunRole env options (councilRunIdOf env recovery)
      (proposalSpec input participant) recovery)

/-- The proposers with a result; the first error of a proposer fails the round. -/
def proposalExecutions : List (CouncilParticipantBinding × RoleRun) →
    Except CouncilError (List (CouncilParticipantBinding × ConcludedRole))
  | [] => .ok []
  | (participant, run) :: rest =>
      match run.outcome with
      | .error error => .error error
      | .ok none => proposalExecutions rest
      | .ok (some concluded) => (proposalExecutions rest).map ((participant, concluded) :: ·)

/-- The proposal that the file holds for the participant, or else a new one. -/
def recordedProposal (participant : CouncilParticipantBinding) (concluded : ConcludedRole) :
    Proposal :=
  (recovery.bind fun disk => Record.get participant.participantId disk.file.proposals).getD
    (buildProposal env participant concluded.execution.result)

def generateProposals (concluded : List (CouncilParticipantBinding × ConcludedRole)) :
    List (String × Proposal) :=
  concluded.map fun entry => (entry.1.participantId, recordedProposal env recovery entry.1 entry.2)

/-! ## Reviews -/

def reviewAttempts : Nat := 2

def reviewSpec (proposals : List Proposal) : RoleSpec where
  participant := panel.reviewer
  phase := .review
  inputArtifactRefs := proposals.flatMap (·.artifactRefs)
  proposals
  maxAttempts := reviewAttempts

/-- The error of a round whose proposals were not all reviewed. -/
def reviewDeliveryFailure (proposals : List Proposal) (participant : CouncilParticipantBinding)
    (reviewer : Option ConcludedRole) : Option CouncilRoleExecutionError :=
  if proposals = [] then none
  else if reviewer.any fun concluded => coversEveryProposal proposals concluded.reviews then none
  else
    let result := reviewer.map (·.execution.result)
    some
      { councilPhase := .review
        participant
        agentStatus := (result.map (·.status)).getD .failed
        agentRunId := result.map (·.agentRunId)
        driverRunResultId := result.map (·.driverRunResultId)
        failureDetails :=
          { reason := some
              "Reviewer wrote no reviews.json at the workspace root for every proposal."
            retryable := some false
            sessionId := (result.map (·.sessionId)).filter (· ≠ "") }
        message := "Council review role produced no reviews.json at the workspace root after " ++
          toString reviewAttempts ++
          " attempts; the council cannot produce a reviewed result." }

def buildReview (participant : CouncilParticipantBinding) (reviewer : Option ConcludedRole)
    (proposal : Proposal) (item : ParsedReview) : Review where
  reviewId := env.ids.review proposal.proposalId
  proposalId := proposal.proposalId
  reviewerId := (reviewer.bind (·.execution.result.agentId)).getD participant.agentId
  verdict := item.verdict
  reason := item.reason
  unmetCriteria := item.unmetCriteria
  evidenceRefs := item.evidenceRefs

def buildReviews (participant : CouncilParticipantBinding) (reviewer : Option ConcludedRole) :
    List Proposal → Except CouncilError (List Review)
  | [] => .ok []
  | proposal :: rest =>
      match ((reviewer.bind (·.reviews)).getD []).find? (·.proposalId = proposal.proposalId) with
      | none => .error (.plain
          ("Reviewer returned no structured review for " ++ proposal.proposalId))
      | some item => (buildReviews participant reviewer rest).map
          (buildReview env participant reviewer proposal item :: ·)

/-! ## Synthesis -/

def synthesisSpec (proposals : List Proposal) (reviews : List Review) : RoleSpec where
  participant := panel.synthesizer
  phase := .synthesis
  inputArtifactRefs := proposals.flatMap (·.artifactRefs)
  proposals
  reviews
  maxAttempts := (min (max (input.maxRounds.getD 2) 1) 2).toNat

def buildSynthesis (proposals : List Proposal) (reviews : List Review)
    (participant : CouncilParticipantBinding) (result : AgentExecutionResult) :
    CouncilSynthesis where
  synthesisId := env.ids.synthesis
  synthesizerId := result.agentId.getD participant.agentId
  inputProposalIds := proposals.map (·.proposalId)
  inputReviewIds := reviews.map (·.reviewId)
  artifactRefs := result.artifactRefs.map (·.artifactId)
  summary := result.report.summary

def buildDecision (synthesis : Option CouncilSynthesis) (selectedArtifactRefs : List String) :
    CouncilDecision where
  decisionId := env.ids.decision
  selectedArtifactRefs
  verdict := if selectedArtifactRefs ≠ [] then .select else .requestRevision
  reason :=
    if selectedArtifactRefs ≠ [] then
      ((synthesis.map (·.summary)).filter (· ≠ "")).getD
        "Synthesis agent produced the selected final candidate artifact."
    else "Synthesis was unavailable; Coordinator must select the best reviewed proposal."

def councilResult (proposals : List Proposal) (reviews : List Review)
    (executions : List CouncilRoleExecution) (synthesizer : Option ConcludedRole)
    (diagnosticRefs : List String) : CouncilRunResult :=
  let synthesis := synthesizer.map fun concluded =>
    buildSynthesis env proposals reviews panel.synthesizer concluded.execution.result
  let selectedArtifactRefs := (synthesizer.map fun concluded =>
    (concluded.execution.result.artifactRefs.filter isMaterializableFileArtifact).map
      (·.artifactId)).getD []
  { councilRunId := councilRunIdOf env recovery
    participants := panel.participants
    proposals
    reviews
    synthesis
    decision := buildDecision env synthesis selectedArtifactRefs
    generatedArtifactRefs := executions.flatMap (·.result.artifactRefs)
    selectedArtifactRefs
    diagnosticRefs }

/-! ## The round -/

def synthesisStage (proposals : List Proposal) (reviews : List Review)
    (executions : List CouncilRoleExecution) (diagnosticRefs : List String) :
    RoleRun × Except CouncilError CouncilRunResult :=
  let synthesis := tryRunRole env options (councilRunIdOf env recovery)
    (synthesisSpec input panel proposals reviews) recovery
  (synthesis, synthesis.outcome.map fun synthesizer =>
    councilResult env panel recovery proposals reviews
      (executions ++ synthesizer.toList.map (·.execution)) synthesizer
      (diagnosticRefs ++ synthesis.diagnostics))

structure ReviewEnd where
  review : RoleRun
  synthesis : Option RoleRun := none
  outcome : Except CouncilError CouncilRunResult

def acceptReviews (proposals : List Proposal) (reviewer : Option ConcludedRole) :
    Except CouncilError (List Review) :=
  match reviewDeliveryFailure proposals panel.reviewer reviewer with
  | some failure => .error (.role (.execution failure))
  | none => buildReviews env panel.reviewer reviewer proposals

def reviewStage (proposals : List Proposal) (executions : List CouncilRoleExecution)
    (diagnosticRefs : List String) : ReviewEnd :=
  let review := tryRunRole env options (councilRunIdOf env recovery)
    (reviewSpec panel proposals) recovery
  match review.outcome with
  | .error error => { review, outcome := .error error }
  | .ok reviewer =>
      match acceptReviews env panel proposals reviewer with
      | .error error => { review, outcome := .error error }
      | .ok reviews =>
          let (synthesis, outcome) := synthesisStage env options input panel recovery proposals
            reviews (executions ++ reviewer.toList.map (·.execution))
            (diagnosticRefs ++ review.diagnostics)
          { review, synthesis := some synthesis, outcome }

def runPanel : RoundRun :=
  let proposing := runProposers env options input panel recovery
  match proposalExecutions proposing with
  | .error error => { proposing, outcome := .error error }
  | .ok concluded =>
      let generated := generateProposals env recovery concluded
      let reviewed := reviewStage env options input panel recovery
        (input.proposals ++ generated.map Prod.snd) (concluded.map (·.2.execution))
        (proposing.flatMap (·.2.diagnostics))
      { proposing
        generated := some generated
        review := some reviewed.review
        synthesis := reviewed.synthesis
        outcome := reviewed.outcome }

def resolveParticipants : Except CouncilError CouncilPanel :=
  let given : Except CouncilError (Option (List CouncilParticipantBinding)) :=
    match input.participants with
    | some participants => .ok (some participants)
    | none => env.resolveParticipants.mapError fun thrown => .role (.host thrown)
  match given with
  | .error error => .error error
  | .ok none => .error (.plain ("Council participants are required; configure a participant " ++
      "resolver or pass explicit bindings"))
  | .ok (some participants) => (validateParticipants participants).mapError .plain

def createRecovery : CouncilRecoveryState where
  taskId := input.taskId
  councilRunId := env.ids.councilRun
  panel
  initialProposals := input.proposals

/-- The round; with a recovery key, `key` tells what the process finds under it. -/
def runCouncilRound (key : Option (Option CouncilDisk)) : RoundRun :=
  match key with
  | some (some disk) =>
      if disk.file.taskId ≠ input.taskId then
        { outcome := .error
            (.plain "Invalid Council recovery state; refusing to restart the round") }
      else runPanel env options { input with proposals := disk.file.initialProposals }
        disk.file.panel (some disk)
  | some none =>
      match resolveParticipants env input with
      | .error error => { outcome := .error error }
      | .ok panel => runPanel env options input panel
          (some { file := createRecovery env input panel })
  | none =>
      match resolveParticipants env input with
      | .error error => { outcome := .error error }
      | .ok panel => runPanel env options input panel none

end Round

end Newide.Council
