import Newide.Council.Panel

/-!
# One execution of a Council role

What the agent facade is asked for one attempt of a role, what may come
back of it, and the checks of `runRole` on it.  How the facade behaves is
a script: it sees the whole call and answers with the driver events of
the attempt, its end, and what it left in the workspace.

A review file is held as the parser of the provider reads it, and the
report fields of a result as the proposal adapter reads them.
-/

namespace Newide.Council

inductive CouncilPhase where
  | proposal | review | synthesis
deriving DecidableEq

namespace CouncilPhase

def text : CouncilPhase → String
  | .proposal => "proposal"
  | .review => "review"
  | .synthesis => "synthesis"

def failureCode : CouncilPhase → String
  | .proposal => "COUNCIL_PROPOSAL_FAILED"
  | .review => "COUNCIL_REVIEW_FAILED"
  | .synthesis => "COUNCIL_SYNTHESIS_FAILED"

end CouncilPhase

/-! ## Results -/

/-- What the host throws: an `Error`, or any other value as text. -/
inductive HostThrow where
  | error (name message : String) (retryable : Option Bool)
  | value (text : String)

inductive ReviewVerdict where
  | approve | reject | needsRevision

structure ParsedReview where
  proposalId : String
  verdict : ReviewVerdict
  reason : String
  unmetCriteria : List String
  evidenceRefs : List String

/-- The reviews of a file, or the error of reading it. -/
abbrev ReviewReading := Except HostThrow (Option (List ParsedReview))

inductive ArtifactKind where
  | text | file | patch | metadata
deriving DecidableEq

structure ArtifactContent where
  kind : ArtifactKind
  targetPath : Option String
  /-- What its bytes read as, if they are taken for a review file. -/
  reviews : ReviewReading := .ok none

structure ArtifactRef where
  artifactId : String
  content : Option ArtifactContent

/-- `artifact.content?.target_path`, unless it is empty. -/
def ArtifactRef.targetPath (artifact : ArtifactRef) : Option String :=
  (artifact.content.bind (·.targetPath)).filter (· ≠ "")

def isMaterializableFileArtifact (artifact : ArtifactRef) : Bool :=
  match artifact.content with
  | none => false
  | some content => (content.kind = .text || content.kind = .file) && artifact.targetPath.isSome

structure ProposalReport where
  summary : String
  claims : List String := []
  assumptions : List String := []
  knownRisks : List String := []

inductive AgentExecutionStatus where
  | completed | failed | cancelled | interrupted
deriving DecidableEq

structure MailboxOutcome where
  kind : String
  waitForReply : Bool

structure DriverErrorRecord where
  code : Option String
  message : Option String
  retryable : Option Bool

structure AgentDiagnostics where
  mailboxWait : Bool := false
  mailboxOutcomes : List MailboxOutcome := []
  driverAttempts : Option Nat := none
  dispatchStatus : Option String := none
  driverErrorCode : Option String := none
  driverError : Option DriverErrorRecord := none
  councilWarnings : List String := []

structure AgentExecutionResult where
  agentRunId : String
  agentId : Option String
  driverRunResultId : String
  artifactRefs : List ArtifactRef
  sessionId : String
  report : ProposalReport
  status : AgentExecutionStatus
  diagnostics : AgentDiagnostics := {}

def hasBlockingMailboxRequest (result : AgentExecutionResult) : Bool :=
  result.diagnostics.mailboxWait ||
    result.diagnostics.mailboxOutcomes.any fun outcome =>
      outcome.kind = "request" && outcome.waitForReply

/-! ## Failures -/

structure FailureDetails where
  errorName : Option String := none
  errorMessage : Option String := none
  inactivityTimeoutMs : Option Nat := none
  sessionId : Option String := none
  retryable : Option Bool := none
  reason : Option String := none
  fallbackAction : Option String := none
  driverAttempts : Option Nat := none
  dispatchStatus : Option String := none
  driverErrorCode : Option String := none
  driverErrorMessage : Option String := none
  attempt : Option Nat := none
  willRetry : Option Bool := none
  councilRunId : Option String := none
  phaseId : Option String := none

/-- `{ ...base, ...upper }` -/
def FailureDetails.spread (base upper : FailureDetails) : FailureDetails where
  errorName := upper.errorName <|> base.errorName
  errorMessage := upper.errorMessage <|> base.errorMessage
  inactivityTimeoutMs := upper.inactivityTimeoutMs <|> base.inactivityTimeoutMs
  sessionId := upper.sessionId <|> base.sessionId
  retryable := upper.retryable <|> base.retryable
  reason := upper.reason <|> base.reason
  fallbackAction := upper.fallbackAction <|> base.fallbackAction
  driverAttempts := upper.driverAttempts <|> base.driverAttempts
  dispatchStatus := upper.dispatchStatus <|> base.dispatchStatus
  driverErrorCode := upper.driverErrorCode <|> base.driverErrorCode
  driverErrorMessage := upper.driverErrorMessage <|> base.driverErrorMessage
  attempt := upper.attempt <|> base.attempt
  willRetry := upper.willRetry <|> base.willRetry
  councilRunId := upper.councilRunId <|> base.councilRunId
  phaseId := upper.phaseId <|> base.phaseId

structure CouncilRoleExecutionError where
  councilPhase : CouncilPhase
  participant : CouncilParticipantBinding
  agentStatus : AgentExecutionStatus
  agentRunId : Option String := none
  driverRunResultId : Option String := none
  failureDetails : FailureDetails := {}
  message : String := "Council " ++ councilPhase.text ++ " role failed"

inductive RoleError where
  | execution (failure : CouncilRoleExecutionError)
  | inactivity (phase : CouncilPhase) (timeoutMs : Nat) (sessionId : Option String)
  | host (thrown : HostThrow)

def hostErrorDetails : HostThrow → FailureDetails
  | .error name message retryable =>
      { errorName := some name, errorMessage := some message, retryable }
  | .value text => { errorMessage := some text }

def errorDetails : RoleError → FailureDetails
  | .execution failure =>
      { errorName := some "CouncilRoleExecutionError", errorMessage := some failure.message }
  | .inactivity phase timeoutMs sessionId =>
      { errorName := some "CouncilRoleInactivityError"
        errorMessage := some ("Council " ++ phase.text ++ " Driver stopped emitting events for " ++
          toString timeoutMs ++ "ms")
        inactivityTimeoutMs := some timeoutMs
        sessionId }
  | .host thrown => hostErrorDetails thrown

def isRecoverableRoleFailure : RoleError → Bool
  | .inactivity .. => true
  | .host _ => false
  | .execution failure =>
      if 2 ≤ failure.failureDetails.driverAttempts.getD 0 then false
      else if failure.agentStatus = .cancelled || failure.failureDetails.retryable = some false then
        false
      else failure.agentStatus = .interrupted || failure.failureDetails.retryable = some true

def agentFailureDetails (result : AgentExecutionResult) : FailureDetails where
  sessionId := some result.sessionId
  driverAttempts := result.diagnostics.driverAttempts
  dispatchStatus := result.diagnostics.dispatchStatus
  driverErrorCode := result.diagnostics.driverError.bind (·.code) <|>
    result.diagnostics.driverErrorCode
  driverErrorMessage := result.diagnostics.driverError.bind (·.message)
  retryable := result.diagnostics.driverError.bind (·.retryable)

/-! ## Calls -/

structure Proposal where
  proposalId : String
  agentId : Option String
  artifactRefs : List String
  report : ProposalReport
  affectedPaths : List String
  completionEvidence : List String

structure Review where
  reviewId : String
  proposalId : String
  reviewerId : String
  verdict : ReviewVerdict
  reason : String
  unmetCriteria : List String
  evidenceRefs : List String

/-- `${participant_id}:${phase}`; no participant id has a colon in it. -/
structure RoleId where
  participantId : String
  phase : CouncilPhase
deriving DecidableEq

/-- What a role is run on: the proposals and reviews are those staged in its workspace. -/
structure RoleSpec where
  participant : CouncilParticipantBinding
  phase : CouncilPhase
  inputArtifactRefs : List String
  proposals : List Proposal := []
  reviews : List Review := []
  maxAttempts : Nat

def RoleSpec.roleId (spec : RoleSpec) : RoleId := ⟨spec.participant.participantId, spec.phase⟩

abbrev WorkspaceFileSnapshot := List (String × String)

/-- One call of `runRole`. -/
structure RoleCall where
  spec : RoleSpec
  attempt : Nat
  sessionId : Option String
  recoveryReason : Option String
  workspaceBefore : Option WorkspaceFileSnapshot

inductive DriverEventType where
  | promptDispatching | turnStarted | other (name : String)
deriving DecidableEq

/-- An event without a session has an empty one. -/
structure DriverStreamEvent where
  eventType : DriverEventType
  sessionId : String := ""

/-- How a call of the facade ends; `inactive` is the abort after too long a silence. -/
inductive RoleEnding where
  | returned (result : AgentExecutionResult)
  | threw (thrown : HostThrow)
  | inactive

structure RoleBehaviour where
  events : List DriverStreamEvent := []
  ending : RoleEnding
  /-- The files of the workspace that changed since the snapshot. -/
  collected : Except HostThrow (List ArtifactRef) := .ok []
  /-- `reviews.json` at the root of the workspace. -/
  reviewFile : ReviewReading := .ok none

/-- Generated ids, each named after what it is for. -/
structure CouncilIds where
  councilRun : String
  phase : RoleId → Nat → String
  proposal : String → String
  review : String → String
  synthesis : String
  decision : String

structure CouncilEnv where
  /-- What the participant resolver answers; without a resolver there is no answer. -/
  resolveParticipants : Except HostThrow (Option (List CouncilParticipantBinding)) := .ok none
  /-- Staging the workspace of a role, and its snapshot afterwards. -/
  prepare : RoleSpec → Except HostThrow WorkspaceFileSnapshot
  behave : RoleCall → RoleBehaviour
  ids : CouncilIds

inductive CouncilArtifactMode where
  | implementation | plan
deriving DecidableEq

structure CouncilOptions where
  artifactMode : CouncilArtifactMode := .implementation
  roleInactivityTimeoutMs : Nat := 0

/-! ## Plan artifacts -/

def normalizeArtifactTargetPath (path : String) : String := path.replace "\\" "/"

/-- `path.posix.basename` -/
def basename (path : List Char) : List Char :=
  ((path.reverse.dropWhile (· = '/')).takeWhile (· ≠ '/')).reverse

/-- What comes before `suffix`, whatever the case. -/
def stripSuffix (suffix : String) (name : List Char) : Option (List Char) :=
  let stem := name.take (name.length - suffix.length)
  if (name.drop stem.length).map Char.toLower = suffix.toList then some stem else none

/-- `/(?:^|[-_])(plan|review)\.md$/i` on the last part of the target path. -/
def isCouncilPlanArtifact (artifact : ArtifactRef) : Bool :=
  isMaterializableFileArtifact artifact &&
    artifact.targetPath.any fun path =>
      ["plan.md", "review.md"].any fun suffix =>
        match stripSuffix suffix (basename (normalizeArtifactTargetPath path).toList) with
        | none => false
        | some stem => match stem.getLast? with
          | none => true
          | some c => c = '-' || c = '_'

def isCouncilReviewArtifact (artifact : ArtifactRef) : Bool :=
  isMaterializableFileArtifact artifact && artifact.targetPath = some "reviews.json"

def isPlanDeliverable (phase : CouncilPhase) (artifact : ArtifactRef) : Bool :=
  isCouncilPlanArtifact artifact || (phase = .review && isCouncilReviewArtifact artifact)

/-- The error message of `assertCouncilPlanArtifacts`, if there is one; a review need not deliver
a file. -/
def councilPlanViolation (phase : CouncilPhase) (artifacts : List ArtifactRef) : Option String :=
  let materializable := artifacts.filter isMaterializableFileArtifact
  let invalid := materializable.filter fun artifact => !isPlanDeliverable phase artifact
  if invalid ≠ [] then
    some ("Council " ++ phase.text ++ " produced product files during plan-first execution: " ++
      ", ".intercalate (invalid.map fun artifact => artifact.targetPath.getD artifact.artifactId))
  else if phase ≠ .review ∧ materializable = [] then
    some ("Council " ++ phase.text ++ " produced no materializable Plan artifact")
  else none

/-- Keep the files of the workspace, and what the driver reports under other targets. -/
def mergeArtifacts (driverArtifacts workspaceArtifacts : List ArtifactRef) : List ArtifactRef :=
  let rec go (seen : List String) : List ArtifactRef → List ArtifactRef
    | [] => []
    | artifact :: rest =>
        match artifact.targetPath.map normalizeArtifactTargetPath with
        | none => artifact :: go seen rest
        | some key => if key ∈ seen then go seen rest else artifact :: go (key :: seen) rest
  go [] (workspaceArtifacts ++ driverArtifacts)

/-! ## `runRole` -/

section RunRole

variable (env : CouncilEnv) (options : CouncilOptions) (call : RoleCall)

def resultFailure (result : AgentExecutionResult) (details : FailureDetails)
    (status : AgentExecutionStatus) : RoleError :=
  .execution
    { councilPhase := call.spec.phase
      participant := call.spec.participant
      agentStatus := status
      agentRunId := some result.agentRunId
      driverRunResultId := some result.driverRunResultId
      failureDetails := details }

def located (councilRunId : String) (details : FailureDetails) : FailureDetails :=
  { details with
    councilRunId := some councilRunId
    phaseId := some (env.ids.phase call.spec.roleId call.attempt) }

def checkPlan (councilRunId : String) (result : AgentExecutionResult) :
    Except RoleError AgentExecutionResult :=
  match councilPlanViolation call.spec.phase result.artifactRefs with
  | none => .ok result
  | some message =>
      if result.artifactRefs.any (isPlanDeliverable call.spec.phase) then
        .ok { result with
          artifactRefs := result.artifactRefs.filter fun artifact =>
            !isMaterializableFileArtifact artifact || isPlanDeliverable call.spec.phase artifact
          diagnostics := { result.diagnostics with councilWarnings := ["Error: " ++ message] } }
      else
        .error (resultFailure call result
          { located env call councilRunId (hostErrorDetails (.error "Error" message none)) with
            retryable := some true
            sessionId := some result.sessionId } .failed)

def checkResult (councilRunId : String) (result : AgentExecutionResult) :
    Except RoleError AgentExecutionResult := do
  if hasBlockingMailboxRequest result then
    throw (resultFailure call result
      (located env call councilRunId
        { reason := some "Council roles cannot suspend the whole round for a Mailbox reply."
          fallbackAction := some "continue_with_available_evidence"
          retryable := some true
          sessionId := some result.sessionId }) .failed)
  if result.status ≠ .completed then
    throw (resultFailure call result (located env call councilRunId (agentFailureDetails result))
      result.status)
  let result ← if options.artifactMode = .plan then checkPlan env call councilRunId result
    else pure result
  if call.spec.phase ≠ .review ∧ ¬ result.artifactRefs.any isMaterializableFileArtifact then
    throw (resultFailure call result
      { reason := some ("Council " ++ call.spec.phase.text ++ " produced no materializable " ++
          "artifact; persist the assigned output before returning.")
        retryable := some true
        sessionId := some result.sessionId } .failed)
  return result

def observedSession (events : List DriverStreamEvent) : Option String :=
  ((events.map (·.sessionId)).filter (· ≠ "")).getLast?.or call.sessionId

/-- `runRole` under inactivity steering. -/
def runRole (councilRunId : String) (behaviour : RoleBehaviour) :
    Except RoleError AgentExecutionResult :=
  match behaviour.ending with
  | .inactive => .error (.inactivity call.spec.phase options.roleInactivityTimeoutMs
      (observedSession call behaviour.events))
  | .threw thrown => .error (.execution
      { councilPhase := call.spec.phase
        participant := call.spec.participant
        agentStatus := .failed
        failureDetails := located env call councilRunId (hostErrorDetails thrown) })
  | .returned result =>
      if call.workspaceBefore.isSome ∧ result.status = .completed then
        match behaviour.collected with
        | .error thrown => .error (.host thrown)
        | .ok collected => checkResult env options call councilRunId
            { result with artifactRefs := mergeArtifacts result.artifactRefs collected }
      else checkResult env options call councilRunId result

end RunRole

/-! ## Reviews -/

/-- The review artifact of the result, or else the file in the workspace. -/
def readReviews (result : AgentExecutionResult) (file : ReviewReading) : ReviewReading :=
  match result.artifactRefs.find? isCouncilReviewArtifact with
  | some artifact => (artifact.content.map (·.reviews)).getD (.ok none)
  | none => file

def coversEveryProposal (proposals : List Proposal) : Option (List ParsedReview) → Bool
  | none => false
  | some parsed => proposals.all fun proposal =>
      (parsed.filter (·.proposalId = proposal.proposalId)).length = 1

def validate (spec : RoleSpec) (result : AgentExecutionResult) (file : ReviewReading) :
    Except RoleError (Option (List ParsedReview)) :=
  if spec.phase = .review then
    match readReviews result file with
    | .error thrown => .error (.host thrown)
    | .ok parsed =>
        if coversEveryProposal spec.proposals parsed then .ok parsed
        else .error (.execution
          { councilPhase := .review
            participant := spec.participant
            agentStatus := .failed
            agentRunId := some result.agentRunId
            driverRunResultId := some result.driverRunResultId
            failureDetails :=
              { reason := some ("Write reviews.json at the root of this workspace with exactly " ++
                  "one structured review for each proposal in proposals.json.")
                retryable := some true
                sessionId := some result.sessionId } })
  else .ok none

end Newide.Council
