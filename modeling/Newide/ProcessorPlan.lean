import Newide.TaskSnapshot
import Newide.TaskStateMachine
import Newide.ProtocolPort

/-!
# Planning a commit

`TaskProcessor` in `src/coordination/task-processor.ts`, up to the point
where it writes: every operation reads an aggregate, checks that it may
act, and builds one commit.  Here that part is a function from the store
to a `Planned`; the clock, the id source and the other things an
operation reads are an `Env`.  The worlds an operation leaves behind are
the subject of the next module.
-/

namespace Newide

open Fallible

/-! ## What an operation reads besides the store -/

/-- Answers of the processor's options within one call: the `i`-th reading of `now()`,
the `i`-th id, and the views of git, the mailbox and the session registry. -/
structure Env where
  now : Nat → Timestamp
  createEventId : Nat → String
  createCheckpointId : Nat → String
  captureFileAnchor : String → String → FileAnchor
  /-- `JSON.stringify`. -/
  stringify : Json → String := fun _ => ""
  mailboxStore : Option MailboxView := none
  participantSessions : Option ParticipantSessionRegistry := none

/-- The answers after the first `n` of each kind. -/
def Env.shift (env : Env) (n : Nat) : Env :=
  { env with
    now := fun i => env.now (n + i)
    createEventId := fun i => env.createEventId (n + i)
    createCheckpointId := fun i => env.createCheckpointId (n + i) }

/-- `createEvent`, the `k`-th of its call.  Reading `0` of the clock is the operation's
own timestamp. -/
def createEvent (env : Env) (k : Nat) (eventType subjectId taskId runId : String)
    (payload : Payload) : Event where
  eventId := env.createEventId k
  eventType
  subjectId
  runId := some runId
  taskId := some taskId
  payload
  createdAt := env.now (k + 1)

/-- `{ ...(value ? { key: value } : {}) }` for a string. -/
def optionalField (key : String) (value : Option String) : Payload :=
  match value with
  | some text => [(key, .str text)]
  | none => []

/-! ## Inputs -/

inductive BeginTaskRunIntent where
  | create
  | checkpointResume (strategy : ResumeStrategy)
  | councilRefinement
  | mailboxContinuation (sourceDeliveryId : String)
deriving DecidableEq

def BeginTaskRunIntent.type : BeginTaskRunIntent → RunIntentType
  | .create => .create
  | .checkpointResume _ => .checkpointResume
  | .councilRefinement => .councilRefinement
  | .mailboxContinuation _ => .mailboxContinuation

def BeginTaskRunIntent.strategy? : BeginTaskRunIntent → Option ResumeStrategy
  | .checkpointResume strategy => some strategy
  | _ => none

structure BeginTaskRunInput where
  taskId : String
  runId : String
  taskRequest : TaskCreateRequest
  workspacePath : String
  mode : RunMode
  memoryAblation : Option MemoryAblation := none
  sessionId : Option String := none
  restartedFromRunId : Option String := none
  resumeCheckpointId : Option String := none
  requestedResumeCursor : Option TaskResumeCursor := none
  cursorInput : Option TaskCursorInput := none
  runIntent : Option BeginTaskRunIntent := none
  taskCreatedEvent : Option Event := none
  runCreatedEvent : Option Event := none
  runStartedEvent : Option Event := none

structure StartTaskStageInput where
  runId : String
  expectedCursor : TaskResumeCursor
  invocationId : String
  event : Option Event := none
  sapExecute : Option SapExecuteDispatch := none

/-- `council_override_input`: a cursor input known to be a Council one. -/
structure CouncilOverrideInput where
  trigger : TaskCouncilTrigger
  primaryEvidenceRef : Option String := none
  candidateManifestRef : Option String := none

def CouncilOverrideInput.toCursorInput (input : CouncilOverrideInput) : TaskCursorInput :=
  .council input.trigger input.primaryEvidenceRef input.candidateManifestRef

structure AdvanceTaskStageInput where
  runId : String
  expectedCursor : TaskResumeCursor
  invocationId : String
  event : Option Event := none
  evidenceRef : RunStageEvidenceReference
  nextInput : TaskCursorInput
  councilOverrideInput : Option CouncilOverrideInput := none
  artifactRefs : List String := []
  ownerAgentId : Option String := none
  sessionId : Option String := none
  finalOutput : Option PersistedTaskFinalOutput := none
  warnings : List String := []
  sapResult : Option (SapExecutionAdmission × SapResultFrame) := none

structure FailTaskStageInput where
  runId : String
  expectedCursor : TaskResumeCursor
  invocationId : String
  event : Option Event := none
  error : PersistedTaskError
  evidenceRef : Option RunStageEvidenceReference := none
  artifactRefs : List String := []
  ownerAgentId : Option String := none
  sessionId : Option String := none
  sapResult : Option (SapExecutionAdmission × SapResultFrame) := none
  sapCancel : Option (SapExecuteDispatch × SapCancelFrame) := none

inductive FinishStatus where
  | completed | failed | cancelled
deriving DecidableEq

def FinishStatus.toRunStatus : FinishStatus → RunStatus
  | .completed => .completed
  | .failed => .failed
  | .cancelled => .cancelled

def FinishStatus.toTaskStatus : FinishStatus → TaskStatus
  | .completed => .completed
  | .failed => .failed
  | .cancelled => .cancelled

structure FinishTaskRunInput where
  runId : String
  status : FinishStatus
  snapshot : Option RunSnapshot := none
  finalOutput : Option PersistedTaskFinalOutput := none
  warnings : Option (List String) := none
  error : Option PersistedTaskError := none
  event : Option Event := none

structure TaskInterruptRequest where
  reason : String
  source : InterruptSource

structure Plan (π : Type) where
  taskId : String
  commit : CoordinationStateCommit
  via : ProtocolWrite π := .storeOnly

/-- What an operation decided: nothing to do for a Task, or a commit. -/
inductive Planned (π : Type) where
  | unchanged (taskId : String)
  | commit (plan : Plan π)

/-! ## Reading an aggregate -/

def requireAggregateForRun (store : CoordinationStore) (runId : String) :
    Except Thrown PersistedTaskAggregate :=
  orThrow
    (store.listTaskAggregates.find? fun candidate =>
      candidate.runs.any fun run => run.runId = runId)
    (.runNotFound runId)

def requireRun (aggregate : PersistedTaskAggregate) (runId : String) :
    Except Thrown PersistedRunState :=
  orThrow (aggregate.run? runId) (.runNotFound runId)

/-- What `readActiveStage` returns: only these two fields of the stored stage. -/
structure ActiveStageInvocation where
  cursor : TaskResumeCursor
  invocationId : String

/-- The object `readActiveStage` returns, as a payload reader sees it. -/
def ActiveStageInvocation.payload (stage : ActiveStageInvocation) : Payload :=
  [("cursor", .str stage.cursor.text), ("invocation_id", .str stage.invocationId)]

def readActiveStage (diagnostics : Diagnostics) : Except Thrown (Option ActiveStageInvocation) :=
  match diagnostics.activeStage with
  | none => .ok none
  | some stage => do
      ensure (stage.invocationId ≠ "") (.error "Persisted active_stage diagnostics are invalid")
      return some { cursor := stage.cursor, invocationId := stage.invocationId }

def assertActiveRunOwnership (aggregate : PersistedTaskAggregate) (run : PersistedRunState) :
    Except Thrown Unit := do
  ensure (isActiveRun run = true)
    (.error ("Run " ++ run.runId ++ " is already " ++ run.status.text))
  ensure (aggregate.task.status = .running)
    (.error ("Task " ++ aggregate.task.taskId ++ " is " ++ aggregate.task.status.text))
  ensure (aggregate.runtimeState.currentRunId = some run.runId)
    (.error ("Run " ++ run.runId ++ " is not the current run for Task " ++
      aggregate.task.taskId))

def assertActiveStageTarget (aggregate : PersistedTaskAggregate) (run : PersistedRunState)
    (expectedCursor : TaskResumeCursor) : Except Thrown Unit := do
  assertActiveRunOwnership aggregate run
  ensure (aggregate.runtimeState.resumeCursor = expectedCursor)
    (.error ("Run " ++ run.runId ++ " cursor mismatch: expected " ++ expectedCursor.text ++
      ", current " ++ aggregate.runtimeState.resumeCursor.text))
  ensure (aggregate.runtimeState.cursorInput.map (·.cursor) = some expectedCursor)
    (.error ("Run " ++ run.runId ++ " has no matching cursor input for " ++ expectedCursor.text))

def assertInvocation (aggregate : PersistedTaskAggregate) (expectedCursor : TaskResumeCursor)
    (invocationId : String) : Except Thrown Unit := do
  let active ← orThrow (← readActiveStage aggregate.runtimeState.diagnostics)
    (.error ("Run " ++ aggregate.runtimeState.currentRunId.getD "unknown" ++
      " has no active stage"))
  ensure (active.cursor = expectedCursor ∧ active.invocationId = invocationId)
    (.error ("Stage invocation mismatch: expected " ++ expectedCursor.text ++ "/" ++
      invocationId ++ ", current " ++ active.cursor.text ++ "/" ++ active.invocationId))

def assertEvidenceReference (reference : RunStageEvidenceReference) : Except Thrown Unit :=
  ensure (reference.uri ≠ "" ∧ isSha256 reference.sha256 = true)
    (.error "Stage evidence reference requires a URI and lowercase SHA256")

def assertFinalOutputEvidence (output : PersistedTaskFinalOutput) : Except Thrown Unit :=
  ensure (output.artifactRef ≠ "" ∧ output.workspacePath ≠ "" ∧ isSha256 output.sha256 = true)
    (.error "Final output requires a non-empty artifact, workspace path, and lowercase SHA256")

def assertStageEvent (event : Event) (expectedType taskId runId : String) :
    Except Thrown Unit := do
  ensure (event.eventType = expectedType)
    (.error ("Stage event must have type " ++ expectedType))
  ensure (event.taskId = some taskId ∧ event.runId = some runId)
    (.error ("Stage event " ++ event.eventId ++ " does not belong to run " ++ runId))

def cursorTransitions : TaskResumeCursor → List TaskResumeCursor
  | .selectAgent => [.executeAgent]
  | .executeAgent => [.council, .gate, .mailboxWait]
  | .council => [.gate]
  | .gate => [.deliver]
  | .deliver => [.done]
  | .mailboxWait => []
  | .done => []

def assertCursorTransition (current next : TaskResumeCursor) : Except Thrown Unit :=
  ensure (next ∈ cursorTransitions current)
    (.error ("Invalid task cursor transition: " ++ current.text ++ " -> " ++ next.text))

/-- `assertChangesetIdentity`: what a gate bound, delivery keeps, and the final output is. -/
def assertChangesetIdentity (currentInput : Option TaskCursorInput) (nextInput : TaskCursorInput)
    (finalOutput : Option PersistedTaskFinalOutput) : Except Thrown Unit :=
  match currentInput, nextInput with
  | some (.gate _ _ changesetRef expectedSha256), .deliver nextRef nextSha =>
      ensure (nextRef = changesetRef ∧ nextSha = expectedSha256)
        (.error "Gate changeset identity cannot change during delivery handoff")
  | some (.deliver changesetRef expectedSha256), .done =>
      ensure (∃ output ∈ finalOutput,
          output.artifactRef = changesetRef ∧ output.sha256 = expectedSha256)
        (.error "Final output identity must match the bound delivery changeset and hash")
  | _, _ => .ok ()

/-! ## Beginning a Run -/

def defaultCursorInput (runId : String) : TaskCursorInput :=
  .selectAgent runId [] none

def assertImmutableTaskDefinition (task : PersistedTaskState) (request : TaskCreateRequest)
    (workspacePath : String) : Except Thrown Unit :=
  ensure (task.spec = request.spec ∧ task.workspacePath = workspacePath ∧
      task.parentId = request.parentTaskId ∧ task.roleId = request.roleId ∧
      task.riskLevel = request.riskLevel.getD .low ∧
      task.completionCriteria = request.completionCriteria ∧
      task.affectedPaths = request.affectedPaths.getD [] ∧ task.budget = request.budget)
    (.error ("Task " ++ task.taskId ++ " definition cannot change between runs"))

def requireMailboxEnvelope (mailboxStore : Option MailboxView) (deliveryId : String) :
    Except Thrown PersistedMailboxEnvelope := do
  let store ← orThrow mailboxStore
    (.error ("Mailbox Delivery " ++ deliveryId ++ " cannot be validated without a store"))
  orThrow (store.getMailboxEnvelope deliveryId)
    (.error ("Mailbox Delivery " ++ deliveryId ++ " was not found"))

/-- The reply to a mailbox request answers it, between the same two roles. -/
def ReplyMatches (existing : PersistedTaskAggregate) (input : BeginTaskRunInput)
    (source reply : PersistedMailboxEnvelope) : Prop :=
  source.message.taskId = input.taskId ∧ reply.message.taskId = input.taskId ∧
    input.workspacePath = source.message.workspacePath ∧
    reply.message.workspacePath = source.message.workspacePath ∧
    some source.message.fromRoleId = existing.task.ownerAgentId ∧
    reply.message.fromRoleId = source.delivery.recipientRoleId ∧
    reply.message.replyToMessageId = some source.message.messageId ∧
    some reply.delivery.recipientRoleId = existing.task.ownerAgentId

instance (existing : PersistedTaskAggregate) (input : BeginTaskRunInput)
    (source reply : PersistedMailboxEnvelope) : Decidable (ReplyMatches existing input source reply) :=
  inferInstanceAs (Decidable (_ ∧ _))

/-- The `create` branch of `assertBeginRunIntent`. -/
def assertCreateIntent (existing : Option PersistedTaskAggregate) (input : BeginTaskRunInput)
    (cursorInput : TaskCursorInput) : Except Thrown Unit := do
  ensure (existing.isNone = true)
    (.error ("Create run intent cannot restart existing Task " ++ input.taskId ++
      "; use checkpoint resume or Council refinement"))
  ensure (cursorInput.cursor = .selectAgent)
    (.error ("Fresh Task " ++ input.taskId ++ " must begin at select_agent"))
  ensure ((truthy input.resumeCheckpointId).isNone = true ∧
      input.requestedResumeCursor.isNone = true)
    (.error "Create run intent cannot include checkpoint resume fields")

/-- The `council_refinement` branch. -/
def assertCouncilRefinementIntent (existing : PersistedTaskAggregate) (input : BeginTaskRunInput)
    (cursorInput : TaskCursorInput) : Except Thrown Unit := do
  assertTaskRunStartTransition existing.task.status .councilRefinement
  ensure (input.mode = .council ∧ cursorInput.cursor = .selectAgent)
    (.error "Council refinement must use Council mode and begin at select_agent")
  ensure ((truthy input.resumeCheckpointId).isNone = true ∧
      input.requestedResumeCursor.isNone = true ∧
      (truthy input.restartedFromRunId).isNone = true)
    (.error "Council refinement cannot include checkpoint resume lineage")

/-- The `mailbox_continuation` branch. -/
def assertMailboxContinuationIntent (existing : PersistedTaskAggregate)
    (input : BeginTaskRunInput) (cursorInput : TaskCursorInput) (sourceDeliveryId : String)
    (mailboxStore : Option MailboxView) : Except Thrown Unit := do
  assertTaskRunStartTransition existing.task.status .mailboxContinuation
  ensure (∃ waiting ∈ existing.runtimeState.cursorInput.bind TaskCursorInput.deliveryIds?,
      sourceDeliveryId ∈ waiting)
    (.error "Mailbox continuation must match the persisted mailbox_wait cursor")
  let replyDeliveryId ← orThrow
    (match cursorInput with
    | .executeAgent winnerAgentId _ mailboxDeliveryId =>
        if some winnerAgentId = existing.task.ownerAgentId then truthy mailboxDeliveryId else none
    | _ => none)
    (.error "Mailbox continuation must resume the waiting sender Agent")
  let sourceRun ← orThrow
    (((truthy input.restartedFromRunId).bind existing.run?).filter fun run =>
      run.status = .completed ∨ run.status = .interrupted)
    (.error "Mailbox continuation requires a completed or interrupted source Run")
  ensure (input.mode = sourceRun.mode)
    (.error "Mailbox continuation must preserve the source Run mode")
  ensure ((truthy input.resumeCheckpointId).isNone = true ∧
      input.requestedResumeCursor.isNone = true)
    (.error "Mailbox continuation cannot claim checkpoint recovery")
  let source ← requireMailboxEnvelope mailboxStore sourceDeliveryId
  let reply ← requireMailboxEnvelope mailboxStore replyDeliveryId
  ensure (ReplyMatches existing input source reply)
    (.error "Mailbox continuation reply does not match the waiting Task and sender")

def ResumeStrategy.startCursor (checkpointCursor : TaskResumeCursor) :
    ResumeStrategy → TaskResumeCursor
  | .fromCheckpoint => checkpointCursor
  | .restartFromBeginning => .selectAgent

/-- The `checkpoint_resume` branch. -/
def assertCheckpointResumeIntent (existing : PersistedTaskAggregate) (input : BeginTaskRunInput)
    (cursorInput : TaskCursorInput) (strategy : ResumeStrategy)
    (latestCheckpoint : Option PersistedFullCheckpoint) : Except Thrown Unit := do
  let checkpoint ← orThrow
    (latestCheckpoint.filter fun checkpoint =>
      input.resumeCheckpointId = some checkpoint.checkpointId ∧
        input.requestedResumeCursor = some checkpoint.resumeCursor)
    (.error ("Task " ++ input.taskId ++
      " checkpoint resume must match its latest checkpoint and requested cursor"))
  assertTaskRunStartTransition existing.task.status .checkpointResume
  ensure (input.restartedFromRunId = some checkpoint.runId)
    (.error ("Task " ++ input.taskId ++ " restarted_from_run_id must match checkpoint run " ++
      checkpoint.runId))
  let interruptedRun ← orThrow
    ((existing.run? checkpoint.runId).filter fun run => run.status = .interrupted)
    (.error ("Task " ++ input.taskId ++ " checkpoint source Run " ++ checkpoint.runId ++
      " must be interrupted"))
  ensure (input.mode = interruptedRun.mode)
    (.error "Checkpoint resume must preserve the interrupted Run mode")
  ensure (cursorInput.cursor = strategy.startCursor checkpoint.resumeCursor)
    (.error ("Checkpoint resume cursor does not match strategy " ++ strategy.text))

/-- `assertBeginRunIntent` after its first check for a Task that exists. -/
def assertExistingTaskIntent (existing : PersistedTaskAggregate) (input : BeginTaskRunInput)
    (cursorInput : TaskCursorInput) (intent : BeginTaskRunIntent)
    (latestCheckpoint : Option PersistedFullCheckpoint) (mailboxStore : Option MailboxView) :
    Except Thrown Unit :=
  match intent with
  | .create => assertCreateIntent (some existing) input cursorInput
  | .councilRefinement => assertCouncilRefinementIntent existing input cursorInput
  | .mailboxContinuation sourceDeliveryId =>
      assertMailboxContinuationIntent existing input cursorInput sourceDeliveryId mailboxStore
  | .checkpointResume strategy =>
      assertCheckpointResumeIntent existing input cursorInput strategy latestCheckpoint

def RunIntentType.text : RunIntentType → String
  | .create => "create"
  | .checkpointResume => "checkpoint_resume"
  | .councilRefinement => "council_refinement"
  | .mailboxContinuation => "mailbox_continuation"

def assertBeginRunIntent (existing : Option PersistedTaskAggregate) (input : BeginTaskRunInput)
    (cursorInput : TaskCursorInput) (intent : BeginTaskRunIntent)
    (latestCheckpoint : Option PersistedFullCheckpoint) (mailboxStore : Option MailboxView) :
    Except Thrown Unit := do
  let _ ← parseTaskCursorInput cursorInput
  match existing with
  | some aggregate =>
      assertExistingTaskIntent aggregate input cursorInput intent latestCheckpoint mailboxStore
  | none => do
      ensure (intent = .create)
        (.error ("Run intent " ++ intent.type.text ++ " requires an existing Task " ++
          input.taskId))
      assertCreateIntent none input cursorInput

namespace BeginTaskRunInput

def intent (input : BeginTaskRunInput) : BeginTaskRunIntent :=
  input.runIntent.getD .create

def initialCursorInput (input : BeginTaskRunInput) : TaskCursorInput :=
  input.cursorInput.getD (defaultCursorInput input.runId)

def newTask (input : BeginTaskRunInput) (timestamp : Timestamp) : PersistedTaskState where
  taskId := input.taskId
  parentId := truthy input.taskRequest.parentTaskId
  status := .running
  roleId := truthy input.taskRequest.roleId
  riskLevel := input.taskRequest.riskLevel.getD .low
  spec := input.taskRequest.spec
  completionCriteria := input.taskRequest.completionCriteria
  affectedPaths := input.taskRequest.affectedPaths.getD []
  budget := input.taskRequest.budget
  workspacePath := input.workspacePath
  warnings := []
  revision := 1
  createdAt := timestamp
  updatedAt := timestamp

/-- The row of an existing Task for its next Run: its last output and error are gone. -/
def restartedTask (task : PersistedTaskState) (timestamp : Timestamp) : PersistedTaskState :=
  { task with
    finalOutput := none
    error := none
    status := .running
    warnings := []
    revision := task.revision + 1
    updatedAt := timestamp }

def newRun (input : BeginTaskRunInput) (timestamp : Timestamp) : PersistedRunState where
  runId := input.runId
  taskId := input.taskId
  status := .running
  mode := input.mode
  workspacePath := input.workspacePath
  sessionId := truthy input.sessionId
  restartedFromRunId := truthy input.restartedFromRunId
  revision := 1
  startedAt := some timestamp
  createdAt := timestamp
  updatedAt := timestamp

/-- The runtime state of a new Run, rebuilt from the input alone. -/
def newRuntimeState (input : BeginTaskRunInput) (timestamp : Timestamp) :
    PersistedTaskRuntimeState where
  taskId := input.taskId
  currentRunId := some input.runId
  resumeCursor := input.initialCursorInput.cursor
  cursorInput := some input.initialCursorInput
  waitingOn := []
  artifactRefs := []
  diagnostics :=
    { mode := input.mode
      runIntent := input.intent.type
      allowAgentCouncil := input.taskRequest.allowAgentCouncil
      memoryAblation := input.memoryAblation
      resumeStrategy := input.intent.strategy?
      resumeCheckpointId := truthy input.resumeCheckpointId
      requestedResumeCursor := input.requestedResumeCursor }
  updatedAt := timestamp

def runPayload (input : BeginTaskRunInput) : Payload :=
  ("mode", .str input.mode.text) ::
    optionalField "memory_ablation" (input.memoryAblation.map (·.text))

def events (env : Env) (input : BeginTaskRunInput) (isNew : Bool) : List Event :=
  (if isNew then
    [input.taskCreatedEvent.getD
      (createEvent env 0 "task.created" input.taskId input.taskId input.runId
        [("spec", .str input.taskRequest.spec),
         ("risk_level", .str (input.taskRequest.riskLevel.getD .low).text)])]
  else []) ++
  [input.runCreatedEvent.getD
      (createEvent env 1 "run.created" input.runId input.taskId input.runId input.runPayload),
   input.runStartedEvent.getD
      (createEvent env 2 "run.started" input.runId input.taskId input.runId input.runPayload)]

end BeginTaskRunInput

/-- The commit of `beginRun`. -/
def beginRunCommit (env : Env) (input : BeginTaskRunInput)
    (existing : Option PersistedTaskAggregate) : CoordinationStateCommit where
  expectedTaskRevision := existing.map (·.task.revision)
  task :=
    match existing with
    | some aggregate => BeginTaskRunInput.restartedTask aggregate.task (env.now 0)
    | none => input.newTask (env.now 0)
  run := some (input.newRun (env.now 0))
  runtimeState := input.newRuntimeState (env.now 0)
  events := input.events env existing.isNone

def BeginTaskRunInput.taskWorkspacePath (input : BeginTaskRunInput)
    (task : PersistedTaskState) : String :=
  match input.intent with
  | .mailboxContinuation _ => task.workspacePath
  | _ => input.workspacePath

/-- `beginRun` up to its commit. -/
def planBeginRun {π : Type} (env : Env) (input : BeginTaskRunInput)
    (store : CoordinationStore) : Except Thrown (Planned π) := do
  let existing := store.getTaskAggregate input.taskId
  ensure (∀ aggregate ∈ existing, aggregate.activeRun?.isNone = true)
    (.error ("Task " ++ input.taskId ++ " already has active run"))
  existing.toList.forM fun aggregate =>
    assertImmutableTaskDefinition aggregate.task input.taskRequest
      (input.taskWorkspacePath aggregate.task)
  assertBeginRunIntent existing input input.initialCursorInput input.intent
    (existing.bind fun _ => store.getLatestCheckpoint input.taskId) env.mailboxStore
  return .commit { taskId := input.taskId, commit := beginRunCommit env input existing }

end Newide
