import Newide.CursorInput

/-!
# Persisted coordination state

The rows of `src/persistence/coordination-state-store.ts`: a Task, its
Runs, the one runtime state it has, its events and its checkpoints, and
the commit that writes some of each in one transaction.

The runtime diagnostics are an open record in the source.  Here every
key that some function writes or reads is a field, so `{ ...diagnostics,
key: value }` is a record update and removing a key sets it to `none`.
-/

namespace Newide

/-! ## Tasks and Runs -/

inductive RunStatus where
  | created | running | interrupted | completed | failed | cancelled
deriving DecidableEq, Inhabited

def RunStatus.text : RunStatus → String
  | .created => "created"
  | .running => "running"
  | .interrupted => "interrupted"
  | .completed => "completed"
  | .failed => "failed"
  | .cancelled => "cancelled"

structure PersistedTaskError where
  code : String
  message : String
  details : Option Payload := none

structure PersistedTaskFinalOutput where
  artifactRef : String
  sha256 : String
  workspacePath : String

structure PersistedTaskState where
  taskId : String
  parentId : Option String := none
  status : TaskStatus
  ownerAgentId : Option String := none
  roleId : Option String := none
  riskLevel : RiskLevel
  spec : String
  completionCriteria : List String
  affectedPaths : List String
  budget : Option TaskBudget := none
  workspacePath : String
  warnings : List String
  finalOutput : Option PersistedTaskFinalOutput := none
  error : Option PersistedTaskError := none
  revision : Nat
  createdAt : Timestamp
  updatedAt : Timestamp

/-- The parts of a stored run snapshot that the coordination code reads. -/
structure RunFinalOutput where
  artifactRefs : List String
  filesWritten : List String
  sessionId : Option String := none

structure RunSnapshot where
  runSessionId : Option String := none
  councilResult : Option Json := none
  errors : List PersistedTaskError := []
  finalOutput : Option RunFinalOutput := none

structure PersistedRunState where
  runId : String
  taskId : String
  status : RunStatus
  mode : RunMode
  workspacePath : String
  sessionId : Option String := none
  restartedFromRunId : Option String := none
  snapshot : Option RunSnapshot := none
  error : Option PersistedTaskError := none
  revision : Nat
  startedAt : Option Timestamp := none
  completedAt : Option Timestamp := none
  createdAt : Timestamp
  updatedAt : Timestamp

def isActiveRun (run : PersistedRunState) : Bool :=
  run.status = .created ∨ run.status = .running

/-! ## Runtime state -/

/-- `BeginTaskRunIntent['type']`, the part of the intent that is stored. -/
inductive RunIntentType where
  | create | checkpointResume | councilRefinement | mailboxContinuation

inductive ResumeStrategy where
  | fromCheckpoint | restartFromBeginning
deriving DecidableEq

def ResumeStrategy.text : ResumeStrategy → String
  | .fromCheckpoint => "from_checkpoint"
  | .restartFromBeginning => "restart_from_beginning"

inductive MemoryAblation where
  | B0 | B1 | B2 | B3 | B4

def MemoryAblation.text : MemoryAblation → String
  | .B0 => "B0"
  | .B1 => "B1"
  | .B2 => "B2"
  | .B3 => "B3"
  | .B4 => "B4"

inductive SafepointTrigger where
  | manual | periodic | shutdown | blocked | escalated
deriving DecidableEq

def SafepointTrigger.text : SafepointTrigger → String
  | .manual => "manual"
  | .periodic => "periodic"
  | .shutdown => "shutdown"
  | .blocked => "blocked"
  | .escalated => "escalated"

structure RunStageEvidenceReference where
  uri : String
  sha256 : String

/-- `diagnostics.active_stage`: present while a stage invocation runs. -/
structure ActiveStage where
  cursor : TaskResumeCursor
  invocationId : String
  startedAt : Timestamp
  startedEventId : String
  sapOutboxId : Option String := none
  sapExchangeId : Option String := none
  councilSapExchangeIds : List String := []
  councilSapResultExchangeIds : List String := []

structure Diagnostics where
  mode : RunMode
  runIntent : RunIntentType
  allowAgentCouncil : Bool := false
  memoryAblation : Option MemoryAblation := none
  resumeStrategy : Option ResumeStrategy := none
  resumeCheckpointId : Option String := none
  requestedResumeCursor : Option TaskResumeCursor := none
  activeStage : Option ActiveStage := none
  stageEvidence : List (TaskResumeCursor × RunStageEvidenceReference) := []
  lastCompletedStage : Option TaskResumeCursor := none
  lastCompletedInvocationId : Option String := none
  failedStage : Option TaskResumeCursor := none
  failedInvocationId : Option String := none
  failedStageEvidence : Option RunStageEvidenceReference := none
  councilOverride : Bool := false
  councilOverrideEventId : Option String := none
  mailboxWaitRunId : Option String := none
  collaborationDeadlock : Bool := false
  collaborationDeadlockCode : Option String := none
  mailboxTimeout : Bool := false
  mailboxTimeoutCode : Option String := none
  legacyCursorProjection : Bool := false
  legacyCursorProjectionSuppressed : Bool := false
  lastEventId : Option String := none
  lastEventType : Option String := none
  interruptedRunId : Option String := none
  recoveryCheckpointId : Option String := none
  lastSafepointCheckpointId : Option String := none
  lastSafepointTrigger : Option SafepointTrigger := none
  terminalStatus : Option RunStatus := none
  terminalEventId : Option String := none
  -- read by the cursor reconstruction, written by none of the modelled functions
  winnerAgentId : Option String := none
  changesetRef : Option String := none
  expectedSha256 : Option String := none

inductive InterruptType where
  | mailboxWait | collaborationDeadlock | mailboxTimeout | userInterrupted | processInterrupted
deriving DecidableEq

inductive InterruptSource where
  | user | shutdown
deriving DecidableEq

structure InterruptState where
  type : InterruptType
  reason : String
  source : Option InterruptSource := none
  code : Option String := none
  deliveryIds : Option (List String) := none
  interruptedRunId : Option String := none

/-- An entry of `waiting_on`: the reply to a mailbox delivery. -/
structure MailboxReplyWait where
  deliveryId : String

structure PersistedTaskRuntimeState where
  taskId : String
  currentRunId : Option String := none
  resumeCursor : TaskResumeCursor
  cursorInput : Option TaskCursorInput := none
  waitingOn : List MailboxReplyWait := []
  interruptState : Option InterruptState := none
  artifactRefs : List String := []
  diagnostics : Diagnostics
  updatedAt : Timestamp

/-! ## Events and checkpoints -/

structure PersistedCoordinationEvent extends Event where
  sequence : Nat

structure PersistedCheckpointMessage where
  messageId : String
  role : String
  content : String
  turn : Nat
  artifactRefs : List String
  createdAt : Timestamp

structure PersistedCheckpointParticipantSession where
  roleId : String
  sessionId : String
  workspacePath : Option String := none
deriving DecidableEq

structure MailboxWatermark where
  createdAt : Timestamp
  deliveryId : String

structure PersistedCheckpointMailboxState where
  highWatermark : Option MailboxWatermark := none
  waitingDeliveryIds : List String

structure MechanicalSnapshot where
  baseCommit : String
  snapshotCommit : Option String := none
  worktreePath : String
  branch : String
  modifiedFiles : List String

structure SemanticHandoff where
  done : List String
  inProgress : List String
  blockedOn : List String
  assumptions : List String
  nextSteps : List String
  knownRisks : List String

inductive ValidityStatus where
  | valid | invalid | superseded
deriving DecidableEq

structure PersistedFullCheckpoint where
  checkpointId : String
  parentCheckpointId : Option String := none
  taskId : String
  runId : String
  agentId : String
  sessionId : Option String := none
  trigger : SafepointTrigger
  resumeCursor : TaskResumeCursor
  cursorInput : Option TaskCursorInput := none
  participantSessions : List PersistedCheckpointParticipantSession := []
  mailboxState : Option PersistedCheckpointMailboxState := none
  councilStateRef : Option String := none
  messageThread : List PersistedCheckpointMessage
  mechanicalSnapshot : MechanicalSnapshot
  semanticHandoff : SemanticHandoff
  interruptState : Option InterruptState := none
  artifactRefs : List String
  validityStatus : ValidityStatus
  createdAt : Timestamp

/-! ## Aggregates and commits -/

structure PersistedTaskAggregate where
  task : PersistedTaskState
  runs : List PersistedRunState
  runtimeState : PersistedTaskRuntimeState
  events : List PersistedCoordinationEvent

/-- Everything one transaction writes about one Task. -/
structure CoordinationStateCommit where
  expectedTaskRevision : Option Nat := none
  task : PersistedTaskState
  run : Option PersistedRunState := none
  runtimeState : PersistedTaskRuntimeState
  checkpoint : Option PersistedFullCheckpoint := none
  events : List Event

namespace PersistedTaskAggregate

/-- The Run the source's `find` returns for an id. -/
def run? (aggregate : PersistedTaskAggregate) (runId : String) : Option PersistedRunState :=
  aggregate.runs.find? fun run => run.runId = runId

def activeRun? (aggregate : PersistedTaskAggregate) : Option PersistedRunState :=
  aggregate.runs.find? isActiveRun

def activeRuns (aggregate : PersistedTaskAggregate) : List PersistedRunState :=
  aggregate.runs.filter isActiveRun

/-- `readLatestAgentId`: the non-empty `agent_id` of the newest event that has one. -/
def readLatestAgentId (aggregate : PersistedTaskAggregate) : Option String :=
  aggregate.events.reverse.findSome? fun event => readPayloadString event.payload "agent_id"

end PersistedTaskAggregate

end Newide
