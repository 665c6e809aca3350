import Newide.StagePlan

/-!
# Exits, safepoints and audits

The operations that end or pause a Run or act on a Task from outside it:
the mailbox exits, interruption and recovery, the direct finish, the
safepoint, and the audit of a workspace restore.
-/

namespace Newide

open Fallible

/-! ## Mailbox waits -/

def completeRunForMailboxWaitCommit (env : Env) (aggregate : PersistedTaskAggregate)
    (run : PersistedRunState) (deliveryIds : List String) (reason : String) :
    CoordinationStateCommit where
  expectedTaskRevision := some aggregate.task.revision
  task :=
    { aggregate.task with
      status := .waitingHelp
      revision := aggregate.task.revision + 1
      updatedAt := env.now 0 }
  run := some
    { run with
      status := .completed
      revision := run.revision + 1
      completedAt := some (env.now 0)
      updatedAt := env.now 0 }
  runtimeState :=
    { aggregate.runtimeState with
      currentRunId := none
      waitingOn := deliveryIds.map fun deliveryId => { deliveryId }
      interruptState := some
        { type := .mailboxWait
          reason
          deliveryIds := some deliveryIds
          interruptedRunId := some run.runId }
      diagnostics :=
        { aggregate.runtimeState.diagnostics with mailboxWaitRunId := some run.runId }
      updatedAt := env.now 0 }
  events :=
    [createEvent env 0 "run.completed" run.runId aggregate.task.taskId run.runId
      [("status", .str "completed"), ("outcome", .str "mailbox_wait")],
     createEvent env 1 "task.waiting_help" aggregate.task.taskId aggregate.task.taskId run.runId
      [("reason", .str reason), ("delivery_ids", .arr (deliveryIds.map .str))]]

def pendingMailboxWait (state : PersistedTaskRuntimeState) : Option (List String × String) :=
  match state.cursorInput with
  | some (.mailboxWait deliveryIds waitingReason) =>
      if deliveryIds = [] then none else some (deliveryIds, waitingReason)
  | _ => none

def planCompleteRunForMailboxWait {π : Type} (env : Env) (runId : String)
    (store : CoordinationStore) : Except Thrown (Planned π) := do
  let aggregate ← requireAggregateForRun store runId
  let run ← requireRun aggregate runId
  assertActiveRunOwnership aggregate run
  let (deliveryIds, reason) ← orThrow (pendingMailboxWait aggregate.runtimeState)
    (.error ("Run " ++ runId ++ " is not waiting on a Mailbox Delivery"))
  assertTaskStatusTransition aggregate.task.status .waitingHelp
  return .commit
    { taskId := aggregate.task.taskId
      commit := completeRunForMailboxWaitCommit env aggregate run deliveryIds reason }

def mailboxExitRunId (aggregate : PersistedTaskAggregate) : Option String :=
  truthy aggregate.runtimeState.diagnostics.mailboxWaitRunId
    <|> truthy (aggregate.runtimeState.interruptState.bind (·.interruptedRunId))
    <|> aggregate.runs.getLast?.map (·.runId)

/-- `Run` of a mailbox exit, which must be a Run of the Task. -/
def requireMailboxExitRun (aggregate : PersistedTaskAggregate) (what : String) :
    Except Thrown String :=
  orThrow
    ((truthy (mailboxExitRunId aggregate)).filter fun runId =>
      aggregate.runs.any fun run => run.runId = runId)
    (.error ("Cannot " ++ what ++ " for " ++ aggregate.task.taskId ++ ": no associated Run"))

/-- The deliveries of the stored mailbox wait, if that is where the Task stands. -/
def waitingDeliveryIds (aggregate : PersistedTaskAggregate) : Option (List String) :=
  aggregate.runtimeState.cursorInput.bind TaskCursorInput.deliveryIds?

def requireTask (store : CoordinationStore) (taskId : String) :
    Except Thrown PersistedTaskAggregate :=
  orThrow (store.getTaskAggregate taskId) (.taskNotFound taskId)

def collaborationDeadlockCode : String := "collaboration_deadlock"

def mailboxTimeoutCode : String := "mailbox_timeout"

def blockMailboxDeadlockCommit (env : Env) (aggregate : PersistedTaskAggregate)
    (runId reason : String) : CoordinationStateCommit where
  expectedTaskRevision := some aggregate.task.revision
  task :=
    { aggregate.task with
      status := .blocked
      error := some { code := collaborationDeadlockCode, message := reason }
      revision := aggregate.task.revision + 1
      updatedAt := env.now 0 }
  runtimeState :=
    { aggregate.runtimeState with
      interruptState := some
        { type := .collaborationDeadlock
          code := some collaborationDeadlockCode
          reason
          deliveryIds := waitingDeliveryIds aggregate }
      diagnostics :=
        { aggregate.runtimeState.diagnostics with
          collaborationDeadlock := true
          collaborationDeadlockCode := some collaborationDeadlockCode }
      updatedAt := env.now 0 }
  events :=
    [createEvent env 0 "task.blocked" aggregate.task.taskId aggregate.task.taskId runId
      [("code", .str collaborationDeadlockCode), ("reason", .str reason)]]

def planBlockMailboxDeadlock {π : Type} (env : Env) (taskId reason : String)
    (store : CoordinationStore) : Except Thrown (Planned π) := do
  let aggregate ← requireTask store taskId
  if aggregate.task.status = .blocked ∧
      aggregate.task.error.map (·.code) = some collaborationDeadlockCode then
    return .unchanged taskId
  else do
    assertTaskStatusTransition aggregate.task.status .blocked
    let runId ← requireMailboxExitRun aggregate "block mailbox deadlock"
    return .commit { taskId, commit := blockMailboxDeadlockCommit env aggregate runId reason }

def expireMailboxWaitCommit (env : Env) (aggregate : PersistedTaskAggregate)
    (runId reason : String) : CoordinationStateCommit where
  expectedTaskRevision := some aggregate.task.revision
  task :=
    { aggregate.task with
      status := .failed
      error := some { code := mailboxTimeoutCode, message := reason }
      revision := aggregate.task.revision + 1
      updatedAt := env.now 0 }
  runtimeState :=
    { aggregate.runtimeState with
      currentRunId := none
      resumeCursor := .done
      cursorInput := some .done
      waitingOn := []
      interruptState := some
        { type := .mailboxTimeout, reason, deliveryIds := waitingDeliveryIds aggregate }
      diagnostics :=
        { aggregate.runtimeState.diagnostics with
          mailboxTimeout := true
          mailboxTimeoutCode := some mailboxTimeoutCode }
      updatedAt := env.now 0 }
  events :=
    [createEvent env 0 "task.failed" aggregate.task.taskId aggregate.task.taskId runId
      [("code", .str mailboxTimeoutCode), ("reason", .str reason)]]

def planExpireMailboxWait {π : Type} (env : Env) (taskId reason : String)
    (store : CoordinationStore) : Except Thrown (Planned π) := do
  let aggregate ← requireTask store taskId
  if aggregate.task.status = .failed ∧
      aggregate.task.error.map (·.code) = some mailboxTimeoutCode then
    return .unchanged taskId
  else do
    assertTaskStatusTransition aggregate.task.status .failed
    let runId ← requireMailboxExitRun aggregate "expire mailbox wait"
    return .commit { taskId, commit := expireMailboxWaitCommit env aggregate runId reason }

/-! ## Interruption -/

structure InterruptRunInput where
  trigger : SafepointTrigger
  interruptState : InterruptState
  inheritMechanicalSnapshot : Bool := false

/-- How `interruptRun` interrupts. -/
def userInterrupt (runId : String) (request : TaskInterruptRequest) : InterruptRunInput where
  trigger := if request.source = .shutdown then .shutdown else .manual
  interruptState :=
    { type := .userInterrupted
      source := some request.source
      reason := request.reason
      interruptedRunId := some runId }

/-- How `recoverInterruptedTask` interrupts. -/
def processInterrupt (runId : String) : InterruptRunInput where
  trigger := .blocked
  inheritMechanicalSnapshot := true
  interruptState :=
    { type := .processInterrupted
      reason := "The backend process ended before the active run reached a terminal state."
      interruptedRunId := some runId }

def interruptCheckpoint (env : Env) (aggregate : PersistedTaskAggregate)
    (run : PersistedRunState) (input : InterruptRunInput)
    (latestCheckpoint : Option PersistedFullCheckpoint) : PersistedFullCheckpoint :=
  let inherited := if input.inheritMechanicalSnapshot then latestCheckpoint else none
  buildSafepointCheckpoint
    { aggregate
      run
      trigger := input.trigger
      parentCheckpointId := inherited.map (·.checkpointId)
      inheritMechanicalSnapshot := inherited.map (·.mechanicalSnapshot)
      interruptState := some input.interruptState
      now := env.now 0
      checkpointId := env.createCheckpointId 0
      captureFileAnchor := env.captureFileAnchor
      mailboxStore := env.mailboxStore
      participantSessions := env.participantSessions }

/-- The commit of `commitInterruptedRun`.  The diagnostics are carried over whole. -/
def interruptCommit (env : Env) (aggregate : PersistedTaskAggregate) (run : PersistedRunState)
    (input : InterruptRunInput) (latestCheckpoint : Option PersistedFullCheckpoint) :
    CoordinationStateCommit :=
  let checkpoint := interruptCheckpoint env aggregate run input latestCheckpoint
  let taskId := aggregate.task.taskId
  let cursor := aggregate.runtimeState.resumeCursor.text
  let reason := input.interruptState.reason
  { expectedTaskRevision := some aggregate.task.revision
    task :=
      { aggregate.task with
        status := .blocked
        revision := aggregate.task.revision + 1
        updatedAt := env.now 0 }
    run := some
      { run with
        status := .interrupted
        revision := run.revision + 1
        completedAt := some (env.now 0)
        updatedAt := env.now 0 }
    runtimeState :=
      { aggregate.runtimeState with
        currentRunId := none
        cursorInput := checkpoint.cursorInput <|> aggregate.runtimeState.cursorInput
        interruptState := some input.interruptState
        diagnostics :=
          { aggregate.runtimeState.diagnostics with
            interruptedRunId := some run.runId
            recoveryCheckpointId := some checkpoint.checkpointId }
        updatedAt := env.now 0 }
    checkpoint := some checkpoint
    events :=
      [createEvent env 0 "run.interrupted" run.runId taskId run.runId
        [("reason", .str reason), ("resume_cursor", .str cursor)],
       createEvent env 1 "task.blocked" taskId taskId run.runId
        [("reason", .str reason), ("interrupted_run_id", .str run.runId)],
       createEvent env 2 "checkpoint.saved" checkpoint.checkpointId taskId run.runId
        [("checkpoint_id", .str checkpoint.checkpointId), ("resume_cursor", .str cursor),
         ("trigger", .str input.trigger.text)]] }

/-- `commitInterruptedRun` up to its commit. -/
def planInterrupt {π : Type} (env : Env) (aggregate : PersistedTaskAggregate)
    (run : PersistedRunState) (input : InterruptRunInput) (store : CoordinationStore) :
    Except Thrown (Planned π) := do
  assertTaskStatusTransition aggregate.task.status .blocked
  return .commit
    { taskId := aggregate.task.taskId
      commit := interruptCommit env aggregate run input
        (store.getLatestCheckpoint aggregate.task.taskId) }

def planInterruptRun {π : Type} (env : Env) (runId : String) (request : TaskInterruptRequest)
    (store : CoordinationStore) : Except Thrown (Planned π) := do
  let aggregate ← requireAggregateForRun store runId
  let run ← requireRun aggregate runId
  if isActiveRun run then
    planInterrupt env aggregate run (userInterrupt run.runId request) store
  else
    return .unchanged aggregate.task.taskId

/-- `recoverInterruptedTask` on an aggregate that was listed with an active Run. -/
def planRecoverInterruptedTask {π : Type} (env : Env) (aggregate : PersistedTaskAggregate)
    (store : CoordinationStore) : Except Thrown (Planned π) :=
  match aggregate.activeRun? with
  | none => .ok (.unchanged aggregate.task.taskId)
  | some run => planInterrupt env aggregate run (processInterrupt run.runId) store

/-! ## The direct finish -/

def councilWarnings (snapshot : Option RunSnapshot) : List String :=
  stringArray ((snapshot.bind (·.councilResult)).bind fun result => result.get? "warnings")

def firstSnapshotError (snapshot : Option RunSnapshot) : Option PersistedTaskError :=
  snapshot.bind fun s => s.errors.head?

def FinishStatus.eventType : FinishStatus → String
  | .completed => "run.completed"
  | .failed => "run.failed"
  | .cancelled => "run.cancelled"

def finishRunCommit (env : Env) (aggregate : PersistedTaskAggregate) (run : PersistedRunState)
    (input : FinishTaskRunInput) : CoordinationStateCommit :=
  let timestamp := stageTimestamp env input.event
  let warnings := input.warnings.getD (councilWarnings input.snapshot)
  let error := input.error <|> firstSnapshotError input.snapshot
  let terminalEvent := stageEvent input.event
    (createEvent env 0 input.status.eventType input.runId aggregate.task.taskId input.runId
      (("status", .str input.status.toRunStatus.text) ::
        error.elim [] fun e => [("code", .str e.code), ("message", .str e.message)]))
  let snapshotSessionId := (input.snapshot.bind (·.runSessionId))
    <|> ((input.snapshot.bind (·.finalOutput)).bind (·.sessionId))
  let snapshotRefs := ((input.snapshot.bind (·.finalOutput)).map (·.artifactRefs)).getD []
  { expectedTaskRevision := some aggregate.task.revision
    task :=
      { aggregate.task with
        status := input.status.toTaskStatus
        warnings
        finalOutput := if input.status = .completed then input.finalOutput else none
        error
        revision := aggregate.task.revision + 1
        updatedAt := timestamp }
    run := some
      { run with
        status := input.status.toRunStatus
        sessionId := truthy snapshotSessionId <|> run.sessionId
        snapshot := input.snapshot <|> run.snapshot
        error
        revision := run.revision + 1
        completedAt := some timestamp
        updatedAt := timestamp }
    runtimeState :=
      { aggregate.runtimeState with
        currentRunId := none
        resumeCursor := .done
        cursorInput := some .done
        waitingOn := []
        artifactRefs := appendUnique aggregate.runtimeState.artifactRefs snapshotRefs
        diagnostics :=
          { aggregate.runtimeState.diagnostics with
            activeStage := none
            terminalStatus := some input.status.toRunStatus
            terminalEventId := some terminalEvent.eventId }
        updatedAt := timestamp }
    events := [terminalEvent] }

/-- The transaction a finish is committed in: a cancelled Run also cancels the SAP
dispatch of its active stage, if `readActiveStage` shows one. -/
def finishVia {π : Type} (bridges : Bridges π) (env : Env) (protocol : π) (status : FinishStatus)
    (activeStage : Option ActiveStageInvocation) : ProtocolWrite π :=
  let sapOutboxId :=
    if status = .cancelled then
      readPayloadString (activeStage.elim [] (·.payload)) "sap_outbox_id"
    else none
  match sapOutboxId with
  | none => .storeOnly
  | some outboxId =>
      match bridges.sapBridge with
      | none => .refuse (.error "SAP bridge is not configured")
      | some bridge =>
          match bridge.getDispatch protocol outboxId with
          | none => .storeOnly
          | some dispatch =>
              match bridge.createCancel (env.now 4) dispatch.frame with
              | .error e => .refuse e
              | .ok cancel => bridge.commitCancel dispatch cancel

def planFinishRun {π : Type} (bridges : Bridges π) (env : Env) (input : FinishTaskRunInput)
    (protocol : π) (store : CoordinationStore) : Except Thrown (Planned π) := do
  let aggregate ← requireAggregateForRun store input.runId
  let run ← requireRun aggregate input.runId
  if isActiveRun run then do
    assertTaskStatusTransition aggregate.task.status input.status.toTaskStatus
    let activeStage ← readActiveStage aggregate.runtimeState.diagnostics
    return .commit
      { taskId := aggregate.task.taskId
        commit := finishRunCommit env aggregate run input
        via := finishVia bridges env protocol input.status activeStage }
  else do
    ensure (run.status = input.status.toRunStatus)
      (.error ("Run " ++ input.runId ++ " already reached " ++ run.status.text))
    return .unchanged aggregate.task.taskId

/-! ## Safepoints and audits -/

/-- The checkpoint of `persistSafepoint`. -/
def safepointCheckpoint (env : Env) (aggregate : PersistedTaskAggregate)
    (run : PersistedRunState) (trigger : SafepointTrigger)
    (latestCheckpoint : Option PersistedFullCheckpoint) : PersistedFullCheckpoint :=
  buildSafepointCheckpoint
    { aggregate
      run
      trigger
      parentCheckpointId := latestCheckpoint.map (·.checkpointId)
      now := env.now 0
      checkpointId := env.createCheckpointId 0
      captureFileAnchor := env.captureFileAnchor
      mailboxStore := env.mailboxStore
      participantSessions := env.participantSessions }

def safepointCommit (env : Env) (aggregate : PersistedTaskAggregate) (run : PersistedRunState)
    (trigger : SafepointTrigger) (latestCheckpoint : Option PersistedFullCheckpoint) :
    CoordinationStateCommit :=
  let checkpoint := safepointCheckpoint env aggregate run trigger latestCheckpoint
  { expectedTaskRevision := some aggregate.task.revision
    task :=
      { aggregate.task with
        revision := aggregate.task.revision + 1
        updatedAt := env.now 2 }
    run := some { run with revision := run.revision + 1, updatedAt := env.now 2 }
    runtimeState :=
      { aggregate.runtimeState with
        cursorInput := checkpoint.cursorInput <|> aggregate.runtimeState.cursorInput
        diagnostics :=
          { aggregate.runtimeState.diagnostics with
            lastSafepointCheckpointId := some checkpoint.checkpointId
            lastSafepointTrigger := some trigger }
        updatedAt := env.now 2 }
    checkpoint := some checkpoint
    events :=
      [createEvent env 0 "checkpoint.saved" checkpoint.checkpointId aggregate.task.taskId run.runId
        [("checkpoint_id", .str checkpoint.checkpointId),
         ("resume_cursor", .str checkpoint.resumeCursor.text),
         ("trigger", .str trigger.text)]] }

/-- The commit of `recordWorkspaceRestore`. -/
def workspaceRestoreCommit (env : Env) (aggregate : PersistedTaskAggregate)
    (checkpointId runId : String) (outcome : Payload) : CoordinationStateCommit where
  expectedTaskRevision := some aggregate.task.revision
  task :=
    { aggregate.task with
      revision := aggregate.task.revision + 1
      updatedAt := env.now 2 }
  runtimeState := { aggregate.runtimeState with updatedAt := env.now 2 }
  events :=
    [createEvent env 0 "checkpoint.workspace_restored" checkpointId aggregate.task.taskId runId
      (Payload.spread [("checkpoint_id", .str checkpointId)] outcome)]

end Newide
