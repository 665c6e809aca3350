import Newide.ExitPlan

/-!
# The task processor

The operations of `TaskProcessor` over a world: the coordination store
and the protocol tables of the same database.  An operation leaves an
`Outcome`: the worlds after each of its commits, in order, and how it
ended.  A throw after a commit does not undo the commit, and a crash
leaves one of those worlds behind.
-/

namespace Newide

open Fallible

variable {π : Type}

structure World (π : Type) where
  store : CoordinationStore
  protocol : π

/-- What one call leaves behind. -/
structure Outcome (π α : Type) where
  commits : List (World π)
  result : Except Thrown α

namespace Outcome

/-- The world after a call that began in `w`. -/
def final {α : Type} (outcome : Outcome π α) (w : World π) : World π :=
  outcome.commits.getLastD w

/-- A call that ended before any commit. -/
def stop {α : Type} (result : Except Thrown α) : Outcome π α where
  commits := []
  result

end Outcome

structure TaskStageCommitResult where
  snapshot : TaskSnapshot
  committedEvents : List PersistedCoordinationEvent

def getTaskSnapshot (store : CoordinationStore) (taskId : String) : Except Thrown TaskSnapshot := do
  projectAggregate (← requireTask store taskId)

/-- One transaction: the bridge's check, the coordination rows, the bridge's rows. -/
def World.commit (w : World π) (plan : Plan π) :
    Except Thrown (List PersistedCoordinationEvent × World π) := do
  plan.via.precheck w.protocol
  let (committed, store) ← w.store.commitState plan.commit
  let protocol ← plan.via.write w.protocol
  return (committed, { store, protocol })

def perform (w : World π) (planned : Except Thrown (Planned π)) :
    Outcome π TaskStageCommitResult :=
  match planned with
  | .error e => .stop (.error e)
  | .ok (.unchanged taskId) =>
      .stop ((getTaskSnapshot w.store taskId).map fun snapshot => ⟨snapshot, []⟩)
  | .ok (.commit plan) =>
      match w.commit plan with
      | .error e => .stop (.error e)
      | .ok (committed, w') =>
          { commits := [w']
            result := (getTaskSnapshot w'.store plan.taskId).map fun snapshot =>
              ⟨snapshot, committed⟩ }

/-! ## Operations that commit once -/

section
variable (bridges : Bridges π) (env : Env)

def beginRun (input : BeginTaskRunInput) (w : World π) : Outcome π TaskStageCommitResult :=
  perform w (planBeginRun env input w.store)

def startStage (input : StartTaskStageInput) (w : World π) : Outcome π TaskStageCommitResult :=
  perform w (planStartStage bridges env input w.store)

def failStage (input : FailTaskStageInput) (w : World π) : Outcome π TaskStageCommitResult :=
  perform w (planFailStage bridges env input w.store)

def completeRunForMailboxWait (runId : String) (w : World π) : Outcome π TaskStageCommitResult :=
  perform w (planCompleteRunForMailboxWait env runId w.store)

def blockMailboxDeadlock (taskId reason : String) (w : World π) :
    Outcome π TaskStageCommitResult :=
  perform w (planBlockMailboxDeadlock env taskId reason w.store)

def expireMailboxWait (taskId reason : String) (w : World π) : Outcome π TaskStageCommitResult :=
  perform w (planExpireMailboxWait env taskId reason w.store)

def setCouncilOverride (runId : String) (w : World π) : Outcome π TaskStageCommitResult :=
  perform w (planSetCouncilOverride env runId w.store)

def recordRunEvent (runId : String) (event : Event) (w : World π) :
    Outcome π TaskStageCommitResult :=
  perform w (planRecordRunEvent env runId event w.store)

def interruptRun (runId : String) (request : TaskInterruptRequest) (w : World π) :
    Outcome π TaskStageCommitResult :=
  perform w (planInterruptRun env runId request w.store)

def finishRun (input : FinishTaskRunInput) (w : World π) : Outcome π TaskStageCommitResult :=
  perform w (planFinishRun bridges env input w.protocol w.store)

/-! ## Council receipts, retried on a conflict -/

/-- `recordCouncilSapDispatch`: up to `attempts` tries.  A failed try leaves no trace, so
the next one starts from the same world with later readings of the clock. -/
def recordCouncilSapDispatch (runId : String) (dispatch : SapExecuteDispatch) (w : World π) :
    Nat → Outcome π Unit
  | 0 => .stop (.error (.error "Unreachable dispatch retry state"))
  | attempts + 1 =>
      match planCouncilSapDispatch bridges (env.shift (8 * attempts)) runId dispatch w.store with
      | .error e => .stop (.error e)
      | .ok (.unchanged _) => .stop (.ok ())
      | .ok (.commit plan) =>
          match w.commit plan with
          | .ok (_, w') => { commits := [w'], result := .ok () }
          | .error e =>
              if isRevisionConflict e then
                if attempts = 0 then .stop (.error e)
                else recordCouncilSapDispatch runId dispatch w attempts
              else .stop (.error e)

/-- `/SAP result .* is (duplicate|late)/` on the error of a commit. -/
def isStaleResultError (result : SapResultFrame) (error : Thrown) : Bool :=
  error.message = "SAP result " ++ result.exchangeId ++ " is duplicate" ||
    error.message = "SAP result " ++ result.exchangeId ++ " is late"

/-- `recordCouncilSapResult`.  A result that is not accepted only goes to the bridge. -/
def recordCouncilSapResult (runId : String) (admission : SapExecutionAdmission)
    (result : SapResultFrame) (phase participantId : String) (w : World π) :
    Nat → Outcome π SapResultDisposition
  | 0 => .stop (.error (.error
      ("Council SAP result " ++ result.exchangeId ++ " could not be committed")))
  | attempts + 1 =>
      match bridges.sapBridge with
      | none => .stop (.error (.error "SAP bridge is not configured"))
      | some bridge =>
          match bridge.classifyResult w.protocol admission result with
          | .error e => .stop (.error e)
          | .ok .accepted =>
              match planCouncilSapResult bridges (env.shift (8 * attempts)) runId admission result
                  phase participantId w.store with
              | .error e => .stop (.error e)
              | .ok (.unchanged _) => .stop (.ok .duplicate)
              | .ok (.commit plan) =>
                  match w.commit plan with
                  | .ok (_, w') => { commits := [w'], result := .ok .accepted }
                  | .error e =>
                      if attempts ≠ 0 ∧ isStaleResultError result e then
                        recordCouncilSapResult runId admission result phase participantId w attempts
                      else .stop (.error e)
          | .ok _ =>
              match bridge.acceptResult admission result w.protocol with
              | .error e => .stop (.error e)
              | .ok (disposition, protocol) =>
                  { commits := [{ w with protocol }], result := .ok disposition }

/-! ## Safepoints -/

/-- `persistSafepoint`: its commit is swallowed when it fails. -/
def persistSafepoint (aggregate : PersistedTaskAggregate) (run : PersistedRunState)
    (trigger : SafepointTrigger) (w : World π) : Option (World π) :=
  (swallow (w.commit
    { taskId := aggregate.task.taskId
      commit := safepointCommit env aggregate run trigger
        (w.store.getLatestCheckpoint aggregate.task.taskId) })).map (·.2)

def advanceSafepoint (runId taskId : String) (nextInput : TaskCursorInput) (w : World π) :
    Option (World π) := do
  let refreshed ← w.store.getTaskAggregate taskId
  let run ← refreshed.run? runId
  persistSafepoint env refreshed run
    (if nextInput.cursor = .mailboxWait then .blocked else .periodic) w

def advanceStageOnce (input : AdvanceTaskStageInput) (w : World π) :
    Outcome π TaskStageCommitResult :=
  match planAdvanceStage bridges env input w.store with
  | .error e => .stop (.error e)
  | .ok (plan, nextInput) =>
      match w.commit plan with
      | .error e => .stop (.error (.stageCommit "handler.completed" e))
      | .ok (committed, w') =>
          let safepoint :=
            if nextInput.cursor = .done then none
            else advanceSafepoint (env.shift 4) input.runId plan.taskId nextInput w'
          { commits := w' :: safepoint.toList
            result := (getTaskSnapshot (safepoint.getD w').store plan.taskId).map fun snapshot =>
              ⟨snapshot, committed⟩ }

/-- `advanceStage`: a revision conflict is tried again, up to `attempts` times in all. -/
def advanceStage (input : AdvanceTaskStageInput) (w : World π) :
    Nat → Outcome π TaskStageCommitResult
  | 0 => .stop (.error (.error "Unreachable stage commit retry state"))
  | attempts + 1 =>
      let outcome := advanceStageOnce bridges (env.shift (8 * attempts)) input w
      match outcome.result with
      | .error (.stageCommit _ originalError) =>
          if isRevisionConflict originalError = true ∧ attempts ≠ 0 then
            advanceStage input w attempts
          else outcome
      | _ => outcome

end

/-! ## Operations over all Tasks -/

/-- `recoverInterruptedTasks` on the aggregates listed: the first throw ends it. -/
def recoverTasks (env : Env) : List PersistedTaskAggregate → World π →
    Outcome π (List TaskSnapshot)
  | [], _ => .stop (.ok [])
  | aggregate :: rest, w =>
      let first := perform w (planRecoverInterruptedTask env aggregate w.store)
      match first.result with
      | .error e => { commits := first.commits, result := .error e }
      | .ok committed =>
          let others := recoverTasks (env.shift 8) rest (first.final w)
          { commits := first.commits ++ others.commits
            result := others.result.map fun snapshots => committed.snapshot :: snapshots }

def recoverInterruptedTasks (env : Env) (w : World π) : Outcome π (List TaskSnapshot) :=
  recoverTasks env
    (w.store.listTaskAggregates.filter fun aggregate => aggregate.runs.any isActiveRun) w

/-- `saveShutdownSafepoints` on the aggregates listed; a safepoint that fails is skipped. -/
def saveSafepoints (env : Env) : List PersistedTaskAggregate → World π → List (World π)
  | [], _ => []
  | aggregate :: rest, w =>
      match aggregate.activeRun?.bind fun run => persistSafepoint env aggregate run .shutdown w with
      | none => saveSafepoints (env.shift 4) rest w
      | some w' => w' :: saveSafepoints (env.shift 4) rest w'

def saveShutdownSafepoints (env : Env) (w : World π) : Outcome π Unit where
  commits := saveSafepoints env w.store.listTaskAggregates w
  result := .ok ()

/-- `recordWorkspaceRestore`: audit only, it never fails. -/
def recordWorkspaceRestore (env : Env) (taskId checkpointId runId : String) (outcome : Payload)
    (w : World π) : Outcome π Unit where
  commits :=
    match w.store.getTaskAggregate taskId with
    | none => []
    | some aggregate =>
        ((swallow (w.commit
          { taskId
            commit := workspaceRestoreCommit env aggregate checkpointId runId outcome })).map
          (·.2)).toList
  result := .ok ()

def deleteTask (taskId : String) (w : World π) : Outcome π Unit :=
  match w.store.getTaskAggregate taskId with
  | none => .stop (.error (.taskNotFound taskId))
  | some _ =>
      match w.store.deleteTask taskId with
      | .error e => .stop (.error e)
      | .ok store => { commits := [{ w with store }], result := .ok () }

/-! ## Reading -/

/-- `listTaskEvents`: the Task's events, after a given one when asked. -/
def listTaskEvents (store : CoordinationStore) (taskId : String) (afterEventId : Option String) :
    Except Thrown (List PersistedCoordinationEvent) := do
  let aggregate ← requireTask store taskId
  match truthy afterEventId with
  | none => return aggregate.events
  | some eventId => do
      ensure (∃ event ∈ aggregate.events, event.eventId = eventId)
        (.eventCursorNotFound taskId eventId)
      return (aggregate.events.dropWhile fun event => event.eventId ≠ eventId).drop 1

def buildResumePackage (env : Env) (store : CoordinationStore) (taskId : String) :
    Except Thrown ResumePackage := do
  let aggregate ← requireTask store taskId
  let checkpoint ← orThrow (store.getLatestCheckpoint taskId)
    (.error ("Task " ++ taskId ++ " has no valid full checkpoint"))
  buildResumePackageFrom aggregate checkpoint env.mailboxStore env.participantSessions

structure TaskResumeContext where
  taskRequest : TaskCreateRequest
  workspacePath : String
  sessionId : Option String
  memoryAblation : Option MemoryAblation
  checkpointId : String
  resumeCursor : TaskResumeCursor
  cursorInput : TaskCursorInput
  mode : RunMode
  interruptedRunId : String

def getTaskResumeContext (env : Env) (store : CoordinationStore) (taskId : String) :
    Except Thrown TaskResumeContext := do
  let resumePackage ← buildResumePackage env store taskId
  let diagnostics := (store.getTaskAggregate taskId).map (·.runtimeState.diagnostics)
  return {
    taskRequest :=
      { resumePackage.taskRequest with
        allowAgentCouncil := diagnostics.any (·.allowAgentCouncil) }
    workspacePath := resumePackage.workspacePath
    sessionId := truthy resumePackage.sessionId
    memoryAblation := diagnostics.bind (·.memoryAblation)
    checkpointId := resumePackage.checkpointId
    resumeCursor := resumePackage.resumeCursor
    cursorInput := resumePackage.cursorInput
    mode := resumePackage.mode
    interruptedRunId := resumePackage.interruptedRunId }

/-! ## Runs of operations -/

/-- A call of one of the operations. -/
inductive Operation where
  | beginRun (input : BeginTaskRunInput)
  | startStage (input : StartTaskStageInput)
  | recordCouncilSapDispatch (runId : String) (dispatch : SapExecuteDispatch)
  | recordCouncilSapResult (runId : String) (admission : SapExecutionAdmission)
      (result : SapResultFrame) (phase participantId : String)
  | advanceStage (input : AdvanceTaskStageInput)
  | failStage (input : FailTaskStageInput)
  | completeRunForMailboxWait (runId : String)
  | blockMailboxDeadlock (taskId reason : String)
  | expireMailboxWait (taskId reason : String)
  | setCouncilOverride (runId : String)
  | recordRunEvent (runId : String) (event : Event)
  | recoverInterruptedTasks
  | interruptRun (runId : String) (request : TaskInterruptRequest)
  | finishRun (input : FinishTaskRunInput)
  | recordWorkspaceRestore (taskId checkpointId runId : String) (outcome : Payload)
  | saveShutdownSafepoints
  | deleteTask (taskId : String)

def Outcome.void {α : Type} (outcome : Outcome π α) : Outcome π Unit where
  commits := outcome.commits
  result := outcome.result.map fun _ => ()

def exec (bridges : Bridges π) (env : Env) (w : World π) : Operation → Outcome π Unit
  | .beginRun input => (beginRun env input w).void
  | .startStage input => (startStage bridges env input w).void
  | .recordCouncilSapDispatch runId dispatch =>
      (recordCouncilSapDispatch bridges env runId dispatch w 3).void
  | .recordCouncilSapResult runId admission result phase participantId =>
      (recordCouncilSapResult bridges env runId admission result phase participantId w 3).void
  | .advanceStage input => (advanceStage bridges env input w 3).void
  | .failStage input => (failStage bridges env input w).void
  | .completeRunForMailboxWait runId => (completeRunForMailboxWait env runId w).void
  | .blockMailboxDeadlock taskId reason => (blockMailboxDeadlock env taskId reason w).void
  | .expireMailboxWait taskId reason => (expireMailboxWait env taskId reason w).void
  | .setCouncilOverride runId => (setCouncilOverride env runId w).void
  | .recordRunEvent runId event => (recordRunEvent env runId event w).void
  | .recoverInterruptedTasks => (recoverInterruptedTasks env w).void
  | .interruptRun runId request => (interruptRun env runId request w).void
  | .finishRun input => (finishRun bridges env input w).void
  | .recordWorkspaceRestore taskId checkpointId runId outcome =>
      recordWorkspaceRestore env taskId checkpointId runId outcome w
  | .saveShutdownSafepoints => saveShutdownSafepoints env w
  | .deleteTask taskId => deleteTask taskId w

end Newide
