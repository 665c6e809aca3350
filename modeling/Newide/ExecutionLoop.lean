import Newide.ProcessorRuns

/-!
# The task execution loop

`TaskExecutionLoop.runStages` and `executeStage` of
`src/coordination/task-execution-loop.ts` over the operations of the
processor.  What the executors, the evidence store, the abort signal and
the callbacks answer in one turn of the loop is a `Turn`; between its own
steps other calls of the processor may come in.
-/

namespace Newide.ExecutionLoop

open Fallible

variable {π : Type}

/-! ## What the stages answer -/

structure StageResult where
  evidence : Payload := []
  artifactRefs : List String := []

structure SelectAgentStageResult extends StageResult where
  winnerAgentId : String

/-- `ExecuteAgentStageResult`: a changeset, or deliveries to wait for. -/
structure ExecuteAgentStageResult extends StageResult where
  changesetRef : String := ""
  expectedSha256 : String := ""
  agentId : Option String := none
  sessionId : Option String := none
  escalationRequest : Bool := false
  mailboxWait : Option (List String × String) := none

structure CouncilStageResult extends StageResult where
  changesetRef : String
  expectedSha256 : String

inductive GateStatus where
  | allowed | denied | blocked
deriving DecidableEq

structure GateStageResult extends StageResult where
  status : Option GateStatus := none
  error : Option PersistedTaskError := none
  changesetRef : Option String := none
  expectedSha256 : Option String := none

structure DeliverStageResult extends StageResult where
  finalOutput : PersistedTaskFinalOutput
  warnings : List String := []

/-- What the executors return or throw. -/
structure StageExecutors where
  selectAgent : Except Thrown SelectAgentStageResult
  executeAgent : Except Thrown ExecuteAgentStageResult
  council : Except Thrown CouncilStageResult
  gate : Except Thrown GateStageResult
  deliver : Except Thrown DeliverStageResult

inductive Signal where
  | open
  | interrupted (request : TaskInterruptRequest)
  | aborted (reason : String)

/-- An operation that does not begin the Run again, whose id is new, and is no shutdown
safepoint, which makes up an input for a cursor that has none. -/
def Apart (runId : String) (op : Operation) : Prop :=
  op ≠ .saveShutdownSafepoints ∧ ∀ input, op = .beginRun input → input.runId ≠ runId

abbrev OtherCall (runId : String) := { call : Call // Apart runId call.op }

/-- What happens in one turn of the loop. -/
structure Turn (runId : String) where
  /-- Other calls since the last turn. -/
  before : List (OtherCall runId) := []
  signalBefore : Signal := .open
  invocationId : String
  bridgeTime : Timestamp
  startEnv : Env
  /-- `on_committed_events` of the start. -/
  startNotified : Except Thrown Unit := .ok ()
  executors : StageExecutors
  /-- Other calls while the executor runs and the evidence is written. -/
  during : List (OtherCall runId) := []
  evidence : Except Thrown RunStageEvidenceReference
  commitEnv : Env
  notified : Except Thrown Unit := .ok ()
  signalAfter : Signal := .open
  /-- Nothing when the evidence of a failure could not be written. -/
  failureEvidence : Option RunStageEvidenceReference := none
  /-- Other calls while that evidence is written. -/
  settling : List (OtherCall runId) := []
  settleEnv : Env
  settleNotified : Except Thrown Unit := .ok ()

def serve (bridges : Bridges π) {runId : String} (calls : List (OtherCall runId))
    (w : World π) : World π :=
  calls.foldl (fun w call => (exec bridges call.1.env w call.1.op).final w) w

/-! ## The stages -/

inductive StageInput where
  | selectAgent
  | executeAgent (winnerAgentId : String)
  | council
  | gate (changesetRef expectedSha256 : String)
  | deliver

namespace StageInput

def cursor : StageInput → TaskResumeCursor
  | .selectAgent => .selectAgent
  | .executeAgent _ => .executeAgent
  | .council => .council
  | .gate .. => .gate
  | .deliver => .deliver

/-- `done` and `mailbox_wait` are no stages. -/
def ofCursorInput : TaskCursorInput → Option StageInput
  | .selectAgent .. => some .selectAgent
  | .executeAgent winnerAgentId _ _ => some (.executeAgent winnerAgentId)
  | .council .. => some .council
  | .gate _ _ changesetRef expectedSha256 => some (.gate changesetRef expectedSha256)
  | .deliver .. => some .deliver
  | .mailboxWait .. => none
  | .done => none

end StageInput

/-- What the loop reads of `TaskRunExecutionState`. -/
structure RunExecutionState where
  taskId : String
  runId : String
  mode : RunMode
  spec : String
  resumeCursor : TaskResumeCursor
  cursorInput : Option TaskCursorInput

def getRunExecutionState (store : CoordinationStore) (runId : String) :
    Except Thrown RunExecutionState := do
  let aggregate ← requireAggregateForRun store runId
  let run ← requireRun aggregate runId
  return {
    taskId := aggregate.task.taskId
    runId
    mode := run.mode
    spec := aggregate.task.spec
    resumeCursor := aggregate.runtimeState.resumeCursor
    cursorInput := aggregate.runtimeState.cursorInput }

def assertRunTaskIdentity (state : RunExecutionState) (taskId : String) : Except Thrown Unit :=
  ensure (state.taskId = taskId)
    (.error ("Run " ++ state.runId ++ " does not belong to Task " ++ taskId))

def requireCursorInput (state : RunExecutionState) : Except Thrown TaskCursorInput :=
  orThrow (state.cursorInput.filter fun input => input.cursor = state.resumeCursor)
    (.error ("Run " ++ state.runId ++ " has no cursor input matching " ++
      state.resumeCursor.text))

def councilTrigger (mode : RunMode) (escalationRequest : Bool) : Option TaskCouncilTrigger :=
  match mode with
  | .council => some .explicitMode
  | .singleAgent => if escalationRequest then some .agentRequest else none

def assertChangesetResult (changesetRef expectedSha256 source : String) : Except Thrown Unit :=
  ensure (changesetRef ≠ "" ∧ isSha256 expectedSha256 = true)
    (.error (source ++ " returned an invalid changeset identity"))

def assertGateResultIdentity (result : GateStageResult) (changesetRef expectedSha256 : String) :
    Except Thrown Unit :=
  ensure ((∀ ref ∈ result.changesetRef, ref = changesetRef) ∧
      ∀ sha256 ∈ result.expectedSha256, sha256 = expectedSha256)
    (.error "Gate executor cannot substitute the bound changeset identity")

/-! ## Errors of a stage -/

/-- An error inside the stage; `StageAdvanceError` and `StageEvidenceWriteError` keep the one
they were made from. -/
inductive StageError where
  | thrown (error : Thrown)
  | advance (originalError : Thrown) (evidenceRef : RunStageEvidenceReference)
  | evidenceWrite (originalError : Thrown)

namespace StageError

def message : StageError → String
  | .thrown error => error.message
  | .advance originalError _ => originalError.message
  | .evidenceWrite originalError => originalError.message

/-- The evidence of the result that could not be committed. -/
def resultEvidence : StageError → Option RunStageEvidenceReference
  | .advance _ evidenceRef => some evidenceRef
  | _ => none

end StageError

def stageFailure (error : StageError) (cursor : TaskResumeCursor) : PersistedTaskError where
  code :=
    match error with
    | .evidenceWrite _ => "stage_evidence_write_failed"
    | _ => "stage_execution_failed"
  message := error.message
  details := some [("cursor", .str cursor.text)]

def isStageCommitError : Thrown → Bool
  | .stageCommit .. => true
  | _ => false

/-! ## One stage -/

/-- What the loop calls on `SapTaskBridge` itself. -/
structure SapStageBridge (π : Type) where
  createExecute : Timestamp → Sap.ExecuteInput → Except Thrown SapExecuteDispatch
  beginExecute : Timestamp → SapExecuteDispatch → π → Except Thrown (SapExecutionAdmission × π)
  createResult : Timestamp → Sap.ResultInput → Except Thrown SapResultFrame
  createCancel : Timestamp → SapExecuteFrame → Except Thrown SapCancelFrame

def sapStageBridge (options : BridgeOptions) : SapStageBridge ProtocolDelivery where
  createExecute now input := Sap.createExecute options now "" input
  beginExecute now dispatch := Sap.beginExecute options now dispatch
  createResult now input := Sap.createResult now "" input
  createCancel now execute := Sap.createCancel now execute

/-- `TaskExecutionLoopOptions` -/
structure LoopOptions (π : Type) where
  bridges : Bridges π := {}
  sapBridge : Option (SapStageBridge π) := none

abbrev AdmittedDispatch := SapExecuteDispatch × SapExecutionAdmission

/-- The world after a commit, and what it returned. -/
abbrev Attempt (π : Type) := World π × Except StageError TaskStageCommitResult

section
variable (options : LoopOptions π) {runId : String} (turn : Turn runId)
  (state : RunExecutionState)

def createSapDispatch (stage : StageInput) : Except Thrown (Option SapExecuteDispatch) :=
  match options.sapBridge, stage with
  | some bridge, .executeAgent winnerAgentId =>
      (bridge.createExecute turn.bridgeTime
        { taskId := state.taskId
          runId := state.runId
          roleId := winnerAgentId
          instruction := state.spec
          exchangeId := some ("sap_" ++ turn.invocationId) }).map some
  | _, _ => .ok none

/-- `sapBridge.beginExecute` on a dispatch. -/
def beginExecute (dispatch : Option SapExecuteDispatch) (w : World π) :
    Except Thrown (Option AdmittedDispatch × World π) :=
  match options.sapBridge, dispatch with
  | some bridge, some dispatch =>
      (bridge.beginExecute turn.bridgeTime dispatch w.protocol).map fun (admission, protocol) =>
        (some (dispatch, admission), { w with protocol })
  | _, _ => .ok (none, w)

def createSapResult (dispatch : SapExecuteDispatch) (result : StageResult) :
    Except Thrown (Option SapResultFrame) :=
  match options.sapBridge with
  | none => .ok none
  | some bridge => do
      let status : ReceiptStatus :=
        match (result.evidence.get? "status").bind Json.string? with
        | some "failed" => .failed
        | some "cancelled" => .cancelled
        | _ => .completed
      let frame ← bridge.createResult turn.bridgeTime
        { execute := dispatch.frame
          status
          summary :=
            if status = .completed then
              "Agent execution completed and the Task cursor advanced."
            else "Agent execution ended with status " ++ status.text ++ "."
          error :=
            if status = .failed then some
              { code := "agent_execution_failed"
                message := "Agent execution returned a failed result."
                retryable := false }
            else none
          exchangeId := some ("sap_result_" ++ dispatch.frame.exchangeId) }
      return some frame

/-- `advanceWithEvidence` and the notification: a refused commit is thrown as it is. -/
def advanceWithEvidence (input : AdvanceTaskStageInput) (w : World π) : Attempt π :=
  let outcome := advanceStage options.bridges turn.commitEnv input w 3
  (outcome.final w,
    match outcome.result with
    | .error error =>
        .error (if isStageCommitError error then .thrown error
          else .advance error input.evidenceRef)
    | .ok committed =>
        match turn.notified with
        | .error error => .error (.thrown error)
        | .ok () => .ok committed)

/-- `writeEvidence`, and what is done with the evidence. -/
def withEvidence (w : World π) (next : RunStageEvidenceReference → Attempt π) : Attempt π :=
  match turn.evidence with
  | .error error => (w, .error (.evidenceWrite error))
  | .ok evidence => next evidence

/-- `failStage` and the notification inside the stage. -/
def failWithEvidence (input : FailTaskStageInput) (w : World π) : Attempt π :=
  let outcome := failStage options.bridges turn.commitEnv input w
  (outcome.final w,
    match outcome.result with
    | .error error => .error (.thrown error)
    | .ok committed =>
        match turn.notified with
        | .error error => .error (.thrown error)
        | .ok () => .ok committed)

def selectAgentStage (w : World π) : Attempt π :=
  match turn.executors.selectAgent with
  | .error error => (w, .error (.thrown error))
  | .ok result => withEvidence turn w fun evidence =>
      advanceWithEvidence options turn
        { runId
          expectedCursor := .selectAgent
          invocationId := turn.invocationId
          evidenceRef := evidence
          nextInput := .executeAgent result.winnerAgentId none none
          artifactRefs := result.artifactRefs } w

/-- The cursor input after the agent, and the Council input that an override may turn it into. -/
def nextOfExecuteAgent (result : ExecuteAgentStageResult) (evidence : RunStageEvidenceReference) :
    TaskCursorInput × Option CouncilOverrideInput :=
  match result.mailboxWait, councilTrigger state.mode result.escalationRequest with
  | some (deliveryIds, waitingReason), _ => (.mailboxWait deliveryIds waitingReason, none)
  | none, some trigger => (.council trigger (some evidence.uri) (some result.changesetRef), none)
  | none, none =>
      (.gate result.changesetRef "post_primary" result.changesetRef result.expectedSha256,
        some
          { trigger := .persistentOverride
            primaryEvidenceRef := some evidence.uri
            candidateManifestRef := some result.changesetRef })

def executeAgentStage (admitted : Option AdmittedDispatch) (w : World π) : Attempt π :=
  match turn.executors.executeAgent with
  | .error error => (w, .error (.thrown error))
  | .ok result =>
      match (if result.mailboxWait.isSome then .ok ()
        else assertChangesetResult result.changesetRef result.expectedSha256 "Primary Agent") with
      | .error error => (w, .error (.thrown error))
      | .ok () => withEvidence turn w fun evidence =>
          let sapResult : Except Thrown (Option (SapExecutionAdmission × SapResultFrame)) :=
            match admitted with
            | none => .ok none
            | some (dispatch, admission) =>
                (createSapResult options turn dispatch result.toStageResult).map fun frame =>
                  frame.map fun frame => (admission, frame)
          match sapResult with
          | .error error => (w, .error (.thrown error))
          | .ok sapResult =>
              let next := nextOfExecuteAgent state result evidence
              advanceWithEvidence options turn
                { runId
                  expectedCursor := .executeAgent
                  invocationId := turn.invocationId
                  evidenceRef := evidence
                  nextInput := next.1
                  councilOverrideInput := next.2
                  artifactRefs := result.artifactRefs
                  ownerAgentId := truthy result.agentId
                  sessionId := truthy result.sessionId
                  sapResult } w

def councilStage (w : World π) : Attempt π :=
  match turn.executors.council with
  | .error error => (w, .error (.thrown error))
  | .ok result =>
      match assertChangesetResult result.changesetRef result.expectedSha256 "Council" with
      | .error error => (w, .error (.thrown error))
      | .ok () => withEvidence turn w fun evidence =>
          advanceWithEvidence options turn
            { runId
              expectedCursor := .council
              invocationId := turn.invocationId
              evidenceRef := evidence
              nextInput := .gate result.changesetRef "post_council" result.changesetRef
                result.expectedSha256
              artifactRefs := result.artifactRefs } w

/-- The error of a Gate that let the changeset not pass, unless it named one. -/
def gateError (denied : Bool) : PersistedTaskError where
  code := if denied then "gate_denied" else "gate_blocked"
  message :=
    if denied then "Production Gate denied the changeset"
    else "Production Gate blocked the changeset"

def gateStage (changesetRef expectedSha256 : String) (w : World π) : Attempt π :=
  match turn.executors.gate with
  | .error error => (w, .error (.thrown error))
  | .ok result =>
      match assertGateResultIdentity result changesetRef expectedSha256 with
      | .error error => (w, .error (.thrown error))
      | .ok () => withEvidence turn w fun evidence =>
          if result.status = some .denied ∨ result.status = some .blocked then
            failWithEvidence options turn
              { runId
                expectedCursor := .gate
                invocationId := turn.invocationId
                evidenceRef := some evidence
                error := result.error.getD (gateError (result.status = some .denied))
                artifactRefs := result.artifactRefs } w
          else
            advanceWithEvidence options turn
              { runId
                expectedCursor := .gate
                invocationId := turn.invocationId
                evidenceRef := evidence
                nextInput := .deliver changesetRef expectedSha256
                artifactRefs := result.artifactRefs } w

def deliverStage (w : World π) : Attempt π :=
  match turn.executors.deliver with
  | .error error => (w, .error (.thrown error))
  | .ok result => withEvidence turn w fun evidence =>
      advanceWithEvidence options turn
        { runId
          expectedCursor := .deliver
          invocationId := turn.invocationId
          evidenceRef := evidence
          nextInput := .done
          artifactRefs := result.artifactRefs
          finalOutput := some result.finalOutput
          warnings := result.warnings } w

def stageBody (admitted : Option AdmittedDispatch) (w : World π) : StageInput → Attempt π
  | .selectAgent => selectAgentStage options turn w
  | .executeAgent _ => executeAgentStage options turn state admitted w
  | .council => councilStage options turn w
  | .gate changesetRef expectedSha256 =>
      gateStage options turn changesetRef expectedSha256 w
  | .deliver => deliverStage options turn w

/-- What `executeStage` does with an error of the stage. -/
def settle (dispatch : Option SapExecuteDispatch) (cursor : TaskResumeCursor)
    (error : StageError) (w : World π) : World π × Except Thrown TaskSnapshot :=
  let refused : Option Thrown :=
    match error with
    | .thrown error => if isStageCommitError error then some error else none
    | _ => none
  match refused, turn.signalAfter with
  | some error, _ => (w, .error error)
  | none, .interrupted request =>
      let outcome := interruptRun turn.settleEnv runId request w
      (outcome.final w, outcome.result.map (·.snapshot))
  | none, .aborted _ =>
      let outcome := finishRun options.bridges turn.settleEnv { runId, status := .cancelled } w
      (outcome.final w, outcome.result.map (·.snapshot))
  | none, .open =>
      let w := serve options.bridges turn.settling w
      let failureEvidence :=
        match error with
        | .evidenceWrite _ => none
        | _ => turn.failureEvidence
      let sapCancel : Except Thrown (Option (SapExecuteDispatch × SapCancelFrame)) :=
        match options.sapBridge, dispatch with
        | some bridge, some dispatch =>
            (bridge.createCancel turn.bridgeTime dispatch.frame).map fun frame =>
              some (dispatch, frame)
        | _, _ => .ok none
      match sapCancel with
      | .error error => (w, .error error)
      | .ok sapCancel =>
          let outcome := failStage options.bridges turn.settleEnv
            { runId
              expectedCursor := cursor
              invocationId := turn.invocationId
              error := stageFailure error cursor
              evidenceRef := failureEvidence
              artifactRefs := (error.resultEvidence.map (·.uri)).toList
              sapCancel } w
          (outcome.final w,
            outcome.result.bind fun committed => turn.settleNotified.map fun _ =>
              committed.snapshot)

/-- Why a stage did not return. -/
inductive StageStop where
  | alreadyClaimed
  | threw (error : Thrown)

/-- What one stage leaves behind: whether its executor was invoked, and how it ended. -/
structure StageRun (π : Type) where
  world : World π
  invoked : Bool
  result : Except StageStop TaskSnapshot

def executeStage (stage : StageInput) (w : World π) : StageRun π :=
  match createSapDispatch options turn state stage with
  | .error error => { world := w, invoked := false, result := .error (.threw error) }
  | .ok dispatch =>
      let started := startStage options.bridges turn.startEnv
        { runId
          expectedCursor := stage.cursor
          invocationId := turn.invocationId
          sapExecute := dispatch } w
      match started.result.bind fun _ => turn.startNotified with
      | .error error =>
          { world := started.final w, invoked := false, result := .error (.threw error) }
      | .ok () =>
          match beginExecute options turn dispatch (started.final w) with
          | .error error =>
              { world := started.final w, invoked := false, result := .error (.threw error) }
          | .ok (admitted, w) =>
              if admitted.any fun admitted => ¬ admitted.2.shouldExecute then
                { world := w, invoked := false, result := .error .alreadyClaimed }
              else
                let attempt := stageBody options turn state admitted
                  (serve options.bridges turn.during w) stage
                match attempt.2 with
                | .ok committed =>
                    { world := attempt.1, invoked := true, result := .ok committed.snapshot }
                | .error error =>
                    let settled := settle options turn dispatch stage.cursor error attempt.1
                    { world := settled.1, invoked := true
                      result := settled.2.mapError .threw }

end

/-! ## The loop -/

/-- How a run of the loop ended, if it did in the turns given. -/
inductive LoopEnd where
  | returned (snapshot : TaskSnapshot)
  /-- `SapExecutionAlreadyClaimedError` -/
  | alreadyClaimed (snapshot : TaskSnapshot)
  | threw (error : Thrown)
  | unfinished

structure LoopRun (π : Type) where
  world : World π
  invoked : List TaskResumeCursor
  ended : LoopEnd

def LoopEnd.ofResult (returned : TaskSnapshot → LoopEnd) : Except Thrown TaskSnapshot → LoopEnd
  | .ok snapshot => returned snapshot
  | .error error => .threw error

/-- `signal.throwIfAborted()` -/
def throwIfAborted : Signal → Except Thrown Unit
  | .open => .ok ()
  | .interrupted request => .error (.error request.reason)
  | .aborted reason => .error (.error reason)

def readTurn (taskId runId : String) (signal : Signal) (store : CoordinationStore) :
    Except Thrown (RunExecutionState × TaskCursorInput) := do
  throwIfAborted signal
  let state ← getRunExecutionState store runId
  assertRunTaskIdentity state taskId
  let input ← requireCursorInput state
  return (state, input)

def runStages (options : LoopOptions π) (taskId : String) {runId : String} :
    List (Turn runId) → World π → LoopRun π
  | [], w => { world := w, invoked := [], ended := .unfinished }
  | turn :: turns, w =>
      let w := serve options.bridges turn.before w
      match readTurn taskId runId turn.signalBefore w.store with
      | .error error => { world := w, invoked := [], ended := .threw error }
      | .ok (state, input) =>
          match StageInput.ofCursorInput input with
          | none =>
              { world := w, invoked := []
                ended := .ofResult .returned (getTaskSnapshot w.store taskId) }
          | some stage =>
              let run := executeStage options turn state stage w
              let invoked := if run.invoked then [stage.cursor] else []
              match run.result with
              | .error (.threw error) =>
                  { world := run.world, invoked, ended := .threw error }
              | .error .alreadyClaimed =>
                  { world := run.world, invoked
                    ended := .ofResult .alreadyClaimed (getTaskSnapshot run.world.store taskId) }
              | .ok snapshot =>
                  if snapshot.status = .running then
                    let rest := runStages options taskId turns run.world
                    { rest with invoked := invoked ++ rest.invoked }
                  else { world := run.world, invoked, ended := .returned snapshot }

end Newide.ExecutionLoop
