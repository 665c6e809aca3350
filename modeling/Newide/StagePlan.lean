import Newide.ProcessorPlan

/-!
# Stage commits

The operations that act inside a running Run: starting, advancing and
failing a stage, the Council receipts of a stage, the Council override,
and the legacy projection of driver events.  For each there is the
commit it builds and the plan that checks and builds it.
-/

namespace Newide

open Fallible

/-! ## Starting a stage -/

/-- The event an operation was given, or its own. -/
def stageEvent (event : Option Event) (own : Event) : Event :=
  event.getD own

/-- `input.event?.created_at ?? this.now()`. -/
def stageTimestamp (env : Env) (event : Option Event) : Timestamp :=
  (event.map (·.createdAt)).getD (env.now 0)

def startStageCommit (aggregate : PersistedTaskAggregate) (run : PersistedRunState)
    (input : StartTaskStageInput) (timestamp : Timestamp) (event : Event) :
    CoordinationStateCommit where
  expectedTaskRevision := some aggregate.task.revision
  task :=
    { aggregate.task with
      revision := aggregate.task.revision + 1
      updatedAt := timestamp }
  run := some { run with revision := run.revision + 1, updatedAt := timestamp }
  runtimeState :=
    { aggregate.runtimeState with
      diagnostics :=
        { aggregate.runtimeState.diagnostics with
          activeStage := some
            { cursor := input.expectedCursor
              invocationId := input.invocationId
              startedAt := timestamp
              startedEventId := event.eventId
              sapOutboxId := input.sapExecute.map (·.outboxId)
              sapExchangeId := input.sapExecute.map (·.frame.exchangeId) } }
      updatedAt := timestamp }
  events := [event]

def planStartStage {π : Type} (bridges : Bridges π) (env : Env) (input : StartTaskStageInput)
    (store : CoordinationStore) : Except Thrown (Planned π) := do
  let aggregate ← requireAggregateForRun store input.runId
  let run ← requireRun aggregate input.runId
  assertActiveStageTarget aggregate run input.expectedCursor
  let active ← readActiveStage aggregate.runtimeState.diagnostics
  ensure (active.isNone = true)
    (.error ("Run " ++ input.runId ++ " already has an active stage invocation"))
  let event := stageEvent input.event
    (createEvent env 0 "handler.started" input.runId aggregate.task.taskId input.runId
      [("cursor", .str input.expectedCursor.text), ("invocation_id", .str input.invocationId)])
  assertStageEvent event "handler.started" aggregate.task.taskId input.runId
  return .commit
    { taskId := aggregate.task.taskId
      commit := startStageCommit aggregate run input (stageTimestamp env input.event) event
      via :=
        match input.sapExecute with
        | some dispatch => bridges.sapWrite fun bridge => bridge.commitDispatch dispatch
        | none => .storeOnly }

/-! ## Council receipts -/

/-- A commit that only rewrites the active stage of a Run, with one event. -/
def activeStageCommit (aggregate : PersistedTaskAggregate) (run : PersistedRunState)
    (stage : ActiveStage) (timestamp : Timestamp) (event : Event) : CoordinationStateCommit where
  expectedTaskRevision := some aggregate.task.revision
  task :=
    { aggregate.task with
      revision := aggregate.task.revision + 1
      updatedAt := timestamp }
  run := some { run with revision := run.revision + 1, updatedAt := timestamp }
  runtimeState :=
    { aggregate.runtimeState with
      diagnostics := { aggregate.runtimeState.diagnostics with activeStage := some stage }
      updatedAt := timestamp }
  events := [event]

/-- The stored active stage, which must be a Council one. -/
def requireCouncilStage (aggregate : PersistedTaskAggregate) (what runId : String) :
    Except Thrown ActiveStage := do
  let active ← readActiveStage aggregate.runtimeState.diagnostics
  ensure (active.map (·.cursor) = some .council)
    (.error ("Council SAP " ++ what ++ " requires an active council stage for " ++ runId))
  orThrow aggregate.runtimeState.diagnostics.activeStage
    (.error ("Council SAP " ++ what ++ " requires an active council stage for " ++ runId))

/-- One attempt of `recordCouncilSapDispatch`. -/
def planCouncilSapDispatch {π : Type} (bridges : Bridges π) (env : Env) (runId : String)
    (dispatch : SapExecuteDispatch) (store : CoordinationStore) : Except Thrown (Planned π) := do
  let aggregate ← requireAggregateForRun store runId
  let run ← requireRun aggregate runId
  let stage ← requireCouncilStage aggregate "dispatch" runId
  let exchangeId := dispatch.frame.exchangeId
  if exchangeId ∈ stage.councilSapExchangeIds then
    return .unchanged aggregate.task.taskId
  else
    return .commit
      { taskId := aggregate.task.taskId
        commit := activeStageCommit aggregate run
          { stage with councilSapExchangeIds := stage.councilSapExchangeIds ++ [exchangeId] }
          dispatch.frame.createdAt
          (createEvent env 0 "council.sap.dispatched" exchangeId aggregate.task.taskId runId
            [("cursor", .str "council"), ("exchange_id", .str exchangeId),
              ("role_id", .nullable dispatch.frame.consumerRoleId),
              ("council_seat", .nullable dispatch.frame.councilSeat)])
        via := bridges.sapWrite fun bridge => bridge.commitDispatch dispatch }

/-- One attempt of `recordCouncilSapResult` on a result classified as accepted. -/
def planCouncilSapResult {π : Type} (bridges : Bridges π) (env : Env) (runId : String)
    (admission : SapExecutionAdmission) (result : SapResultFrame) (phase participantId : String)
    (store : CoordinationStore) : Except Thrown (Planned π) := do
  let aggregate ← requireAggregateForRun store runId
  let run ← requireRun aggregate runId
  let stage ← requireCouncilStage aggregate "result" runId
  let exchangeId := result.exchangeId
  if exchangeId ∈ stage.councilSapResultExchangeIds then
    return .unchanged aggregate.task.taskId
  else
    return .commit
      { taskId := aggregate.task.taskId
        commit := activeStageCommit aggregate run
          { stage with
            councilSapResultExchangeIds := stage.councilSapResultExchangeIds ++ [exchangeId] }
          result.createdAt
          (createEvent env 0 "council.sap.result.received" exchangeId aggregate.task.taskId runId
            [("cursor", .str "council"), ("phase", .str phase),
             ("participant_id", .str participantId), ("exchange_id", .str exchangeId),
             ("causation_id", .nullable result.causationId), ("status", .str result.status.text)])
        via := bridges.sapWrite fun bridge => bridge.commitResult admission result }

/-! ## Advancing a stage -/

/-- `resolveStageNextInput`: an override turns `execute_agent -> gate` into a Council stage. -/
def resolveStageNextInput (aggregate : PersistedTaskAggregate) (input : AdvanceTaskStageInput) :
    Except Thrown TaskCursorInput := do
  let overrideRequested := aggregate.runtimeState.diagnostics.councilOverride
  ensure (¬ (overrideRequested = true ∧ input.expectedCursor = .executeAgent ∧
      input.nextInput.cursor = .gate ∧ input.councilOverrideInput.isNone = true))
    (.error "Council override requires a Council input before execute_agent can advance")
  match input.councilOverrideInput with
  | none => return input.nextInput
  | some override => do
      ensure (input.expectedCursor = .executeAgent ∧ input.nextInput.cursor = .gate ∧
          override.trigger = .persistentOverride)
        (.error ("Council override input is only valid for execute_agent -> gate " ++
          "with persistent_override"))
      return if overrideRequested then override.toCursorInput else input.nextInput

/-- The Task row after a stage: its owner, and its output when the stage was the last. -/
def advancedTask (task : PersistedTaskState) (input : AdvanceTaskStageInput)
    (nextInput : TaskCursorInput) (timestamp : Timestamp) : PersistedTaskState :=
  let owned :=
    { task with
      ownerAgentId :=
        truthy input.ownerAgentId
          <|> (match nextInput with
            | .executeAgent winnerAgentId _ _ => some winnerAgentId
            | _ => none)
          <|> task.ownerAgentId
      revision := task.revision + 1
      updatedAt := timestamp }
  if nextInput.cursor = .done then
    { owned with
      status := .completed
      warnings := input.warnings
      finalOutput := input.finalOutput }
  else owned

@[simp] theorem advancedTask_taskId (task : PersistedTaskState) (input : AdvanceTaskStageInput)
    (nextInput : TaskCursorInput) (timestamp : Timestamp) :
    (advancedTask task input nextInput timestamp).taskId = task.taskId := by
  by_cases hdone : nextInput.cursor = .done <;> simp [advancedTask, hdone]

def advancedRun (run : PersistedRunState) (input : AdvanceTaskStageInput)
    (nextInput : TaskCursorInput) (timestamp : Timestamp) : PersistedRunState :=
  let moved :=
    { run with
      sessionId := truthy input.sessionId <|> run.sessionId
      revision := run.revision + 1
      updatedAt := timestamp }
  if nextInput.cursor = .done then
    { moved with status := .completed, completedAt := some timestamp }
  else moved

def advancedRuntimeState (state : PersistedTaskRuntimeState) (input : AdvanceTaskStageInput)
    (nextInput : TaskCursorInput) (timestamp : Timestamp) : PersistedTaskRuntimeState :=
  { state with
    currentRunId := if nextInput.cursor = .done then none else some input.runId
    resumeCursor := nextInput.cursor
    cursorInput := some nextInput
    waitingOn := []
    artifactRefs := appendUnique state.artifactRefs (input.evidenceRef.uri :: input.artifactRefs)
    diagnostics :=
      { state.diagnostics with
        activeStage := none
        stageEvidence :=
          (state.diagnostics.stageEvidence.filter fun entry => entry.1 ≠ input.expectedCursor)
            ++ [(input.expectedCursor, input.evidenceRef)]
        lastCompletedStage := some input.expectedCursor
        lastCompletedInvocationId := some input.invocationId }
    updatedAt := timestamp }

def advanceStageCommit (env : Env) (aggregate : PersistedTaskAggregate)
    (run : PersistedRunState) (input : AdvanceTaskStageInput) (nextInput : TaskCursorInput)
    (event : Event) : CoordinationStateCommit :=
  let timestamp := stageTimestamp env input.event
  { expectedTaskRevision := some aggregate.task.revision
    task := advancedTask aggregate.task input nextInput timestamp
    run := some (advancedRun run input nextInput timestamp)
    runtimeState := advancedRuntimeState aggregate.runtimeState input nextInput timestamp
    events := event ::
      if nextInput.cursor = .done then
        [createEvent env 1 "run.completed" input.runId aggregate.task.taskId input.runId
          (("status", .str "completed") ::
            optionalField "final_artifact_ref" (input.finalOutput.map (·.artifactRef)))]
      else [] }

/-- `text.trim()`. -/
def trimText (text : String) : String :=
  String.ofList ((text.toList.dropWhile Char.isWhitespace).reverse.dropWhile
    Char.isWhitespace).reverse

/-- `createAapMailboxDispatch`: the ask that goes with a mailbox wait. -/
def createAapMailboxDispatch {π : Type} (bridges : Bridges π) (env : Env)
    (aggregate : PersistedTaskAggregate) (run : PersistedRunState)
    (input : AdvanceTaskStageInput) (deliveryIds : List String) :
    Except Thrown (Option AapAskDispatch) :=
  match bridges.aapBridge, env.mailboxStore with
  | some bridge, some mailboxStore => do
      let deliveryId ← orThrow (if deliveryIds.length = 1 then deliveryIds.head? else none)
        (.error "AAP mailbox wait requires exactly one delivery")
      let envelope ← orThrow (mailboxStore.getMailboxEnvelope deliveryId)
        (.error ("Mailbox delivery " ++ deliveryId ++ " was not found"))
      let fromRoleId ← orThrow (truthy (input.ownerAgentId <|> aggregate.task.ownerAgentId))
        (.error "AAP mailbox wait requires the sender Agent role")
      let activeStage ← readActiveStage aggregate.runtimeState.diagnostics
      let ownText := truthy (envelope.message.content.map trimText)
      let payloadText := (Payload.get? envelope.message.payload "content").bind Json.string?
      let dispatch ← bridge.createAsk (env.now 4)
        { taskId := envelope.message.taskId
          runId := run.runId
          fromRoleId
          toRoleId := envelope.delivery.recipientRoleId
          messageId := envelope.message.messageId
          deliveryId := envelope.delivery.deliveryId
          content := (ownText <|> payloadText).getD (env.stringify (.obj envelope.message.payload))
          deadlineAt := truthy envelope.delivery.deadlineAt
          causationId := activeStage.bind fun stage =>
            readPayloadString stage.payload "sap_exchange_id"
          exchangeId := "aap_ask_" ++ envelope.message.messageId }
      return some dispatch
  | _, _ => .ok none

/-- The ask an advance sends: only a mailbox wait sends one. -/
def stageAapDispatch {π : Type} (bridges : Bridges π) (env : Env)
    (aggregate : PersistedTaskAggregate) (run : PersistedRunState)
    (input : AdvanceTaskStageInput) (nextInput : TaskCursorInput) :
    Except Thrown (Option AapAskDispatch) :=
  match nextInput with
  | .mailboxWait deliveryIds _ =>
      createAapMailboxDispatch bridges env aggregate run input deliveryIds
  | _ => .ok none

def advanceVia {π : Type} (bridges : Bridges π) (input : AdvanceTaskStageInput)
    (aapDispatch : Option AapAskDispatch) : ProtocolWrite π :=
  match input.sapResult, aapDispatch with
  | some (admission, frame), _ => bridges.sapWrite fun bridge => bridge.commitResult admission frame
  | none, some dispatch => bridges.aapWrite fun bridge => bridge.commitWait dispatch
  | none, none => .storeOnly

/-- `advanceStageOnce` up to its commit, with the input of the stage it moves to. -/
def planAdvanceStage {π : Type} (bridges : Bridges π) (env : Env)
    (input : AdvanceTaskStageInput) (store : CoordinationStore) :
    Except Thrown (Plan π × TaskCursorInput) := do
  let aggregate ← requireAggregateForRun store input.runId
  let run ← requireRun aggregate input.runId
  assertActiveStageTarget aggregate run input.expectedCursor
  assertInvocation aggregate input.expectedCursor input.invocationId
  assertEvidenceReference input.evidenceRef
  let nextInput ← parseTaskCursorInput (← resolveStageNextInput aggregate input)
  assertCursorTransition input.expectedCursor nextInput.cursor
  assertChangesetIdentity aggregate.runtimeState.cursorInput nextInput input.finalOutput
  ensure (nextInput.cursor = .done → input.finalOutput.isSome = true)
    (.error "Advancing deliver to done requires final_output")
  (if nextInput.cursor = .done then input.finalOutput.toList else []).forM
    assertFinalOutputEvidence
  let event := stageEvent input.event
    (createEvent env 0 "handler.completed" input.runId aggregate.task.taskId input.runId
      [("cursor", .str input.expectedCursor.text), ("invocation_id", .str input.invocationId),
       ("next_cursor", .str nextInput.cursor.text),
       ("evidence_ref", .str input.evidenceRef.uri),
       ("evidence_sha256", .str input.evidenceRef.sha256)])
  assertStageEvent event "handler.completed" aggregate.task.taskId input.runId
  ensure (∀ candidate ∈ aggregate.events, candidate.eventId ≠ event.eventId)
    (.error ("Stage event " ++ event.eventId ++ " already exists"))
  ensure (nextInput.cursor = .done → CanTransition aggregate.task.status .completed)
    (.error ("Invalid task status transition: " ++ aggregate.task.status.text ++
      " -> completed"))
  let aapDispatch ← stageAapDispatch bridges env aggregate run input nextInput
  return ({
    taskId := aggregate.task.taskId
    commit := advanceStageCommit env aggregate run input nextInput event
    via := advanceVia bridges input aapDispatch }, nextInput)

/-! ## Failing a stage -/

def failStageCommit (env : Env) (aggregate : PersistedTaskAggregate) (run : PersistedRunState)
    (input : FailTaskStageInput) (event : Event) : CoordinationStateCommit :=
  let timestamp := stageTimestamp env input.event
  { expectedTaskRevision := some aggregate.task.revision
    task :=
      { aggregate.task with
        status := .failed
        ownerAgentId := truthy input.ownerAgentId <|> aggregate.task.ownerAgentId
        error := some input.error
        revision := aggregate.task.revision + 1
        updatedAt := timestamp }
    run := some
      { run with
        status := .failed
        sessionId := truthy input.sessionId <|> run.sessionId
        error := some input.error
        revision := run.revision + 1
        completedAt := some timestamp
        updatedAt := timestamp }
    runtimeState :=
      { aggregate.runtimeState with
        currentRunId := none
        resumeCursor := .done
        cursorInput := some .done
        waitingOn := []
        artifactRefs := appendUnique aggregate.runtimeState.artifactRefs
          ((input.evidenceRef.map (·.uri)).toList ++ input.artifactRefs)
        diagnostics :=
          { aggregate.runtimeState.diagnostics with
            activeStage := none
            failedStage := some input.expectedCursor
            failedInvocationId := some input.invocationId
            failedStageEvidence :=
              input.evidenceRef <|> aggregate.runtimeState.diagnostics.failedStageEvidence }
        updatedAt := timestamp }
    events := [event,
      createEvent env 1 "run.failed" input.runId aggregate.task.taskId input.runId
        [("status", .str "failed"), ("code", .str input.error.code),
         ("message", .str input.error.message)]] }

def planFailStage {π : Type} (bridges : Bridges π) (env : Env) (input : FailTaskStageInput)
    (store : CoordinationStore) : Except Thrown (Planned π) := do
  let aggregate ← requireAggregateForRun store input.runId
  let run ← requireRun aggregate input.runId
  assertActiveStageTarget aggregate run input.expectedCursor
  assertInvocation aggregate input.expectedCursor input.invocationId
  input.evidenceRef.toList.forM assertEvidenceReference
  assertTaskStatusTransition aggregate.task.status .failed
  let event := stageEvent input.event
    (createEvent env 0 "handler.failed" input.runId aggregate.task.taskId input.runId
      [("cursor", .str input.expectedCursor.text), ("invocation_id", .str input.invocationId),
       ("code", .str input.error.code), ("message", .str input.error.message)])
  assertStageEvent event "handler.failed" aggregate.task.taskId input.runId
  return .commit
    { taskId := aggregate.task.taskId
      commit := failStageCommit env aggregate run input event
      via :=
        match input.sapCancel, input.sapResult with
        | some (dispatch, frame), _ =>
            bridges.sapWrite fun bridge => bridge.commitCancel dispatch frame
        | none, some (admission, frame) =>
            bridges.sapWrite fun bridge => bridge.commitResult admission frame
        | none, none => .storeOnly }

/-! ## Council override -/

def setCouncilOverrideCommit (env : Env) (aggregate : PersistedTaskAggregate)
    (run : PersistedRunState) : CoordinationStateCommit :=
  let event := createEvent env 0 "task.council_override_set" run.runId aggregate.task.taskId
    run.runId [("council_override", .bool true)]
  { expectedTaskRevision := some aggregate.task.revision
    task :=
      { aggregate.task with
        revision := aggregate.task.revision + 1
        updatedAt := env.now 0 }
    run := some { run with revision := run.revision + 1, updatedAt := env.now 0 }
    runtimeState :=
      { aggregate.runtimeState with
        diagnostics :=
          { aggregate.runtimeState.diagnostics with
            councilOverride := true
            councilOverrideEventId := some event.eventId }
        updatedAt := env.now 0 }
    events := [event] }

def planSetCouncilOverride {π : Type} (env : Env) (runId : String) (store : CoordinationStore) :
    Except Thrown (Planned π) := do
  let aggregate ← requireAggregateForRun store runId
  let run ← requireRun aggregate runId
  assertActiveRunOwnership aggregate run
  ensure (aggregate.runtimeState.resumeCursor ∈ [.selectAgent, .executeAgent])
    (.error ("Council override is too late at " ++ aggregate.runtimeState.resumeCursor.text ++
      "; it must be requested before Gate"))
  if aggregate.runtimeState.diagnostics.councilOverride then
    return .unchanged aggregate.task.taskId
  else
    return .commit
      { taskId := aggregate.task.taskId
        commit := setCouncilOverrideCommit env aggregate run }

/-! ## Driver events -/

/-- `cursorAfterEvent`: the cursor the legacy event vocabulary implies. -/
def cursorAfterEvent (eventType : String) (payload : Payload) (mode : RunMode)
    (current : TaskResumeCursor) : TaskResumeCursor :=
  if eventType = "market.selected" then .executeAgent
  else if eventType ∈ ["agent.execution_requested", "memory.context_pack_built",
      "driver.session_started"] then .executeAgent
  else if eventType ∈ ["agent.execution_completed", "driver.run_result"] then .gate
  else if hasPrefix eventType "council." = true ∧
      eventType ∉ ["council.completed", "council.decision"] then .council
  else if eventType ∈ ["council.completed", "council.decision"] then .gate
  else if eventType = "gate.result" then
    if mode = .council ∧ (payload.get? "phase").bind Json.string? = some "pre_council" then .council
    else .deliver
  else if eventType ∈ ["artifact.selected", "artifact.delivered", "worktree.materialized",
      "checkpoint.saved"] then .deliver
  else current

/-- The cursor a driver event moves a Run to: a running stage keeps its own. -/
def projectedCursor (aggregate : PersistedTaskAggregate) (run : PersistedRunState)
    (event : Event) : TaskResumeCursor :=
  cursorAfterEvent event.eventType event.payload run.mode aggregate.runtimeState.resumeCursor

def recordRunEventCommit (env : Env) (aggregate : PersistedTaskAggregate)
    (run : PersistedRunState) (event : Event) : CoordinationStateCommit :=
  let timestamp := if event.createdAt = "" then env.now 0 else event.createdAt
  let state := aggregate.runtimeState
  let nextCursor := projectedCursor aggregate run event
  let cursorMoved : Prop := nextCursor ≠ state.resumeCursor
  let hasActiveStage := state.diagnostics.activeStage.isSome
  let shouldProjectCursor := cursorMoved ∧ hasActiveStage = false
  { expectedTaskRevision := some aggregate.task.revision
    task :=
      { aggregate.task with
        ownerAgentId := readPayloadString event.payload "winner_agent_id"
          <|> aggregate.task.ownerAgentId
        revision := aggregate.task.revision + 1
        updatedAt := timestamp }
    run := some
      { run with
        sessionId := run.sessionId <|> readPayloadString event.payload "session_id"
        revision := run.revision + 1
        updatedAt := timestamp }
    runtimeState :=
      { state with
        -- a projected cursor has no input: the legacy vocabulary carries none
        cursorInput := if shouldProjectCursor then none else state.cursorInput
        resumeCursor := if shouldProjectCursor then nextCursor else state.resumeCursor
        artifactRefs := appendUnique state.artifactRefs
          (readPayloadStringArray event.payload "artifact_refs")
        diagnostics :=
          { state.diagnostics with
            legacyCursorProjection :=
              if shouldProjectCursor then true else state.diagnostics.legacyCursorProjection
            legacyCursorProjectionSuppressed :=
              if cursorMoved ∧ hasActiveStage = true then true
              else state.diagnostics.legacyCursorProjectionSuppressed
            lastEventId := some event.eventId
            lastEventType := some event.eventType }
        updatedAt := timestamp }
    events := [event] }

def planRecordRunEvent {π : Type} (env : Env) (runId : String) (event : Event)
    (store : CoordinationStore) : Except Thrown (Planned π) := do
  let aggregate ← requireAggregateForRun store runId
  if ∃ candidate ∈ aggregate.events, candidate.eventId = event.eventId then
    return .unchanged aggregate.task.taskId
  else do
    let run ← requireRun aggregate runId
    ensure (isActiveRun run = true)
      (.error ("Run " ++ runId ++ " is already " ++ run.status.text))
    ensure (event.taskId = some aggregate.task.taskId ∧ event.runId = some runId)
      (.error ("Event " ++ event.eventId ++ " does not belong to run " ++ runId))
    let _ ← readActiveStage aggregate.runtimeState.diagnostics
    return .commit
      { taskId := aggregate.task.taskId
        commit := recordRunEventCommit env aggregate run event }

end Newide
