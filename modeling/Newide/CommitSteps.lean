import Newide.Foundation.Runs
import Newide.TaskProcessor

/-!
# What a commit of the processor can be

`TaskCommit` lists every commit an operation can make with everything
the operation checked before it: one constructor for each kind of
commit.  The inversion lemmas show that the planning functions produce
nothing else, so an invariant of the store is proved by one case
analysis over `TaskCommit` and never looks at a planning function again.
-/

namespace Newide

open Fallible CoordinationStore

/-! ## Guards -/

/-- An operation found this Run, in this record of the store. -/
structure ActsOn (store : CoordinationStore) (record : TaskRecord) (run : PersistedRunState)
    (runId : String) : Prop where
  record_mem : record ∈ store.tables.records
  run_mem : run ∈ record.runs
  run_id : run.runId = runId

/-- `assertActiveRunOwnership` passed. -/
structure Owns (store : CoordinationStore) (record : TaskRecord) (run : PersistedRunState)
    (runId : String) : Prop extends ActsOn store record run runId where
  active : isActiveRun run = true
  running : record.task.status = .running
  current : record.runtimeState.currentRunId = some run.runId

/-- `assertActiveStageTarget` passed. -/
structure AtStage (store : CoordinationStore) (record : TaskRecord) (run : PersistedRunState)
    (runId : String) (cursor : TaskResumeCursor) : Prop extends Owns store record run runId where
  cursor_eq : record.runtimeState.resumeCursor = cursor
  input_cursor : record.runtimeState.cursorInput.map (·.cursor) = some cursor

/-- `assertInvocation` passed on this stored stage. -/
structure InStage (record : TaskRecord) (stage : ActiveStage) (cursor : TaskResumeCursor)
    (invocationId : String) : Prop where
  stored : record.runtimeState.diagnostics.activeStage = some stage
  cursor_eq : stage.cursor = cursor
  invocation : stage.invocationId = invocationId
  nonempty : stage.invocationId ≠ ""

structure HandlerEvent (event : Event) (eventType runId : String) : Prop where
  type_eq : event.eventType = eventType
  run_eq : event.runId = some runId

/-- The checks of an advance to `nextInput` passed. -/
structure Advances (store : CoordinationStore) (record : TaskRecord) (run : PersistedRunState)
    (input : AdvanceTaskStageInput) (nextInput : TaskCursorInput) (event : Event) : Prop where
  at_stage : AtStage store record run input.runId input.expectedCursor
  in_stage : ∃ stage, InStage record stage input.expectedCursor input.invocationId
  next : resolveStageNextInput record.aggregate input = .ok nextInput
  wellFormed : nextInput.WellFormed
  transition : nextInput.cursor ∈ cursorTransitions input.expectedCursor
  identity : assertChangesetIdentity record.runtimeState.cursorInput nextInput
    input.finalOutput = .ok ()
  handler : HandlerEvent event "handler.completed" input.runId

structure SameInvocation (stage stage' : ActiveStage) : Prop where
  cursor_eq : stage'.cursor = stage.cursor
  invocation : stage'.invocationId = stage.invocationId
  event : stage'.startedEventId = stage.startedEventId

/-- The Council receipts are the operations that only touch the active stage. -/
def Operation.isCouncilReceipt : Operation → String → Prop
  | .recordCouncilSapDispatch runId _, r => runId = r
  | .recordCouncilSapResult runId _ _ _ _, r => runId = r
  | _, _ => False

def Operation.interrupts (op : Operation) (runId : String) (input : InterruptRunInput) : Prop :=
  (∃ request, op = .interruptRun runId request ∧ input = userInterrupt runId request) ∨
    (op = .recoverInterruptedTasks ∧ input = processInterrupt runId)

def Operation.takesSafepoint (op : Operation) (record : TaskRecord) (run : PersistedRunState) :
    Prop :=
  (op = .saveShutdownSafepoints ∧ isActiveRun run = true) ∨
    ((∃ input, op = .advanceStage input ∧ run.runId = input.runId) ∧
      record.runtimeState.cursorInput.map (·.cursor) = some record.runtimeState.resumeCursor)

/-! ## The commits -/

/-- Every commit an operation can make on a store, with the record it is made to and what
the operation checked. -/
inductive TaskCommit (store : CoordinationStore) (env : Env) :
    Operation → Option TaskRecord → CoordinationStateCommit → Prop where
  | beginNew {input : BeginTaskRunInput}
      (hnone : store.record? input.taskId = none)
      (hintent : input.intent = .create)
      (hwf : input.initialCursorInput.WellFormed)
      (hcursor : input.initialCursorInput.cursor = .selectAgent) :
      TaskCommit store env (.beginRun input) none (beginRunCommit env input none)
  | beginExisting {input : BeginTaskRunInput} {record : TaskRecord}
      (hrec : store.record? input.taskId = some record)
      (hidle : record.activeRuns = [])
      (hdef : assertImmutableTaskDefinition record.task input.taskRequest
        (input.taskWorkspacePath record.task) = .ok ())
      (hwf : input.initialCursorInput.WellFormed)
      (hintent : assertExistingTaskIntent record.aggregate input input.initialCursorInput
        input.intent (store.getLatestCheckpoint input.taskId) env.mailboxStore = .ok ()) :
      TaskCommit store env (.beginRun input) (some record)
        (beginRunCommit env input (some record.aggregate))
  | startStage {input : StartTaskStageInput} {record : TaskRecord} {run : PersistedRunState}
      {event : Event} (hat : AtStage store record run input.runId input.expectedCursor)
      (hidle : record.runtimeState.diagnostics.activeStage = none)
      (hevent : HandlerEvent event "handler.started" input.runId) :
      TaskCommit store env (.startStage input) (some record)
        (startStageCommit record.aggregate run input (stageTimestamp env input.event) event)
  | councilReceipt {op : Operation} {runId : String} {record : TaskRecord}
      {run : PersistedRunState} {stage stage' : ActiveStage} {timestamp : Timestamp}
      {event : Event} (hop : op.isCouncilReceipt runId) (hacts : ActsOn store record run runId)
      (hin : InStage record stage .council stage.invocationId)
      (hsame : SameInvocation stage stage')
      (hevent : hasPrefix event.eventType "handler." = false) :
      TaskCommit store env op (some record)
        (activeStageCommit record.aggregate run stage' timestamp event)
  | advance {input : AdvanceTaskStageInput} {record : TaskRecord} {run : PersistedRunState}
      {event : Event} {nextInput : TaskCursorInput}
      (h : Advances store record run input nextInput event) :
      TaskCommit store env (.advanceStage input) (some record)
        (advanceStageCommit env record.aggregate run input nextInput event)
  | fail {input : FailTaskStageInput} {record : TaskRecord} {run : PersistedRunState}
      {event : Event} {stage : ActiveStage}
      (hat : AtStage store record run input.runId input.expectedCursor)
      (hin : InStage record stage input.expectedCursor input.invocationId)
      (hevent : HandlerEvent event "handler.failed" input.runId) :
      TaskCommit store env (.failStage input) (some record)
        (failStageCommit env record.aggregate run input event)
  | override {runId : String} {record : TaskRecord} {run : PersistedRunState}
      (howns : Owns store record run runId)
      (hcursor : record.runtimeState.resumeCursor ∈ [.selectAgent, .executeAgent])
      (hoff : record.runtimeState.diagnostics.councilOverride = false) :
      TaskCommit store env (.setCouncilOverride runId) (some record)
        (setCouncilOverrideCommit env record.aggregate run)
  | runEvent {runId : String} {event : Event} {record : TaskRecord} {run : PersistedRunState}
      (hacts : ActsOn store record run runId) (hactive : isActiveRun run = true)
      (htask : event.taskId = some record.taskId) (hrun : event.runId = some runId) :
      TaskCommit store env (.recordRunEvent runId event) (some record)
        (recordRunEventCommit env record.aggregate run event)
  | mailboxWait {runId reason : String} {deliveryIds : List String} {record : TaskRecord}
      {run : PersistedRunState} (howns : Owns store record run runId)
      (hwait : pendingMailboxWait record.runtimeState = some (deliveryIds, reason)) :
      TaskCommit store env (.completeRunForMailboxWait runId) (some record)
        (completeRunForMailboxWaitCommit env record.aggregate run deliveryIds reason)
  | block {taskId reason runId : String} {record : TaskRecord}
      (hrec : store.record? taskId = some record)
      (htrans : CanTransition record.task.status .blocked)
      (hrun : requireMailboxExitRun record.aggregate "block mailbox deadlock" = .ok runId) :
      TaskCommit store env (.blockMailboxDeadlock taskId reason) (some record)
        (blockMailboxDeadlockCommit env record.aggregate runId reason)
  | expire {taskId reason runId : String} {record : TaskRecord}
      (hrec : store.record? taskId = some record)
      (htrans : CanTransition record.task.status .failed)
      (hrun : requireMailboxExitRun record.aggregate "expire mailbox wait" = .ok runId) :
      TaskCommit store env (.expireMailboxWait taskId reason) (some record)
        (expireMailboxWaitCommit env record.aggregate runId reason)
  | interrupt {op : Operation} {record : TaskRecord} {run : PersistedRunState}
      {input : InterruptRunInput} (hop : op.interrupts run.runId input)
      (hacts : ActsOn store record run run.runId) (hactive : isActiveRun run = true)
      (htrans : CanTransition record.task.status .blocked) :
      TaskCommit store env op (some record)
        (interruptCommit env record.aggregate run input (store.getLatestCheckpoint record.taskId))
  | finish {input : FinishTaskRunInput} {record : TaskRecord} {run : PersistedRunState}
      (hacts : ActsOn store record run input.runId) (hactive : isActiveRun run = true)
      (htrans : CanTransition record.task.status input.status.toTaskStatus) :
      TaskCommit store env (.finishRun input) (some record)
        (finishRunCommit env record.aggregate run input)
  | safepoint {op : Operation} {record : TaskRecord} {run : PersistedRunState}
      {trigger : SafepointTrigger} (hop : op.takesSafepoint record run)
      (hacts : ActsOn store record run run.runId) :
      TaskCommit store env op (some record)
        (safepointCommit env record.aggregate run trigger
          (store.getLatestCheckpoint record.taskId))
  | restore {taskId checkpointId runId : String} {outcome : Payload} {record : TaskRecord}
      (hrec : store.record? taskId = some record) :
      TaskCommit store env (.recordWorkspaceRestore taskId checkpointId runId outcome) (some record)
        (workspaceRestoreCommit env record.aggregate checkpointId runId outcome)

/-! ## Inverting the guards -/

variable {aggregate : PersistedTaskAggregate} {runId taskId : String} {u : Unit}
  {cursor : TaskResumeCursor}

theorem requireAggregateForRun_ok {store : CoordinationStore}
    (h : requireAggregateForRun store runId = .ok aggregate) :
    ∃ record ∈ store.tables.records, record.aggregate = aggregate := by
  simp only [requireAggregateForRun, orThrow_eq_ok] at h
  exact mem_listTaskAggregates.mp (List.mem_of_find?_eq_some h)

theorem requireRun_ok {run : PersistedRunState} (h : requireRun aggregate runId = .ok run) :
    run ∈ aggregate.runs ∧ run.runId = runId := by
  simp only [requireRun, orThrow_eq_ok, PersistedTaskAggregate.run?] at h
  exact ⟨List.mem_of_find?_eq_some h, by simpa using List.find?_some h⟩

section
variable {store : CoordinationStore} {record : TaskRecord} {run : PersistedRunState}

theorem requireAggregateForRun_of_mem (hmem : record ∈ store.tables.records)
    (hrun : run ∈ record.runs) :
    requireAggregateForRun store run.runId = .ok record.aggregate := by
  refine orThrow_eq_ok.mpr ?_
  have hsome : ∃ aggregate ∈ store.listTaskAggregates,
      (aggregate.runs.any fun x => x.runId = run.runId) = true :=
    ⟨record.aggregate, mem_listTaskAggregates.mpr ⟨record, hmem, rfl⟩,
      List.any_eq_true.mpr ⟨run, hrun, by simp⟩⟩
  cases hfound : store.listTaskAggregates.find? fun candidate =>
      candidate.runs.any fun x => x.runId = run.runId with
  | none =>
      obtain ⟨aggregate, hin, htrue⟩ := hsome
      exact absurd htrue (List.find?_eq_none.mp hfound aggregate hin)
  | some aggregate =>
      obtain ⟨owner, howner, rfl⟩ :=
        mem_listTaskAggregates.mp (List.mem_of_find?_eq_some hfound)
      have hany := List.find?_some hfound
      obtain ⟨x, hx, hid⟩ := List.any_eq_true.mp hany
      rw [store.constraints.record_eq_of_run howner hmem hx hrun (by simpa using hid)]

theorem requireRun_of_mem (hmem : record ∈ store.tables.records) (hrun : run ∈ record.runs) :
    requireRun record.aggregate run.runId = .ok run :=
  orThrow_eq_ok.mpr ((store.constraints.record_runs_distinct hmem).lookup_of_mem hrun)

end

theorem requireTask_ok {store : CoordinationStore} (h : requireTask store taskId = .ok aggregate) :
    ∃ record, store.record? taskId = some record ∧ record.aggregate = aggregate := by
  simp only [requireTask, orThrow_eq_ok] at h
  exact Option.map_eq_some_iff.mp h

theorem assertActiveRunOwnership_eq_ok {run : PersistedRunState} :
    assertActiveRunOwnership aggregate run = .ok u ↔
      isActiveRun run = true ∧ aggregate.task.status = .running ∧
        aggregate.runtimeState.currentRunId = some run.runId := by
  simp only [assertActiveRunOwnership, bind_eq_ok, ensure_eq_ok, exists_and_left, exists_const]

theorem assertActiveStageTarget_eq_ok {run : PersistedRunState} :
    assertActiveStageTarget aggregate run cursor = .ok u ↔
      (isActiveRun run = true ∧ aggregate.task.status = .running ∧
        aggregate.runtimeState.currentRunId = some run.runId) ∧
      aggregate.runtimeState.resumeCursor = cursor ∧
      aggregate.runtimeState.cursorInput.map (·.cursor) = some cursor := by
  simp only [assertActiveStageTarget, bind_eq_ok, ensure_eq_ok, assertActiveRunOwnership_eq_ok,
    exists_and_left, exists_const]

theorem readActiveStage_eq_ok {diagnostics : Diagnostics}
    {active : Option ActiveStageInvocation} :
    readActiveStage diagnostics = .ok active ↔
      match diagnostics.activeStage with
      | none => active = none
      | some stage => stage.invocationId ≠ "" ∧
          active = some { cursor := stage.cursor, invocationId := stage.invocationId } := by
  unfold readActiveStage
  cases diagnostics.activeStage with
  | none =>
      constructor
      · intro h
        cases h
        rfl
      · rintro rfl
        rfl
  | some stage =>
      simp only [bind_eq_ok, ensure_eq_ok, pure_eq_ok, exists_and_left, exists_const]
      exact and_congr_right fun _ => eq_comm

theorem assertStageEvent_ok {event : Event} {eventType : String}
    (h : assertStageEvent event eventType taskId runId = .ok u) :
    HandlerEvent event eventType runId := by
  simp only [assertStageEvent, bind_eq_ok, ensure_eq_ok, exists_and_left, exists_const] at h
  exact ⟨h.1, h.2.2⟩

theorem assertInvocation_ok {record : TaskRecord} {invocationId : String}
    (h : assertInvocation record.aggregate cursor invocationId = .ok u) :
    ∃ stage, InStage record stage cursor invocationId := by
  simp only [assertInvocation, bind_eq_ok, ensure_eq_ok, orThrow_eq_ok,
    readActiveStage_eq_ok] at h
  obtain ⟨active, hactive, invocation, rfl, hc, hi⟩ := h
  cases hs : record.runtimeState.diagnostics.activeStage with
  | none =>
      rw [hs] at hactive
      cases hactive
  | some stage =>
      rw [hs] at hactive
      obtain ⟨hne, heq⟩ := hactive
      cases heq
      exact ⟨stage, hs, hc, hi, hne⟩

end Newide
