import Newide.RunLife

/-!
# Mailbox waits and deadlocks

`listMailboxWaitContexts` finds the Run that waits in the interrupt
state or, failing that, as the current Run.  A deadlock overwrites the
interrupt state without the Run's id, and a wait has no current Run, so
the wait it is reported on is lost.
-/

namespace Newide

open Fallible CoordinationStore

variable {π : Type}

structure TaskMailboxWaitContext where
  taskId : String
  taskRequest : TaskCreateRequest
  workspacePath : String
  sessionId : Option String
  runId : String
  mode : RunMode
  memoryAblation : Option MemoryAblation
  senderRoleId : String
  deliveryIds : List String
  waitingReason : String

def waitingRunId (state : PersistedTaskRuntimeState) : Option String :=
  truthy (state.interruptState.bind (·.interruptedRunId)) <|> truthy state.currentRunId

theorem waitingRunId_ne (state : PersistedTaskRuntimeState) : waitingRunId state ≠ some "" := by
  unfold waitingRunId
  cases h : truthy (state.interruptState.bind (·.interruptedRunId)) with
  | none => exact truthy_ne _
  | some runId =>
      intro hempty
      exact truthy_ne _ (h.trans hempty)

def mailboxWaitContext (aggregate : PersistedTaskAggregate) (run : PersistedRunState)
    (senderRoleId : String) (wait : List String × String) : TaskMailboxWaitContext where
  taskId := aggregate.task.taskId
  taskRequest :=
    { storedTaskRequest aggregate.task with
      allowAgentCouncil := aggregate.runtimeState.diagnostics.allowAgentCouncil }
  workspacePath := aggregate.task.workspacePath
  sessionId := truthy run.sessionId
  runId := run.runId
  mode := run.mode
  memoryAblation := aggregate.runtimeState.diagnostics.memoryAblation
  senderRoleId
  deliveryIds := wait.1
  waitingReason := wait.2

/-- The wait of one Task, if it waits. -/
def mailboxWaitContext? (aggregate : PersistedTaskAggregate) : Option TaskMailboxWaitContext := do
  let wait ← pendingMailboxWait aggregate.runtimeState
  let run ← (waitingRunId aggregate.runtimeState).bind aggregate.run?
  let senderRoleId ← truthy aggregate.task.ownerAgentId
  if aggregate.task.status ∈ [.running, .waitingHelp, .blocked] then
    some (mailboxWaitContext aggregate run senderRoleId wait)
  else none

def listMailboxWaitContexts (store : CoordinationStore) : List TaskMailboxWaitContext :=
  store.listTaskAggregates.filterMap mailboxWaitContext?

/-- The request `continueMailboxWait` hands to `startRun`, and that to `beginRun`. -/
def continuationRequest (context : TaskMailboxWaitContext)
    (runId workspacePath sourceDeliveryId replyDeliveryId : String) : BeginTaskRunInput where
  taskId := context.taskId
  runId
  taskRequest := context.taskRequest
  workspacePath
  mode := context.mode
  memoryAblation := context.memoryAblation
  sessionId := truthy context.sessionId
  restartedFromRunId := truthy (some context.runId)
  cursorInput := some (.executeAgent context.senderRoleId none (some replyDeliveryId))
  runIntent := some (.mailboxContinuation sourceDeliveryId)

/-! ## Which waits are listed -/

structure WaitsIn (record : TaskRecord) (context : TaskMailboxWaitContext)
    (run : PersistedRunState) : Prop where
  pending : pendingMailboxWait record.runtimeState =
    some (context.deliveryIds, context.waitingReason)
  waiting : waitingRunId record.runtimeState = some run.runId
  run_mem : run ∈ record.runs
  run_id : context.runId = run.runId
  owner : truthy record.task.ownerAgentId = some context.senderRoleId
  status : record.task.status ∈ [TaskStatus.running, .waitingHelp, .blocked]
  task : context.taskId = record.taskId
  request : context.taskRequest =
    { storedTaskRequest record.task with
      allowAgentCouncil := record.runtimeState.diagnostics.allowAgentCouncil }
  mode : context.mode = run.mode

theorem mem_listMailboxWaitContexts {store : CoordinationStore} {context : TaskMailboxWaitContext} :
    context ∈ listMailboxWaitContexts store ↔
      ∃ record ∈ store.tables.records, mailboxWaitContext? record.aggregate = some context := by
  simp only [listMailboxWaitContexts, List.mem_filterMap]
  constructor
  · rintro ⟨aggregate, hagg, hcontext⟩
    obtain ⟨record, hmem, rfl⟩ := mem_listTaskAggregates.mp hagg
    exact ⟨record, hmem, hcontext⟩
  · rintro ⟨record, hmem, hcontext⟩
    exact ⟨_, mem_listTaskAggregates.mpr ⟨record, hmem, rfl⟩, hcontext⟩

theorem mailboxWaitContext?_some {record : TaskRecord} {context : TaskMailboxWaitContext}
    (h : mailboxWaitContext? record.aggregate = some context) :
    ∃ run, WaitsIn record context run := by
  simp only [mailboxWaitContext?, Option.bind_eq_bind, Option.bind_eq_some_iff] at h
  obtain ⟨⟨ids, reason⟩, hpending, run, ⟨runId, hwaiting, hfound⟩, owner, howner, h⟩ := h
  split at h
  · next hstatus =>
      cases h
      have hid : run.runId = runId := Rows.lookup_key hfound
      exact ⟨run, hpending, hid ▸ hwaiting, Rows.lookup_mem hfound, rfl, howner, hstatus, rfl, rfl,
        rfl⟩
  · cases h

theorem mailboxWaitContext?_of_waiting {store : CoordinationStore} {record : TaskRecord}
    {run : PersistedRunState} {wait : List String × String} {senderRoleId : String}
    (hmem : record ∈ store.tables.records)
    (hpending : pendingMailboxWait record.runtimeState = some wait)
    (hwaiting : waitingRunId record.runtimeState = some run.runId) (hrun : run ∈ record.runs)
    (howner : truthy record.task.ownerAgentId = some senderRoleId)
    (hstatus : record.task.status ∈ [TaskStatus.running, .waitingHelp, .blocked]) :
    mailboxWaitContext? record.aggregate =
      some (mailboxWaitContext record.aggregate run senderRoleId wait) := by
  have hfound : record.aggregate.run? run.runId = some run :=
    (store.constraints.record_runs_distinct hmem).lookup_of_mem hrun
  simp only [mailboxWaitContext?, Option.bind_eq_bind, hpending, hwaiting, howner, hfound,
    Option.bind_some, hstatus, if_true]

/-! ## What a deadlock does to a wait -/

def SameWait (context context' : TaskMailboxWaitContext) : Prop :=
  context'.taskId = context.taskId ∧ context'.runId = context.runId ∧
    context'.deliveryIds = context.deliveryIds

/-- The deadlock of this Task was recorded before, or the Run that waits is its current one. -/
def KeepsWait (record : TaskRecord) (runId : String) : Prop :=
  (record.task.status = .blocked ∧
    record.task.error.map (·.code) = some collaborationDeadlockCode) ∨
      record.runtimeState.currentRunId = some runId

instance (record : TaskRecord) (runId : String) : Decidable (KeepsWait record runId) :=
  inferInstanceAs (Decidable ((_ ∧ _) ∨ _))

section
variable {bridges : Bridges π} {w w' : World π} {env : Env} {record : TaskRecord}
  {context : TaskMailboxWaitContext} {run : PersistedRunState} {reason : String}

theorem blockMailboxDeadlock_takesEffect {taskId : String}
    (hrec : w.store.record? taskId = some record)
    (h : TakesEffect bridges w ⟨env, .blockMailboxDeadlock taskId reason⟩ w') :
    (record.task.status = .blocked ∧
      record.task.error.map (·.code) = some collaborationDeadlockCode ∧ w' = w) ∨
    (¬ (record.task.status = .blocked ∧
        record.task.error.map (·.code) = some collaborationDeadlockCode) ∧
      ∃ runId, w'.store.record? taskId = some (recordAfter (some record)
        (blockMailboxDeadlockCommit env record.aggregate runId reason)
        w.store.tables.lastSequence)) := by
  have hagg := getTaskAggregate_of_record hrec
  have htask : record.task.taskId = taskId := record?_taskId hrec
  have hplans : ∀ planned, planBlockMailboxDeadlock (π := π) env taskId reason w.store =
      .ok planned → (record.task.status = .blocked ∧
        record.task.error.map (·.code) = some collaborationDeadlockCode ∧
          planned = .unchanged taskId) ∨
      (¬ (record.task.status = .blocked ∧
          record.task.error.map (·.code) = some collaborationDeadlockCode) ∧
        ∃ runId, planned = .commit
          { taskId, commit := blockMailboxDeadlockCommit env record.aggregate runId reason }) := by
    intro planned hplan
    simp only [planBlockMailboxDeadlock, requireTask, hagg, bind_eq_ok, orThrow_eq_ok] at hplan
    obtain ⟨_, heq, hplan⟩ := hplan
    cases heq
    split at hplan
    · next hcode =>
        cases hplan
        exact .inl ⟨hcode.1, hcode.2, rfl⟩
    · next hcode =>
        simp only [bind_eq_ok, pure_eq_ok] at hplan
        obtain ⟨_, _, runId, _, rfl⟩ := hplan
        exact .inr ⟨hcode, runId, rfl⟩
  rcases h.performed rfl with ⟨taskId', hplan, rfl⟩ | ⟨plan, committed, hplan, hstore⟩
  · rcases hplans _ hplan with ⟨hstatus, hcode, _⟩ | ⟨_, runId, heq⟩
    · exact .inl ⟨hstatus, hcode, rfl⟩
    · cases heq
  · rcases hplans _ hplan with ⟨_, _, heq⟩ | ⟨hcode, runId, heq⟩
    · cases heq
    · cases heq
      refine .inr ⟨hcode, runId, ?_⟩
      have hold : w.store.record? (blockMailboxDeadlockCommit env record.aggregate runId
          reason).task.taskId = some record := by
        show w.store.record? record.task.taskId = _
        rw [htask]
        exact hrec
      have hafter := record?_after hold hstore
      have hafter : w'.store.record? record.task.taskId = _ := hafter
      rw [htask] at hafter
      exact hafter

/-- After a deadlock the wait is still listed exactly when the deadlock was recorded before or
the waiting Run is the current one. -/
theorem listed_after_block (hmem : record ∈ w.store.tables.records)
    (hwaits : WaitsIn record context run)
    (h : TakesEffect bridges w ⟨env, .blockMailboxDeadlock record.taskId reason⟩ w') :
    (∃ context' ∈ listMailboxWaitContexts w'.store, SameWait context context') ↔
      KeepsWait record context.runId := by
  have hrec := record?_of_mem hmem
  rcases blockMailboxDeadlock_takesEffect hrec h with ⟨hstatus, hcode, rfl⟩ | ⟨hcode, runId, hafter⟩
  · refine iff_of_true ⟨_, mem_listMailboxWaitContexts.mpr ⟨record, hmem,
      mailboxWaitContext?_of_waiting hmem hwaits.pending hwaits.waiting hwaits.run_mem
        hwaits.owner hwaits.status⟩, ?_⟩ (.inl ⟨hstatus, hcode⟩)
    exact ⟨hwaits.task.symm, hwaits.run_id.symm, rfl⟩
  · set record' := recordAfter (some record)
      (blockMailboxDeadlockCommit env record.aggregate runId reason) w.store.tables.lastSequence
    have hmem' := record?_mem hafter
    have hstate : waitingRunId record'.runtimeState = truthy record.runtimeState.currentRunId := by
      show (truthy none <|> truthy (truthy record.runtimeState.currentRunId)) = _
      rw [truthy_truthy]
      rfl
    constructor
    · rintro ⟨context', hlisted, htask, hrunId, _⟩
      obtain ⟨owner, howner, hcontext⟩ := mem_listMailboxWaitContexts.mp hlisted
      obtain ⟨run', hwaits'⟩ := mailboxWaitContext?_some hcontext
      have hsame : owner = record' := by
        have hfound := record?_of_mem howner
        rw [← hwaits'.task, htask, hwaits.task, hafter] at hfound
        exact (Option.some.inj hfound).symm
      have hwaiting := hwaits'.waiting
      rw [hsame, hstate] at hwaiting
      refine .inr ((truthy_eq_some.mp hwaiting).1.trans ?_)
      rw [← hwaits'.run_id, hrunId]
    · rintro (hblocked | hcurrent)
      · exact absurd hblocked hcode
      · have hne : context.runId ≠ "" := by
          rw [hwaits.run_id]
          intro hempty
          exact waitingRunId_ne _ (hempty ▸ hwaits.waiting)
        have hruns : run ∈ record'.runs := hwaits.run_mem
        have howner : truthy record'.task.ownerAgentId = some context.senderRoleId := by
          show truthy (truthy record.task.ownerAgentId) = _
          rw [truthy_truthy, hwaits.owner]
        have hblocked : record'.task.status ∈ [TaskStatus.running, .waitingHelp, .blocked] :=
          .tail _ (.tail _ (.head _))
        refine ⟨_, mem_listMailboxWaitContexts.mpr ⟨record', hmem',
          mailboxWaitContext?_of_waiting hmem' hwaits.pending ?_ hruns howner hblocked⟩, ?_⟩
        · rw [hstate, hcurrent, truthy_of_ne hne, hwaits.run_id]
        · exact ⟨hwaits.task.symm, hwaits.run_id.symm, rfl⟩

end

/-! ## Continuing a listed wait -/

/-- The current Run of a Task is active, and the Run its interrupt state names is over. -/
structure WaitsOver (record : TaskRecord) : Prop where
  current : ∀ runId, record.runtimeState.currentRunId = some runId →
    ∃ run ∈ record.runs, run.runId = runId ∧ isActiveRun run = true
  interrupted : ∀ state ∈ record.runtimeState.interruptState, ∀ run ∈ record.runs,
    state.interruptedRunId = some run.runId → run.status = .completed ∨ run.status = .interrupted

section
variable {store after : CoordinationStore} {env : Env} {op : Operation}
  {old : Option TaskRecord} {input : CoordinationStateCommit} {last : Nat}

/-- What a commit does to the interrupt state: it drops the Run's id, names the Run it ends, or
carries the state over. -/
theorem TaskCommit.interruptState_eq (h : TaskCommit store env op old input) :
    (∀ state ∈ input.runtimeState.interruptState, state.interruptedRunId = none) ∨
      (∃ run, input.run = some run ∧ (run.status = .completed ∨ run.status = .interrupted) ∧
        ∀ state ∈ input.runtimeState.interruptState, state.interruptedRunId = some run.runId) ∨
      ∃ record, old = some record ∧
        input.runtimeState.interruptState = record.runtimeState.interruptState ∧
        ∀ w ∈ input.run, ∃ run ∈ record.runs, run.runId = w.runId ∧
          (w.status = run.status ∨ isActiveRun run = true) := by
  have touch : ∀ {record : TaskRecord} {run w : PersistedRunState}, run ∈ record.runs →
      w.runId = run.runId → (w.status = run.status ∨ isActiveRun run = true) →
      ∀ w' ∈ some w, ∃ run ∈ record.runs, run.runId = w'.runId ∧
        (w'.status = run.status ∨ isActiveRun run = true) := by
    intro record run w hmem hid hstatus w' hw'
    cases hw'
    exact ⟨run, hmem, hid.symm, hstatus⟩
  cases h with
  | beginNew | beginExisting =>
      refine .inl fun state hs => ?_
      cases hs
  | block | expire =>
      refine .inl fun state hs => ?_
      cases hs
      rfl
  | mailboxWait =>
      refine .inr (.inl ⟨_, rfl, .inl rfl, fun state hs => ?_⟩)
      cases hs
      rfl
  | interrupt hop =>
      refine .inr (.inl ⟨_, rfl, .inr rfl, fun state hs => ?_⟩)
      cases hs
      rcases hop with ⟨_, _, rfl⟩ | ⟨_, rfl⟩ <;> rfl
  | startStage hat => exact .inr (.inr ⟨_, rfl, rfl, touch hat.run_mem rfl (.inl rfl)⟩)
  | fail hat => exact .inr (.inr ⟨_, rfl, rfl, touch hat.run_mem rfl (.inr hat.active)⟩)
  | advance h =>
      refine .inr (.inr ⟨_, rfl, rfl, touch h.at_stage.run_mem ?_ (.inr h.at_stage.active)⟩)
      unfold advancedRun
      split <;> rfl
  | override howns => exact .inr (.inr ⟨_, rfl, rfl, touch howns.run_mem rfl (.inl rfl)⟩)
  | finish hacts hactive => exact .inr (.inr ⟨_, rfl, rfl, touch hacts.run_mem rfl (.inr hactive)⟩)
  | councilReceipt hop hacts | runEvent hacts | safepoint hop hacts =>
      exact .inr (.inr ⟨_, rfl, rfl, touch hacts.run_mem rfl (.inl rfl)⟩)
  | restore =>
      refine .inr (.inr ⟨_, rfl, rfl, fun w hw => ?_⟩)
      cases hw

/-- What a commit does to the current Run: it drops it, begins it, or keeps it going. -/
theorem TaskCommit.current_eq (h : TaskCommit store env op old input) :
    input.runtimeState.currentRunId = none ∨
      (∃ run, input.run = some run ∧ input.runtimeState.currentRunId = some run.runId ∧
        isActiveRun run = true) ∨
      ∃ record, old = some record ∧
        input.runtimeState.currentRunId = record.runtimeState.currentRunId ∧
        ∀ w ∈ input.run, ∃ run ∈ record.runs, run.runId = w.runId ∧
          isActiveRun w = isActiveRun run := by
  have touch : ∀ {record : TaskRecord} {run w : PersistedRunState}, run ∈ record.runs →
      w.runId = run.runId → w.status = run.status →
      ∀ w' ∈ some w, ∃ run ∈ record.runs, run.runId = w'.runId ∧ isActiveRun w' = isActiveRun run := by
    intro record run w hmem hid hstatus w' hw'
    cases hw'
    exact ⟨run, hmem, hid.symm, by simp [isActiveRun, hstatus]⟩
  cases h with
  | beginNew | beginExisting => exact .inr (.inl ⟨_, rfl, rfl, rfl⟩)
  | fail | mailboxWait | expire | interrupt | finish => exact .inl rfl
  | @advance request record run event nextInput h =>
      have howns := h.at_stage.toOwns
      by_cases hdone : nextInput.cursor = .done
      · exact .inl (if_pos hdone)
      · refine .inr (.inr ⟨_, rfl, ?_, touch howns.run_mem ?_ ?_⟩)
        · rw [howns.current, howns.run_id]
          exact if_neg hdone
        · simp [advancedRun, hdone]
        · simp [advancedRun, hdone]
  | startStage hat => exact .inr (.inr ⟨_, rfl, rfl, touch hat.run_mem rfl rfl⟩)
  | override howns => exact .inr (.inr ⟨_, rfl, rfl, touch howns.run_mem rfl rfl⟩)
  | councilReceipt hop hacts | runEvent hacts | safepoint hop hacts =>
      exact .inr (.inr ⟨_, rfl, rfl, touch hacts.run_mem rfl rfl⟩)
  | block | restore =>
      refine .inr (.inr ⟨_, rfl, rfl, fun w hw => ?_⟩)
      cases hw

theorem WaitsOver.of_commit (hc : TaskCommit store env op old input)
    (hkept : ∀ record ∈ old, WellKept record) (hI : ∀ record ∈ old, WaitsOver record) :
    WaitsOver (recordAfter old input last) := by
  have hold := hc.old_eq
  constructor
  · intro runId hcurrent
    rw [recordAfter_runtimeState] at hcurrent
    have hcurrent : truthy input.runtimeState.currentRunId = some runId := hcurrent
    have hcurrent := (truthy_eq_some.mp hcurrent).1
    rcases hc.current_eq with hnone | ⟨run, hrun, hsome, hactive⟩ | ⟨record, rfl, hsame, hrun⟩
    · rw [hnone] at hcurrent
      cases hcurrent
    · rw [hsome] at hcurrent
      cases hcurrent
      exact ⟨readRun run, (mem_recordAfter_runs hold).mpr (.inl ⟨run, hrun, rfl⟩), rfl, hactive⟩
    · obtain ⟨run, hmem, hid, hactive⟩ := (hI record rfl).current runId (hsame ▸ hcurrent)
      by_cases hwritten : ∃ w ∈ input.run, w.runId = run.runId
      · obtain ⟨w, hw, hwid⟩ := hwritten
        obtain ⟨run', hmem', hid', heq⟩ := hrun w hw
        have hrec := record?_mem hold
        have : run' = run := (store.constraints.record_runs_distinct hrec).eq_of_key hmem' hmem
          (hid'.trans hwid)
        exact ⟨readRun w, (mem_recordAfter_runs hold).mpr (.inl ⟨w, hw, rfl⟩), hwid.trans hid,
          heq.trans (this ▸ hactive)⟩
      · refine ⟨run, (mem_recordAfter_runs hold).mpr (.inr ⟨hmem, ?_⟩), hid, hactive⟩
        intro w hw heq
        exact hwritten ⟨w, hw, heq.symm⟩
  · intro state hstate x hx hid
    rw [recordAfter_runtimeState] at hstate
    have hstate : state ∈ input.runtimeState.interruptState := hstate
    rcases hc.interruptState_eq with hnone | ⟨run, hrun, hover, hnames⟩ | ⟨record, rfl, hsame, hrun⟩
    · rw [hnone state hstate] at hid
      cases hid
    · have hxid : x.runId = run.runId := Option.some.inj (hid.symm.trans (hnames state hstate))
      rcases (mem_recordAfter_runs hold).mp hx with ⟨w, hw, rfl⟩ | ⟨_, hne⟩
      · rw [hrun] at hw
        cases hw
        exact hover
      · exact absurd hxid (hne run hrun)
    · rw [hsame] at hstate
      rcases (mem_recordAfter_runs hold).mp hx with ⟨w, hw, rfl⟩ | ⟨hxold, _⟩
      · obtain ⟨run, hmem, hrunId, hstatus⟩ := hrun w hw
        have hover := (hI record rfl).interrupted state hstate run hmem (by rw [hid, hrunId]; rfl)
        rcases hstatus with hstatus | hactive
        · show w.status = _ ∨ w.status = _
          rwa [hstatus]
        · -- a Run that is over is not the one a commit ends
          rcases hover with hover | hover <;> simp [isActiveRun, hover] at hactive
      · exact (hI record rfl).interrupted state hstate x hxold hid

theorem waitsOver_step (h : StoreStep op env store after) (hkept : Everywhere WellKept store)
    (hI : Everywhere WaitsOver store) : Everywhere WaitsOver after := by
  refine hI.step h (fun k old input hc _ => ?_) (fun record gone hr hgone => ?_)
  · have hmem : ∀ record ∈ old, record ∈ store.tables.records := fun record hr =>
      record?_mem (hr ▸ hc.old_eq)
    exact .of_commit hc (fun r hr => hkept r (hmem r hr)) fun r hr => hI r (hmem r hr)
  · refine ⟨fun runId hcurrent => ?_, hr.interrupted⟩
    exact hr.current runId (Option.filter_eq_some_iff.mp hcurrent).1

end

structure Replies (env : Env) (record : TaskRecord) (context : TaskMailboxWaitContext)
    (request : BeginTaskRunInput) (sourceDeliveryId replyDeliveryId : String) : Prop where
  awaited : sourceDeliveryId ∈ context.deliveryIds
  named : replyDeliveryId ≠ ""
  stored : ∃ mailbox source reply, env.mailboxStore = some mailbox ∧
    mailbox.getMailboxEnvelope sourceDeliveryId = some source ∧
    mailbox.getMailboxEnvelope replyDeliveryId = some reply ∧
    ReplyMatches record.aggregate request source reply

section
variable {env : Env} {store : CoordinationStore} {record : TaskRecord}
  {context : TaskMailboxWaitContext} {run : PersistedRunState}
  {runId workspacePath sourceDeliveryId replyDeliveryId : String}

/-- A listed wait that is over can be continued: every check of `beginRun` passes. -/
theorem planBeginRun_continuation (hmem : record ∈ store.tables.records)
    (hkept : WellKept record) (hover : WaitsOver record) (hwaits : WaitsIn record context run)
    (hblocked : record.task.status = .blocked) (hidle : record.activeRuns = [])
    (hreply : Replies env record context (continuationRequest context runId workspacePath
      sourceDeliveryId replyDeliveryId) sourceDeliveryId replyDeliveryId) :
    ∃ plan, planBeginRun (π := π) env (continuationRequest context runId workspacePath
      sourceDeliveryId replyDeliveryId) store = .ok (.commit plan) := by
  set request := continuationRequest context runId workspacePath sourceDeliveryId replyDeliveryId
  have hagg : store.getTaskAggregate request.taskId = some record.aggregate := by
    show store.getTaskAggregate context.taskId = _
    rw [hwaits.task]
    exact getTaskAggregate_of_record (record?_of_mem hmem)
  -- the Run that waits is not the current one, so the interrupt state names it
  have hstatus : run.status = .completed ∨ run.status = .interrupted := by
    have hwaiting := hwaits.waiting
    unfold waitingRunId at hwaiting
    cases hnamed : truthy (record.runtimeState.interruptState.bind (·.interruptedRunId)) with
    | none =>
        rw [hnamed] at hwaiting
        obtain ⟨x, hx, _, hactive⟩ := hover.current _ (truthy_eq_some.mp hwaiting).1
        rw [activeRuns_eq_nil.mp hidle x hx] at hactive
        cases hactive
    | some id =>
        rw [hnamed] at hwaiting
        cases hwaiting
        obtain ⟨state, hstate, hid⟩ := Option.bind_eq_some_iff.mp (truthy_eq_some.mp hnamed).1
        exact hover.interrupted state hstate run hwaits.run_mem hid
  have hrunNe : run.runId ≠ "" := fun he => waitingRunId_ne _ (he ▸ hwaits.waiting)
  have hsource : truthy (some context.runId) = some run.runId := by
    rw [hwaits.run_id]
    exact truthy_of_ne hrunNe
  have hfound : record.aggregate.run? run.runId = some run :=
    (store.constraints.record_runs_distinct hmem).lookup_of_mem hwaits.run_mem
  obtain ⟨howner, hownerNe⟩ := truthy_eq_some.mp hwaits.owner
  obtain ⟨mailbox, source, reply, hmailbox, hsourceEnv, hreplyEnv, hmatches⟩ := hreply.stored
  have hwf : request.initialCursorInput.WellFormed :=
    ⟨nofun, fun he => hreply.named (Option.some.inj he), hownerNe⟩
  have hdelivered : record.runtimeState.cursorInput.bind TaskCursorInput.deliveryIds? =
      some context.deliveryIds := by
    have hpending := hwaits.pending
    unfold pendingMailboxWait at hpending
    split at hpending
    · next ids why hcursor =>
        split at hpending
        · cases hpending
        · rw [hcursor]
          cases hpending
          rfl
    · cases hpending
  have hintent : assertMailboxContinuationIntent record.aggregate request
      request.initialCursorInput sourceDeliveryId env.mailboxStore = .ok () := by
    refine bind_eq_ok.mpr ⟨(), assertTaskRunStartTransition_eq_ok.mpr (.inr hblocked),
      bind_eq_ok.mpr ⟨(), ensure_eq_ok.mpr ⟨_, hdelivered, hreply.awaited⟩, ?_⟩⟩
    refine bind_eq_ok.mpr ⟨replyDeliveryId, orThrow_eq_ok.mpr ?_, bind_eq_ok.mpr
      ⟨run, orThrow_eq_ok.mpr ?_, bind_eq_ok.mpr ⟨(), ensure_eq_ok.mpr hwaits.mode, bind_eq_ok.mpr
      ⟨(), ensure_eq_ok.mpr ⟨rfl, rfl⟩, ?_⟩⟩⟩⟩
    · show (if some context.senderRoleId = record.task.ownerAgentId then _ else _) = _
      rw [howner, if_pos rfl]
      exact truthy_of_ne hreply.named
    · refine Option.filter_eq_some_iff.mpr ⟨?_, decide_eq_true hstatus⟩
      show ((truthy (truthy (some context.runId))).bind _) = _
      rw [truthy_truthy, hsource]
      exact hfound
    · rw [hmailbox]
      refine bind_eq_ok.mpr ⟨source, ?_, bind_eq_ok.mpr ⟨reply, ?_, ensure_eq_ok.mpr hmatches⟩⟩
      · exact bind_eq_ok.mpr ⟨mailbox, rfl, orThrow_eq_ok.mpr hsourceEnv⟩
      · exact bind_eq_ok.mpr ⟨mailbox, rfl, orThrow_eq_ok.mpr hreplyEnv⟩
  have hdefinition : assertImmutableTaskDefinition record.task request.taskRequest
      record.task.workspacePath = .ok () := by
    refine ensure_eq_ok.mpr ?_
    show record.task.spec = context.taskRequest.spec ∧ _
    rw [show request.taskRequest = context.taskRequest from rfl, hwaits.request]
    exact ⟨rfl, rfl, hkept.parent.symm, hkept.role.symm, rfl, rfl, rfl, rfl⟩
  simp only [planBeginRun, hagg, bind_eq_ok, pure_eq_ok, ensure_eq_ok, forM_eq_ok]
  refine ⟨_, (), ?_, (), ?_, (), ?_, rfl⟩
  · intro aggregate ha
    cases ha
    refine Option.isNone_iff_eq_none.mpr (List.find?_eq_none.mpr fun x hx => ?_)
    simpa using activeRuns_eq_nil.mp hidle x hx
  · intro aggregate ha
    rw [Option.toList_some, List.mem_singleton] at ha
    subst ha
    exact hdefinition
  · exact bind_eq_ok.mpr ⟨_, parseTaskCursorInput_of_wellFormed hwf, hintent⟩

end

/-! ## Runs of calls -/

/-- In every state that calls, each cut anywhere, can leave: after a deadlock was reported on a
listed wait, the wait is still listed exactly when the deadlock was recorded before or the
Run that waits is the current one; and a wait that is listed then, with no Run of its Task
active, is continued by every matching reply. -/
theorem deadlock_keeps_wait (bridges : Bridges π) {w₀ w w' : World π} {calls : List Call}
    (hw : Initial w₀) (h : Runs.Steps (Cut bridges) w₀ calls w) {record : TaskRecord}
    {context : TaskMailboxWaitContext} (hmem : record ∈ w.store.tables.records)
    (hlisted : mailboxWaitContext? record.aggregate = some context) {env : Env} {reason : String}
    (hblock : TakesEffect bridges w ⟨env, .blockMailboxDeadlock record.taskId reason⟩ w') :
    ((∃ context' ∈ listMailboxWaitContexts w'.store, SameWait context context') ↔
      KeepsWait record context.runId) ∧
    ∀ record' ∈ w'.store.tables.records, ∀ context',
      mailboxWaitContext? record'.aggregate = some context' → SameWait context context' →
      record'.activeRuns = [] → ∀ env' runId workspacePath sourceDeliveryId replyDeliveryId,
        Replies env' record' context' (continuationRequest context' runId workspacePath
          sourceDeliveryId replyDeliveryId) sourceDeliveryId replyDeliveryId →
        ∃ plan, planBeginRun (π := π) env' (continuationRequest context' runId workspacePath
          sourceDeliveryId replyDeliveryId) w'.store = .ok (.commit plan) := by
  have hafter : Runs.Steps (Cut bridges) w₀
      (calls ++ [⟨env, .blockMailboxDeadlock record.taskId reason⟩]) w' := .snoc h hblock.cut
  have hinv := invariant_of_steps (fun _ _ => True)
    (I := fun s => Everywhere WellKept s ∧ Everywhere WaitsOver s) (fun _ _ _ hab => hab)
    ⟨fun _ hm => (by cases hm), fun _ hm => (by cases hm)⟩
    (fun c a b hI _ hstep => ⟨⟨wellKept_step hstep hI.1, waitsOver_step hstep hI.1 hI.2⟩,
      trivial⟩) hw (hafter.mono fun _ _ _ hab => ⟨trivial, hab⟩)
  obtain ⟨run, hwaits⟩ := mailboxWaitContext?_some hlisted
  refine ⟨listed_after_block hmem hwaits hblock, ?_⟩
  intro record' hmem' context' hlisted' hsame hidle env' runId workspacePath sourceDeliveryId
    replyDeliveryId hreply
  obtain ⟨run', hwaits'⟩ := mailboxWaitContext?_some hlisted'
  have hrec' := record?_of_mem hmem'
  rw [← hwaits'.task, hsame.1, hwaits.task] at hrec'
  have hblocked : record'.task.status = .blocked := by
    rcases blockMailboxDeadlock_takesEffect (record?_of_mem hmem) hblock with
      ⟨hstatus, _, rfl⟩ | ⟨_, runId, hwritten⟩
    · rw [record?_of_mem hmem] at hrec'
      cases hrec'
      exact hstatus
    · rw [hwritten] at hrec'
      cases hrec'
      rfl
  exact planBeginRun_continuation hmem' (hinv.1 record' hmem') (hinv.2 record' hmem') hwaits'
    hblocked hidle hreply

/-- Agent `a` of Run `r` waits for delivery `d`. -/
def waitingRun : List Call :=
  [⟨stoppedEnv '1', .beginRun createRequest⟩,
   startCall '2' "r" .selectAgent,
   advanceCall '3' "r" .selectAgent (.executeAgent "a" none none) none,
   startCall '4' "r" .executeAgent,
   advanceCall '5' "r" .executeAgent (.mailboxWait ["d"] "reply") none]

/-- A wait whose deadlock was recorded while its Run was active, and interrupted since, is
listed after another deadlock. -/
theorem deadlock_keeps_wait_again : ∃ w w' : World Unit,
    ∃ record ∈ w.store.tables.records, ∃ context,
      mailboxWaitContext? record.aggregate = some context ∧
      Returns {} w ⟨stoppedEnv '8', .blockMailboxDeadlock record.taskId "again"⟩ w' ∧
      ∃ context' ∈ listMailboxWaitContexts w'.store, SameWait context context' := by
  obtain ⟨w, hrun, record, hmem, hlisted, hkeeps, hblock⟩ := exists_run {} emptyWorld
    (waitingRun ++ [⟨stoppedEnv '6', .blockMailboxDeadlock "t" "deadlock"⟩,
      ⟨stoppedEnv '7', .interruptRun "r" { reason := "stop", source := .user }⟩])
    (P := fun w => ∃ record ∈ w.store.tables.records,
      (mailboxWaitContext? record.aggregate).isSome = true ∧
      (∀ context ∈ mailboxWaitContext? record.aggregate, KeepsWait record context.runId) ∧
      (nextWorld (fun _ _ => True) {} w
        ⟨stoppedEnv '8', .blockMailboxDeadlock record.taskId "again"⟩).isSome = true) (by decide)
  obtain ⟨context, hlisted⟩ := Option.isSome_iff_exists.mp hlisted
  obtain ⟨w', hblock⟩ := Option.isSome_iff_exists.mp hblock
  have hreturns := (nextWorld_step _ hblock).2
  have hinit : Initial emptyWorld := rfl
  have hwait := deadlock_keeps_wait {} hinit (hrun.mono fun _ _ _ hab => hab.cut) hmem hlisted
    (.inl hreturns)
  exact ⟨w, w', record, hmem, context, hlisted, hreturns, hwait.1.mpr (hkeeps context hlisted)⟩

/-- A Task that waits for help is listed with its Run, and after a deadlock it is not. -/
theorem deadlock_loses_wait : ∃ w w' : World Unit,
    Runs.Steps (Returns {}) emptyWorld
      (waitingRun ++ [⟨stoppedEnv '6', .completeRunForMailboxWait "r"⟩]) w ∧
    (∃ record ∈ w.store.tables.records, record.task.status = .waitingHelp ∧
      ∃ context ∈ listMailboxWaitContexts w.store, context.taskId = "t" ∧
        context.runId = "r" ∧ context.deliveryIds = ["d"]) ∧
    Returns {} w ⟨stoppedEnv '7', .blockMailboxDeadlock "t" "deadlock"⟩ w' ∧
    listMailboxWaitContexts w'.store = [] := by
  obtain ⟨w, hrun, hlisted, w', hblock, hnil⟩ := exists_run {} emptyWorld
    (waitingRun ++ [⟨stoppedEnv '6', .completeRunForMailboxWait "r"⟩])
    (P := fun w => (∃ record ∈ w.store.tables.records, record.task.status = .waitingHelp ∧
      ∃ context ∈ listMailboxWaitContexts w.store, context.taskId = "t" ∧
        context.runId = "r" ∧ context.deliveryIds = ["d"]) ∧
      ∃ w' ∈ nextWorld (fun _ _ => True) {} w
          ⟨stoppedEnv '7', .blockMailboxDeadlock "t" "deadlock"⟩,
        (listMailboxWaitContexts w'.store).isEmpty = true) (by decide)
  exact ⟨w, w', hrun, hlisted, (nextWorld_step _ hblock).2, List.isEmpty_iff.mp hnil⟩

end Newide
