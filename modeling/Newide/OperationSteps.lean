import Newide.CommitSteps

/-!
# Operations as chains of commits

Every planning function produces a `TaskCommit` of its operation, and
every operation is a chain of such commits, of bridge-only transactions
and, for `deleteTask`, of a deletion.  `exec_chain` is the one fact the
invariants use about operations: it covers calls that return, calls that
throw, and calls cut at a commit boundary.
-/

namespace Newide

open Fallible CoordinationStore World Env

variable {π : Type}

theorem Env.shift_zero (env : Env) : env.shift 0 = env := by
  simp [shift]

theorem Env.shift_shift (env : Env) (a b : Nat) : (env.shift a).shift b = env.shift (a + b) := by
  simp [shift, Nat.add_assoc]

/-! ## What the plans commit -/

variable {input : AdvanceTaskStageInput} {runId : String} {record : TaskRecord}

variable {admission : SapExecutionAdmission} {dispatch : SapExecuteDispatch}
  {participantId reason taskId : String} {result : SapResultFrame} {run : PersistedRunState}
  {commits : List (World π)} {k : Nat} {aggregates : List PersistedTaskAggregate}

section
variable {bridges : Bridges π} {env : Env} {store : CoordinationStore} {plan : Plan π}

theorem planBeginRun_commit {input : BeginTaskRunInput}
    (h : planBeginRun env input store = .ok (.commit plan)) :
    (∃ old, TaskCommit store env (.beginRun input) old plan.commit) ∧ plan.taskId = input.taskId := by
  simp only [planBeginRun, bind_eq_ok, ensure_eq_ok, forM_eq_ok, pure_eq_ok,
    assertBeginRunIntent, parseTaskCursorInput_eq_ok] at h
  obtain ⟨_, hidle, _, hdef, _, ⟨_, ⟨hwf, _⟩, hintent⟩, hplan⟩ := h
  cases hplan
  refine ⟨?_, rfl⟩
  cases hrec : store.record? input.taskId with
  | none =>
      have hex : store.getTaskAggregate input.taskId = none := by
        simp [getTaskAggregate, Tables.getTaskAggregate,
          show store.tables.record? input.taskId = none from hrec]
      simp only [hex, bind_eq_ok, ensure_eq_ok, assertCreateIntent, exists_and_left,
        exists_const] at hintent
      rw [hex]
      exact ⟨_, .beginNew hrec hintent.1 hwf hintent.2.2.1⟩
  | some record =>
      have hex : store.getTaskAggregate input.taskId = some record.aggregate := by
        simp [getTaskAggregate, Tables.getTaskAggregate,
          show store.tables.record? input.taskId = some record from hrec]
      rw [hex] at hidle hdef hintent ⊢
      refine ⟨_, .beginExisting hrec ?_ (hdef _ (by simp)) hwf hintent⟩
      have hnone := hidle _ rfl
      rw [Option.isNone_iff_eq_none] at hnone
      exact List.filter_eq_nil_iff.mpr (List.find?_eq_none.mp hnone)

theorem planStartStage_commit {input : StartTaskStageInput}
    (h : planStartStage bridges env input store = .ok (.commit plan)) :
    ∃ old, TaskCommit store env (.startStage input) old plan.commit := by
  simp only [planStartStage, bind_eq_ok, ensure_eq_ok, pure_eq_ok,
    assertActiveStageTarget_eq_ok] at h
  obtain ⟨aggregate, hagg, run, hrun, _, ⟨⟨hactive, hrunning, hcurrent⟩, hcursor, hinput⟩, active,
    hread, _, hnone, _, hevent, hplan⟩ := h
  obtain ⟨record, hmem, rfl⟩ := requireAggregateForRun_ok hagg
  obtain ⟨hrmem, hrid⟩ := requireRun_ok hrun
  cases hplan
  refine ⟨_, .startStage ⟨⟨⟨hmem, hrmem, hrid⟩, hactive, hrunning, hcurrent⟩, hcursor, hinput⟩ ?_
    (assertStageEvent_ok hevent)⟩
  rw [readActiveStage_eq_ok] at hread
  cases hs : record.runtimeState.diagnostics.activeStage with
  | none => rfl
  | some stage =>
      rw [hs] at hread
      rw [hread.2] at hnone
      cases hnone

theorem requireCouncilStage_ok {what : String} {stage : ActiveStage}
    (h : requireCouncilStage record.aggregate what runId = .ok stage) :
    InStage record stage .council stage.invocationId := by
  simp only [requireCouncilStage, bind_eq_ok, ensure_eq_ok, orThrow_eq_ok,
    readActiveStage_eq_ok] at h
  obtain ⟨active, hread, _, hcouncil, hstage⟩ := h
  rw [hstage] at hread
  rw [hread.2] at hcouncil
  exact ⟨hstage, Option.some.inj hcouncil, rfl, hread.1⟩

theorem planCouncilSapDispatch_commit
    (h : planCouncilSapDispatch bridges env runId dispatch store = .ok (.commit plan)) :
    ∃ old, TaskCommit store env (.recordCouncilSapDispatch runId dispatch) old plan.commit := by
  simp only [planCouncilSapDispatch, bind_eq_ok] at h
  obtain ⟨aggregate, hagg, run, hrun, stage, hstage, h⟩ := h
  obtain ⟨record, hmem, rfl⟩ := requireAggregateForRun_ok hagg
  obtain ⟨hrmem, hrid⟩ := requireRun_ok hrun
  split at h
  · cases h
  · cases h
    exact ⟨_, .councilReceipt rfl ⟨hmem, hrmem, hrid⟩ (requireCouncilStage_ok hstage)
      ⟨rfl, rfl, rfl⟩ (by simp only [createEvent]; decide)⟩

theorem planCouncilSapResult_commit {phase : String}
    (h : planCouncilSapResult bridges env runId admission result phase participantId store =
      .ok (.commit plan)) :
    ∃ old, TaskCommit store env (.recordCouncilSapResult runId admission result phase participantId) old
      plan.commit := by
  simp only [planCouncilSapResult, bind_eq_ok] at h
  obtain ⟨aggregate, hagg, run, hrun, stage, hstage, h⟩ := h
  obtain ⟨record, hmem, rfl⟩ := requireAggregateForRun_ok hagg
  obtain ⟨hrmem, hrid⟩ := requireRun_ok hrun
  split at h
  · cases h
  · cases h
    exact ⟨_, .councilReceipt rfl ⟨hmem, hrmem, hrid⟩ (requireCouncilStage_ok hstage)
      ⟨rfl, rfl, rfl⟩ (by simp only [createEvent]; decide)⟩

theorem planAdvanceStage_commit {nextInput : TaskCursorInput}
    (h : planAdvanceStage bridges env input store = .ok (plan, nextInput)) :
    ∃ record run event, Advances store record run input nextInput event ∧
      plan.taskId = record.taskId ∧
      plan.commit = advanceStageCommit env record.aggregate run input nextInput event := by
  simp only [planAdvanceStage, bind_eq_ok, ensure_eq_ok, pure_eq_ok, assertCursorTransition,
    assertActiveStageTarget_eq_ok, parseTaskCursorInput_eq_ok] at h
  obtain ⟨aggregate, hagg, run, hrun, _, ⟨⟨hactive, hrunning, hcurrent⟩, hcursor, hinput⟩, _,
    hinv, _, _, raw, hnext, next, ⟨hwf, hraw⟩, _, htrans, _, hident, _, _, _, _, _, hevent, _, _,
    _, _, dispatch, _, hplan⟩ := h
  obtain ⟨record, hmem, rfl⟩ := requireAggregateForRun_ok hagg
  obtain ⟨hrmem, hrid⟩ := requireRun_ok hrun
  cases hraw
  cases hplan
  refine ⟨record, run, _, ?_, rfl, rfl⟩
  exact ⟨⟨⟨⟨hmem, hrmem, hrid⟩, hactive, hrunning, hcurrent⟩, hcursor, hinput⟩,
    assertInvocation_ok hinv, hnext, hwf, htrans, hident, assertStageEvent_ok hevent⟩

theorem planFailStage_commit {input : FailTaskStageInput}
    (h : planFailStage bridges env input store = .ok (.commit plan)) :
    ∃ old, TaskCommit store env (.failStage input) old plan.commit := by
  simp only [planFailStage, bind_eq_ok, pure_eq_ok, assertActiveStageTarget_eq_ok] at h
  obtain ⟨aggregate, hagg, run, hrun, _, ⟨⟨hactive, hrunning, hcurrent⟩, hcursor, hinput⟩, _,
    hinv, _, _, _, _, _, hevent, hplan⟩ := h
  obtain ⟨record, hmem, rfl⟩ := requireAggregateForRun_ok hagg
  obtain ⟨hrmem, hrid⟩ := requireRun_ok hrun
  obtain ⟨stage, hin⟩ := assertInvocation_ok hinv
  cases hplan
  exact ⟨_, .fail ⟨⟨⟨hmem, hrmem, hrid⟩, hactive, hrunning, hcurrent⟩, hcursor, hinput⟩ hin
    (assertStageEvent_ok hevent)⟩

theorem planSetCouncilOverride_commit
    (h : planSetCouncilOverride env runId store = .ok (.commit plan)) :
    ∃ old, TaskCommit store env (.setCouncilOverride runId) old plan.commit := by
  simp only [planSetCouncilOverride, bind_eq_ok, ensure_eq_ok,
    assertActiveRunOwnership_eq_ok] at h
  obtain ⟨aggregate, hagg, run, hrun, _, ⟨hactive, hrunning, hcurrent⟩, _, hcursor, h⟩ := h
  obtain ⟨record, hmem, rfl⟩ := requireAggregateForRun_ok hagg
  obtain ⟨hrmem, hrid⟩ := requireRun_ok hrun
  split at h
  · cases h
  · next hoff =>
      cases h
      exact ⟨_, .override ⟨⟨hmem, hrmem, hrid⟩, hactive, hrunning, hcurrent⟩ hcursor
        (by simpa using hoff)⟩

theorem planRecordRunEvent_commit {event : Event}
    (h : planRecordRunEvent env runId event store = .ok (.commit plan)) :
    ∃ old, TaskCommit store env (.recordRunEvent runId event) old plan.commit := by
  simp only [planRecordRunEvent, bind_eq_ok] at h
  obtain ⟨aggregate, hagg, h⟩ := h
  obtain ⟨record, hmem, rfl⟩ := requireAggregateForRun_ok hagg
  split at h
  · cases h
  · simp only [bind_eq_ok, ensure_eq_ok, pure_eq_ok] at h
    obtain ⟨run, hrun, _, hactive, _, ⟨htask, hrunId⟩, _, _, hplan⟩ := h
    obtain ⟨hrmem, hrid⟩ := requireRun_ok hrun
    cases hplan
    exact ⟨_, .runEvent ⟨hmem, hrmem, hrid⟩ hactive htask hrunId⟩

theorem planCompleteRunForMailboxWait_commit
    (h : planCompleteRunForMailboxWait env runId store = .ok (.commit plan)) :
    ∃ old, TaskCommit store env (.completeRunForMailboxWait runId) old plan.commit := by
  simp only [planCompleteRunForMailboxWait, bind_eq_ok, pure_eq_ok, orThrow_eq_ok,
    assertActiveRunOwnership_eq_ok] at h
  obtain ⟨aggregate, hagg, run, hrun, _, ⟨hactive, hrunning, hcurrent⟩, ⟨deliveryIds, reason⟩,
    hwait, _, _, hplan⟩ := h
  obtain ⟨record, hmem, rfl⟩ := requireAggregateForRun_ok hagg
  obtain ⟨hrmem, hrid⟩ := requireRun_ok hrun
  cases hplan
  exact ⟨_, .mailboxWait ⟨⟨hmem, hrmem, hrid⟩, hactive, hrunning, hcurrent⟩ hwait⟩

theorem planBlockMailboxDeadlock_commit
    (h : planBlockMailboxDeadlock env taskId reason store = .ok (.commit plan)) :
    ∃ old, TaskCommit store env (.blockMailboxDeadlock taskId reason) old plan.commit := by
  simp only [planBlockMailboxDeadlock, bind_eq_ok] at h
  obtain ⟨aggregate, hagg, h⟩ := h
  obtain ⟨record, hrec, rfl⟩ := requireTask_ok hagg
  split at h
  · cases h
  · simp only [bind_eq_ok, pure_eq_ok, assertTaskStatusTransition_eq_ok] at h
    obtain ⟨_, htrans, runId, hrun, hplan⟩ := h
    cases hplan
    exact ⟨_, .block hrec htrans hrun⟩

theorem planExpireMailboxWait_commit
    (h : planExpireMailboxWait env taskId reason store = .ok (.commit plan)) :
    ∃ old, TaskCommit store env (.expireMailboxWait taskId reason) old plan.commit := by
  simp only [planExpireMailboxWait, bind_eq_ok] at h
  obtain ⟨aggregate, hagg, h⟩ := h
  obtain ⟨record, hrec, rfl⟩ := requireTask_ok hagg
  split at h
  · cases h
  · simp only [bind_eq_ok, pure_eq_ok, assertTaskStatusTransition_eq_ok] at h
    obtain ⟨_, htrans, runId, hrun, hplan⟩ := h
    cases hplan
    exact ⟨_, .expire hrec htrans hrun⟩

theorem planInterrupt_commit {op : Operation} {input : InterruptRunInput}
    (hop : op.interrupts run.runId input) (hacts : ActsOn store record run run.runId)
    (hactive : isActiveRun run = true)
    (h : planInterrupt env record.aggregate run input store = .ok (.commit plan)) :
    ∃ old, TaskCommit store env op old plan.commit := by
  simp only [planInterrupt, bind_eq_ok, pure_eq_ok, assertTaskStatusTransition_eq_ok] at h
  obtain ⟨_, htrans, hplan⟩ := h
  cases hplan
  exact ⟨_, .interrupt hop hacts hactive htrans⟩

theorem planInterruptRun_commit {request : TaskInterruptRequest}
    (h : planInterruptRun env runId request store = .ok (.commit plan)) :
    ∃ old, TaskCommit store env (.interruptRun runId request) old plan.commit := by
  simp only [planInterruptRun, bind_eq_ok] at h
  obtain ⟨aggregate, hagg, run, hrun, h⟩ := h
  obtain ⟨record, hmem, rfl⟩ := requireAggregateForRun_ok hagg
  obtain ⟨hrmem, hrid⟩ := requireRun_ok hrun
  split at h
  · next hactive =>
      refine planInterrupt_commit (.inl ⟨request, ?_, rfl⟩) ⟨hmem, hrmem, rfl⟩ hactive h
      rw [hrid]
  · cases h

theorem planRecoverInterruptedTask_commit (hmem : record ∈ store.tables.records)
    (h : planRecoverInterruptedTask env record.aggregate store = .ok (.commit plan)) :
    ∃ old, TaskCommit store env .recoverInterruptedTasks old plan.commit := by
  unfold planRecoverInterruptedTask at h
  split at h
  · cases h
  · next run hrun =>
      exact planInterrupt_commit (.inr ⟨rfl, rfl⟩) ⟨hmem, List.mem_of_find?_eq_some hrun, rfl⟩
        (by simpa using List.find?_some hrun) h

theorem planFinishRun_commit {input : FinishTaskRunInput} {protocol : π}
    (h : planFinishRun bridges env input protocol store = .ok (.commit plan)) :
    ∃ old, TaskCommit store env (.finishRun input) old plan.commit := by
  simp only [planFinishRun, bind_eq_ok] at h
  obtain ⟨aggregate, hagg, run, hrun, h⟩ := h
  obtain ⟨record, hmem, rfl⟩ := requireAggregateForRun_ok hagg
  obtain ⟨hrmem, hrid⟩ := requireRun_ok hrun
  split at h
  · next hactive =>
      simp only [bind_eq_ok, pure_eq_ok, assertTaskStatusTransition_eq_ok] at h
      obtain ⟨_, htrans, _, _, hplan⟩ := h
      cases hplan
      exact ⟨_, .finish ⟨hmem, hrmem, hrid⟩ hactive htrans⟩
  · simp only [bind_eq_ok, pure_eq_ok] at h
    obtain ⟨_, _, hplan⟩ := h
    cases hplan

end

/-! ## One transaction -/

inductive StoreStep (op : Operation) (env : Env) (store : CoordinationStore) :
    CoordinationStore → Prop where
  | commit {k : Nat} {old : Option TaskRecord} {input : CoordinationStateCommit}
      {after : CoordinationStore} {committed : List PersistedCoordinationEvent}
      (hcommit : TaskCommit store (env.shift k) op old input)
      (hstore : store.commitState input = .ok (committed, after)) : StoreStep op env store after
  | delete {taskId : String} {after : CoordinationStore} (hop : op = .deleteTask taskId)
      (hstore : store.deleteTask taskId = .ok after) : StoreStep op env store after
  | protocol : StoreStep op env store store

/-- The stores an operation passes through, from the one it is called on. -/
def StoreChain (op : Operation) (env : Env) (store : CoordinationStore)
    (commits : List (World π)) : Prop :=
  List.IsChain (StoreStep op env) (store :: commits.map (·.store))

variable {bridges : Bridges π} {env : Env} {op : Operation} {w w' : World π}

variable {committed : List PersistedCoordinationEvent}

theorem World.commit_store {plan : Plan π} (h : w.commit plan = .ok (committed, w')) :
    w.store.commitState plan.commit = .ok (committed, w'.store) := by
  simp only [commit, bind_eq_ok, pure_eq_ok] at h
  obtain ⟨_, _, ⟨written, store⟩, hstore, _, _, hw⟩ := h
  cases hw
  exact hstore

theorem World.commit_storeOnly {input : CoordinationStateCommit} {after : CoordinationStore}
    (h : w.store.commitState input = .ok (committed, after)) :
    w.commit { taskId, commit := input } = .ok (committed, { w with store := after }) := by
  simp only [commit, bind_eq_ok, pure_eq_ok]
  exact ⟨(), rfl, _, h, w.protocol, rfl, rfl⟩

namespace StoreChain

theorem nil {store : CoordinationStore} : StoreChain op env store ([] : List (World π)) :=
  List.isChain_singleton _

theorem cons (h : StoreStep op env w.store w'.store) (h' : StoreChain op env w'.store commits) :
    StoreChain op env w.store (w' :: commits) :=
  List.isChain_cons_cons.mpr ⟨h, h'⟩

theorem single (h : StoreStep op env w.store w'.store) : StoreChain op env w.store [w'] :=
  cons h nil

theorem append {first others : List (World π)} :
    ∀ {w : World π}, StoreChain op env w.store first →
      StoreChain op env (first.getLastD w).store others →
      StoreChain op env w.store (first ++ others) := by
  induction first with
  | nil => exact fun _ h' => h'
  | cons x rest ih =>
      intro w h h'
      have hx := List.isChain_cons_cons.mp h
      rw [List.getLastD_cons] at h'
      exact List.isChain_cons_cons.mpr ⟨hx.1, ih hx.2 h'⟩

end StoreChain

variable {planned : Except Thrown (Planned π)}

theorem perform_commits :
    (perform w planned).commits = [] ∨ ∃ plan w' committed, planned = .ok (.commit plan) ∧
      (perform w planned).commits = [w'] ∧
      w.store.commitState plan.commit = .ok (committed, w'.store) := by
  unfold perform
  split
  · exact .inl rfl
  · exact .inl rfl
  · next plan =>
      split
      · exact .inl rfl
      · next committed w' hw => exact .inr ⟨plan, w', committed, rfl, rfl, commit_store hw⟩

theorem Outcome.void_ok {α : Type} {outcome : Outcome π α} (h : outcome.void.result = .ok ()) :
    ∃ result, outcome.result = .ok result := by
  cases hr : outcome.result with
  | ok result => exact ⟨result, rfl⟩
  | error e =>
      rw [Outcome.void, hr] at h
      cases h

theorem perform_returned {result : TaskStageCommitResult}
    (h : (perform w planned).result = .ok result) :
    (∃ taskId, planned = .ok (.unchanged taskId) ∧ (perform w planned).commits = []) ∨
      ∃ plan w' committed, planned = .ok (.commit plan) ∧ (perform w planned).commits = [w'] ∧
        w.store.commitState plan.commit = .ok (committed, w'.store) := by
  unfold perform at h ⊢
  split at h
  · cases h
  · exact .inl ⟨_, rfl, rfl⟩
  · next plan =>
      split at h
      · cases h
      · next committed w' hw => exact .inr ⟨plan, w', committed, rfl, rfl, commit_store hw⟩

theorem perform_chain (h : ∀ plan, planned = .ok (.commit plan) →
      ∃ old, TaskCommit w.store (env.shift k) op old plan.commit) :
    StoreChain op env w.store (perform w planned).commits := by
  rcases perform_commits with hnil | ⟨plan, w', _, hplan, hone, hstore⟩
  · rw [hnil]
    exact .nil
  · rw [hone]
    obtain ⟨_, hcommit⟩ := h plan hplan
    exact .single (.commit hcommit hstore)

/-! ## Council receipts and advances -/

theorem recordCouncilSapDispatch_chain (attempts : Nat) :
    StoreChain (.recordCouncilSapDispatch runId dispatch) env w.store
      (recordCouncilSapDispatch bridges env runId dispatch w attempts).commits := by
  induction attempts with
  | zero => exact .nil
  | succ attempts ih =>
      unfold recordCouncilSapDispatch
      split
      · exact .nil
      · exact .nil
      · next plan hplan =>
          split
          · next hw =>
              obtain ⟨_, hcommit⟩ := planCouncilSapDispatch_commit hplan
              exact .single (.commit hcommit (commit_store hw))
          · split
            · split
              · exact .nil
              · exact ih
            · exact .nil

theorem recordCouncilSapResult_chain {phase : String} (attempts : Nat) :
    StoreChain (.recordCouncilSapResult runId admission result phase participantId) env w.store
      (recordCouncilSapResult bridges env runId admission result phase participantId w
        attempts).commits := by
  induction attempts with
  | zero => exact .nil
  | succ attempts ih =>
      unfold recordCouncilSapResult
      split
      · exact .nil
      · split
        · exact .nil
        · split
          · exact .nil
          · exact .nil
          · next plan hplan =>
              split
              · next hw =>
                  obtain ⟨_, hcommit⟩ := planCouncilSapResult_commit hplan
                  exact .single (.commit hcommit (commit_store hw))
              · split
                · exact ih
                · exact .nil
        · split
          · exact .nil
          · exact .single .protocol

theorem persistSafepoint_step {trigger : SafepointTrigger} (hmem : record ∈ w.store.tables.records)
    (hrun : run ∈ record.runs) (hop : op.takesSafepoint record run)
    (h : persistSafepoint (env.shift k) record.aggregate run trigger w = some w') :
    StoreStep op env w.store w'.store ∧ ∃ committed,
      w.store.commitState (safepointCommit (env.shift k) record.aggregate run trigger
        (w.store.getLatestCheckpoint record.taskId)) = .ok (committed, w'.store) := by
  obtain ⟨⟨committed, w''⟩, hw, rfl⟩ := Option.map_eq_some_iff.mp h
  have hstore := commit_store (swallow_eq_some.mp hw)
  exact ⟨.commit (.safepoint hop ⟨hmem, hrun, rfl⟩) hstore, committed, hstore⟩

/-- The commits of an advance: none, or the advance itself and at most a safepoint of the
stage boundary it has moved to. -/
inductive AdvanceCommits (env : Env) (w : World π) (input : AdvanceTaskStageInput) :
    List (World π) → Prop where
  | refused : AdvanceCommits env w input []
  | advanced {k : Nat} {record : TaskRecord} {run : PersistedRunState} {event : Event}
      {nextInput : TaskCursorInput} {committed : List PersistedCoordinationEvent} {w' : World π}
      (h : Advances w.store record run input nextInput event)
      (hstore : w.store.commitState (advanceStageCommit (env.shift k) record.aggregate run input
        nextInput event) = .ok (committed, w'.store)) : AdvanceCommits env w input [w']
  | saved {k k' : Nat} {record moved : TaskRecord} {run run' : PersistedRunState} {event : Event}
      {nextInput : TaskCursorInput} {committed committed' : List PersistedCoordinationEvent}
      {trigger : SafepointTrigger} {w' w'' : World π}
      (h : Advances w.store record run input nextInput event)
      (hstore : w.store.commitState (advanceStageCommit (env.shift k) record.aggregate run input
        nextInput event) = .ok (committed, w'.store))
      (hmoved : moved = record.write (advanceStageCommit (env.shift k) record.aggregate run input
        nextInput event) w.store.tables.lastSequence)
      (hacts : ActsOn w'.store moved run' input.runId)
      (hsafe : w'.store.commitState (safepointCommit (env.shift k') moved.aggregate run' trigger
        (w'.store.getLatestCheckpoint moved.taskId)) = .ok (committed', w''.store)) :
      AdvanceCommits env w input [w', w'']

theorem advanceStageOnce_commits :
    AdvanceCommits env w input (advanceStageOnce bridges (env.shift k) input w).commits := by
  unfold advanceStageOnce
  split
  · exact .refused
  · next plan nextInput hplan =>
      split
      · exact .refused
      · next committed w' hw =>
          obtain ⟨record, run, event, hadv, htask, heq⟩ := planAdvanceStage_commit hplan
          have hstore := commit_store hw
          rw [heq] at hstore
          split
          · exact .advanced hadv hstore
          · cases hsafe : advanceSafepoint ((env.shift k).shift 4) input.runId plan.taskId
                nextInput w' with
            | none => exact .advanced hadv hstore
            | some w'' =>
                -- the safepoint sees the record the advance has just written
                have hkey : (advanceStageCommit (env.shift k) record.aggregate run input nextInput
                    event).task.taskId = record.taskId := advancedTask_taskId ..
                have hrec := record?_of_mem hadv.at_stage.record_mem
                have hself := record?_commit_self hstore (hkey ▸ hrec)
                simp only [advanceSafepoint, Option.bind_eq_bind, Option.bind_eq_some_iff] at hsafe
                obtain ⟨refreshed, href, run', hrun', hsafe⟩ := hsafe
                obtain ⟨moved, hmoved, rfl⟩ := Option.map_eq_some_iff.mp href
                rw [htask] at hmoved
                rw [hkey] at hself
                have hsame := Option.some.inj (hmoved.symm.trans hself)
                rw [shift_shift] at hsafe
                obtain ⟨⟨committed', _⟩, hw', rfl⟩ := Option.map_eq_some_iff.mp hsafe
                exact .saved hadv hstore hsame ⟨record?_mem hmoved,
                  List.mem_of_find?_eq_some hrun', by simpa using List.find?_some hrun'⟩
                  (commit_store (swallow_eq_some.mp hw'))

theorem advanceStage_commits (attempts : Nat) :
    AdvanceCommits env w input (advanceStage bridges env input w attempts).commits := by
  induction attempts with
  | zero => exact .refused
  | succ attempts ih =>
      unfold advanceStage
      simp only
      split
      · split
        · exact ih
        · exact advanceStageOnce_commits
      · exact advanceStageOnce_commits

theorem AdvanceCommits.chain (h : AdvanceCommits env w input commits) :
    StoreChain (.advanceStage input) env w.store commits := by
  cases h with
  | refused => exact .nil
  | advanced h hstore => exact .single (.commit (.advance h) hstore)
  | saved h hstore hmoved hacts hsafe =>
      refine .cons (.commit (.advance h) hstore) (.single (.commit (.safepoint ?_ ⟨hacts.record_mem,
        hacts.run_mem, rfl⟩) hsafe))
      refine .inr ⟨⟨input, rfl, hacts.run_id⟩, ?_⟩
      rw [hmoved]
      rfl

/-! ## Operations over all Tasks -/

/-- The aggregates an operation has listed and not come to yet are still those of the
store. -/
structure Listed (store : CoordinationStore) (aggregates : List PersistedTaskAggregate) : Prop where
  stored : ∀ aggregate ∈ aggregates, ∃ record ∈ store.tables.records, record.aggregate = aggregate
  distinct : (aggregates.map fun aggregate => aggregate.task.taskId).Nodup

namespace Listed

variable {store after : CoordinationStore} {aggregate : PersistedTaskAggregate}
  {rest : List PersistedTaskAggregate}

theorem all (store : CoordinationStore) : Listed store store.listTaskAggregates where
  stored := fun _ h => mem_listTaskAggregates.mp h
  distinct := by
    have hperm := List.perm_insertionSort taskBefore store.tables.records
    have hd : ((store.tables.records.insertionSort taskBefore).map TaskRecord.taskId).Nodup :=
      store.constraints.tasks_distinct.of_perm hperm.symm
    simpa [listTaskAggregates, Tables.listTaskAggregates, Function.comp_def]
      using hd

theorem filter (h : Listed store rest) (p : PersistedTaskAggregate → Bool) :
    Listed store (rest.filter p) where
  stored := fun a ha => h.stored a (List.mem_filter.mp ha).1
  distinct := List.Nodup.sublist (List.filter_sublist.map _) h.distinct

theorem tail (h : Listed store (aggregate :: rest)) : Listed store rest where
  stored := fun a ha => h.stored a (List.mem_cons_of_mem _ ha)
  distinct := (List.nodup_cons.mp h.distinct).2

theorem tail_commit (h : Listed store (aggregate :: rest)) {input : CoordinationStateCommit}
    (htask : input.task.taskId = aggregate.task.taskId)
    (hstore : store.commitState input = .ok (committed, after)) : Listed after rest where
  stored := by
    intro a ha
    obtain ⟨record, hmem, rfl⟩ := h.tail.stored a ha
    have hne : record.taskId ≠ input.task.taskId := by
      intro heq
      exact (List.nodup_cons.mp h.distinct).1
        (List.mem_map.mpr ⟨record.aggregate, ha, heq.trans htask⟩)
    have hrec := record?_of_mem hmem
    rw [← record?_commit_ne hstore hne] at hrec
    exact ⟨record, record?_mem hrec, rfl⟩
  distinct := h.tail.distinct

end Listed

/-- `recoverInterruptedTask` leaves the store alone or makes one commit to its own Task. -/
theorem perform_recover_final (env : Env) (w : World π) (aggregate : PersistedTaskAggregate) :
    (perform w (planRecoverInterruptedTask env aggregate w.store)).commits = [] ∨
      ∃ run committed w', aggregate.activeRun? = some run ∧
        (perform w (planRecoverInterruptedTask env aggregate w.store)).commits = [w'] ∧
        w.store.commitState (interruptCommit env aggregate run (processInterrupt run.runId)
          (w.store.getLatestCheckpoint aggregate.task.taskId)) = .ok (committed, w'.store) := by
  unfold perform
  split
  · exact .inl rfl
  · exact .inl rfl
  · next plan hplan =>
      split
      · exact .inl rfl
      · next committed w' hw =>
          refine .inr ?_
          unfold planRecoverInterruptedTask at hplan
          split at hplan
          · cases hplan
          · next run hrun =>
              simp only [planInterrupt, bind_eq_ok, pure_eq_ok] at hplan
              obtain ⟨_, _, hplan⟩ := hplan
              cases hplan
              exact ⟨run, committed, w', hrun, rfl, commit_store hw⟩

theorem recoverTasks_chain :
    ∀ {k : Nat} {w : World π}, Listed w.store aggregates →
      StoreChain .recoverInterruptedTasks env w.store
        (recoverTasks (env.shift k) aggregates w).commits := by
  induction aggregates with
  | nil => exact fun _ => .nil
  | cons aggregate rest ih =>
      intro k w hlisted
      obtain ⟨record, hmem, rfl⟩ := hlisted.stored aggregate (List.mem_cons_self ..)
      have hfirst : StoreChain .recoverInterruptedTasks env w.store
          (perform w (planRecoverInterruptedTask (env.shift k) record.aggregate w.store)).commits :=
        perform_chain fun plan hplan => planRecoverInterruptedTask_commit hmem hplan
      unfold recoverTasks
      simp only
      split
      · exact hfirst
      · rw [shift_shift]
        refine hfirst.append ?_
        rcases perform_recover_final (env.shift k) w record.aggregate with
          hnil | ⟨run, committed, w', _, hone, hstore⟩
        · simp only [Outcome.final, hnil]
          exact ih hlisted.tail
        · simp only [Outcome.final, hone]
          exact ih (hlisted.tail_commit rfl hstore)

theorem saveSafepoints_chain :
    ∀ {k : Nat} {w : World π}, Listed w.store aggregates →
      StoreChain .saveShutdownSafepoints env w.store
        (saveSafepoints (env.shift k) aggregates w) := by
  induction aggregates with
  | nil => exact fun _ => .nil
  | cons aggregate rest ih =>
      intro k w hlisted
      obtain ⟨record, hmem, rfl⟩ := hlisted.stored aggregate (List.mem_cons_self ..)
      unfold saveSafepoints
      split
      · rw [shift_shift]
        exact ih hlisted.tail
      · next w' hw =>
          rw [shift_shift]
          obtain ⟨run, hrun, hsafe⟩ := Option.bind_eq_some_iff.mp hw
          have hactive : isActiveRun run = true := by simpa using List.find?_some hrun
          obtain ⟨hstep, committed, hstore⟩ := persistSafepoint_step hmem
            (List.mem_of_find?_eq_some hrun) (.inl ⟨rfl, hactive⟩) hsafe
          exact .cons hstep (ih (hlisted.tail_commit rfl hstore))

/-! ## Every operation -/

/-- The stores an operation leaves behind, one after the other, are steps of it: whether
it returned, threw after a commit, or was cut at one. -/
theorem exec_chain (bridges : Bridges π) (env : Env) (w : World π) (op : Operation) :
    StoreChain op env w.store (exec bridges env w op).commits := by
  have hzero : env = env.shift 0 := (shift_zero env).symm
  cases op with
  | beginRun input =>
      exact perform_chain fun plan h => hzero ▸ (planBeginRun_commit h).1
  | startStage input => exact perform_chain fun plan h => hzero ▸ planStartStage_commit h
  | recordCouncilSapDispatch runId dispatch => exact recordCouncilSapDispatch_chain 3
  | recordCouncilSapResult runId admission result phase participantId =>
      exact recordCouncilSapResult_chain 3
  | advanceStage input => exact (advanceStage_commits 3).chain
  | failStage input => exact perform_chain fun plan h => hzero ▸ planFailStage_commit h
  | completeRunForMailboxWait runId =>
      exact perform_chain fun plan h => hzero ▸ planCompleteRunForMailboxWait_commit h
  | blockMailboxDeadlock taskId reason =>
      exact perform_chain fun plan h => hzero ▸ planBlockMailboxDeadlock_commit h
  | expireMailboxWait taskId reason =>
      exact perform_chain fun plan h => hzero ▸ planExpireMailboxWait_commit h
  | setCouncilOverride runId =>
      exact perform_chain fun plan h => hzero ▸ planSetCouncilOverride_commit h
  | recordRunEvent runId event =>
      exact perform_chain fun plan h => hzero ▸ planRecordRunEvent_commit h
  | recoverInterruptedTasks =>
      have h : StoreChain .recoverInterruptedTasks env w.store
          (recoverTasks (env.shift 0) _ w).commits :=
        recoverTasks_chain
          ((Listed.all w.store).filter fun aggregate => aggregate.runs.any isActiveRun)
      rwa [shift_zero] at h
  | interruptRun runId request =>
      exact perform_chain fun plan h => hzero ▸ planInterruptRun_commit h
  | finishRun input => exact perform_chain fun plan h => hzero ▸ planFinishRun_commit h
  | recordWorkspaceRestore taskId checkpointId runId outcome =>
      show StoreChain _ env w.store (recordWorkspaceRestore env taskId checkpointId runId outcome
        w).commits
      unfold recordWorkspaceRestore
      cases hagg : w.store.getTaskAggregate taskId with
      | none => exact .nil
      | some aggregate =>
          obtain ⟨record, hrec, rfl⟩ := Option.map_eq_some_iff.mp hagg
          simp only
          generalize hplan : ({
            taskId
            commit := workspaceRestoreCommit env record.aggregate checkpointId runId outcome
            } : Plan π) = plan
          have hcommit : TaskCommit w.store (env.shift 0)
              (.recordWorkspaceRestore taskId checkpointId runId outcome) (some record)
              plan.commit := by
            rw [← hplan, shift_zero]
            exact .restore hrec
          cases hw : swallow (w.commit plan) with
          | none => exact .nil
          | some committed =>
              exact .single (.commit hcommit (commit_store (swallow_eq_some.mp hw)))
  | saveShutdownSafepoints =>
      have h : StoreChain .saveShutdownSafepoints env w.store
          (saveSafepoints (env.shift 0) _ w) := saveSafepoints_chain (Listed.all w.store)
      rwa [shift_zero] at h
  | deleteTask taskId =>
      show StoreChain _ env w.store (deleteTask taskId w).commits
      unfold deleteTask
      split
      · exact .nil
      · split
        · exact .nil
        · next hdelete => exact .single (.delete rfl hdelete)

end Newide
