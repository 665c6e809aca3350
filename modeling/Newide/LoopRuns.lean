import Newide.ExecutionLoop
import Newide.RunLife
import Newide.SnapshotChecks

/-!
# What a run of the execution loop does

Every transition that the processor accepts leads to a later cursor, so
while the Run is active the input stored for it never falls behind a
stage that was advanced.  From that the stages of a run of the loop come
in strictly rising order, and five turns and one to look are enough.
-/

namespace Newide.ExecutionLoop

open Fallible CoordinationStore Outcome

variable {π : Type}

/-! ## The order of the cursors -/

def rank : TaskResumeCursor → Nat
  | .selectAgent => 0
  | .executeAgent => 1
  | .council => 2
  | .gate => 3
  | .deliver => 4
  | .mailboxWait | .done => 5

theorem rank_le (cursor : TaskResumeCursor) : rank cursor ≤ 5 := by
  cases cursor <;> decide

variable {cursor : TaskResumeCursor} {turns : Nat}

theorem rank_lt_of_transition {next : TaskResumeCursor} (h : next ∈ cursorTransitions cursor) :
    rank cursor < rank next := by
  revert h
  cases cursor <;> cases next <;> decide

theorem StageInput.rank_lt (stage : StageInput) : rank stage.cursor < 5 := by
  cases stage <;> simp [cursor, rank]

theorem StageInput.cursor_of_none {input : TaskCursorInput} (h : ofCursorInput input = none) :
    input.cursor ∈ [.done, .mailboxWait] := by
  cases input with
  | mailboxWait | done => simp [TaskCursorInput.cursor]
  | selectAgent | executeAgent | council | gate | deliver => cases h

/-! ## The Run is not behind a stage -/

/-- While the Run is active, the stored input is for the cursor `n` or a later one. -/
def Ahead (runId : String) (n : Nat) (record : TaskRecord) : Prop :=
  ∀ run ∈ record.runs, run.runId = runId → isActiveRun run = true →
    ∀ input ∈ record.runtimeState.cursorInput, n ≤ rank input.cursor

def Over (runId : String) (record : TaskRecord) : Prop :=
  ∀ run ∈ record.runs, run.runId = runId → isActiveRun run = false

variable {snapshot : TaskSnapshot}

section
variable {runId : String} {n : Nat}

theorem ahead_zero (record : TaskRecord) : Ahead runId 0 record :=
  fun _ _ _ _ _ _ => Nat.zero_le _

variable {record : TaskRecord}

theorem Over.ahead (h : Over runId record) : Ahead runId n record := by
  intro run hrun hid hactive
  rw [h run hrun hid] at hactive
  cases hactive

variable {store after : CoordinationStore} {env : Env} {op : Operation}
  {old : Option TaskRecord} {input : CoordinationStateCommit} {last : Nat}

variable {run : PersistedRunState}

/-- A Run that is active after a commit was active before it, unless the commit began it. -/
theorem active_old (h : TaskCommit store env op old input) (hapart : Apart runId op)
    (hrun : run ∈ (recordAfter old input last).runs)
    (hid : run.runId = runId) (hactive : isActiveRun run = true) :
    ∃ record, old = some record ∧ ∃ before ∈ record.runs, before.runId = runId ∧
      isActiveRun before = true := by
  have hbefore : ∃ before ∈ oldRuns old, before.runId = runId ∧ isActiveRun before = true := by
    by_cases hbegin : ∃ request, op = .beginRun request
    · obtain ⟨request, rfl⟩ := hbegin
      have hne : request.runId ≠ runId := hapart.2 request rfl
      rcases active_recordAfter h.old_eq hrun hactive with ⟨written, hwritten, rfl, _⟩ | ⟨hold, _⟩
      · rw [h.beginRun_eq.1] at hwritten
        cases hwritten
        exact absurd hid hne
      · exact ⟨run, hold, hid, hactive⟩
    · have hop : ∀ request, op ≠ .beginRun request := fun request heq => hbegin ⟨request, heq⟩
      obtain ⟨before, hmem, heq, hact⟩ := active_before h.effect h.old_eq hop hrun hactive
      exact ⟨before, hmem, heq.trans hid, hact⟩
  obtain ⟨before, hmem, hsame, hact⟩ := hbefore
  cases old with
  | none => cases hmem
  | some record => exact ⟨record, rfl, before, hmem, hsame, hact⟩

/-- While a Run stays active, the input that a commit stores is the one that was stored,
or one for a later cursor. -/
theorem input_kept (h : TaskCommit store env op (some record) input)
    (hop : op ≠ .saveShutdownSafepoints) (hwas : ∃ run ∈ record.runs, isActiveRun run = true)
    (hactive : ∃ run ∈ (recordAfter (some record) input last).runs, isActiveRun run = true)
    {next : TaskCursorInput} (hnext : input.runtimeState.cursorInput = some next) :
    record.runtimeState.cursorInput = some next ∨ rank next.cursor = 5 ∨
      ∃ stored, record.runtimeState.cursorInput = some stored ∧
        rank stored.cursor < rank next.cursor := by
  cases h with
  | beginExisting hrec hidle =>
      obtain ⟨run, hrun, hact⟩ := hwas
      rw [activeRuns_eq_nil.mp hidle run hrun] at hact
      cases hact
  | startStage | councilReceipt | override | mailboxWait | block | restore => exact .inl hnext
  | advance hadv =>
      cases hnext
      obtain ⟨stored, hstored, hcursor⟩ := Option.map_eq_some_iff.mp hadv.at_stage.input_cursor
      have hless := rank_lt_of_transition hadv.transition
      exact .inr (.inr ⟨stored, hstored, hcursor ▸ hless⟩)
  | fail | expire | finish =>
      cases hnext
      exact .inr (.inl rfl)
  | runEvent =>
      -- a projected event takes the input away
      simp only [recordRunEventCommit] at hnext
      split at hnext
      · cases hnext
      · exact .inl hnext
  | @interrupt _ _ run _ hinterrupts hacts hact =>
      obtain ⟨still, hstill, hrunning⟩ := hactive
      have hold := record?_of_mem hacts.record_mem
      have hover : isActiveRun still = false :=
        ends_idle
          (w :=
            { run with
              status := .interrupted
              revision := run.revision + 1
              completedAt := some (env.now 0)
              updatedAt := env.now 0 })
          hold hacts.run_mem hact rfl rfl rfl still hstill
      rw [hover] at hrunning
      cases hrunning
  | @safepoint _ _ run _ htakes hacts =>
      rcases htakes with ⟨rfl, _⟩ | ⟨_, hfits⟩
      · exact absurd rfl hop
      · -- the input fits its cursor, so the safepoint of an advance makes none up
        obtain ⟨stored, hstored, hcursor⟩ := Option.map_eq_some_iff.mp hfits
        have hkept : safepointCursorInput record.aggregate run.runId = some stored :=
          safepointCursorInput_of_stored hstored hcursor
        refine .inl (hstored.trans ?_)
        simpa [safepointCommit, safepointCheckpoint, buildSafepointCheckpoint, hkept] using hnext

theorem Ahead.recordAfter (h : TaskCommit store env op old input) (hapart : Apart runId op)
    (hn : n ≤ 5) (hahead : ∀ record, old = some record → Ahead runId n record) :
    Ahead runId n (recordAfter old input last) := by
  intro run hrun hid hactive next hnext
  obtain ⟨record, rfl, before, hmem, hsame, hact⟩ := active_old h hapart hrun hid hactive
  have hbefore := hahead record rfl before hmem hsame hact
  rw [recordAfter_runtimeState] at hnext
  rcases input_kept h hapart.1 ⟨before, hmem, hact⟩ ⟨run, hrun, hactive⟩ hnext with
    hstored | hlast | ⟨stored, hstored, hless⟩
  · exact hbefore next hstored
  · rw [hlast]
    exact hn
  · exact (hbefore stored hstored).trans hless.le

theorem ahead_step (hapart : Apart runId op) (hn : n ≤ 5)
    (h : StoreStep op env store after) (hahead : Everywhere (Ahead runId n) store) :
    Everywhere (Ahead runId n) after := by
  refine hahead.step h (fun k old input hc _ => ?_) fun record gone hrecord _ => ?_
  · refine Ahead.recordAfter hc hapart hn fun record hold => ?_
    exact hahead record (record?_mem (hold ▸ hc.old_eq))
  · exact hrecord

theorem ahead_final {α : Type} {outcome : Outcome π α} {w : World π}
    (hchain : StoreChain op env w.store outcome.commits) (hapart : Apart runId op) (hn : n ≤ 5)
    (hahead : Everywhere (Ahead runId n) w.store) :
    Everywhere (Ahead runId n) (outcome.final w).store := by
  cases hl : outcome.commits.getLast? with
  | none => simpa [final, List.getLastD_eq_getLast?, hl] using hahead
  | some last =>
      have hmem : last.store ∈ outcome.commits.map (·.store) :=
        List.mem_map_of_mem (List.mem_of_getLast? hl)
      have hstep : ∀ a b, Everywhere (Ahead runId n) a → StoreStep op env a b →
          Everywhere (Ahead runId n) b := fun _ _ ha h => ahead_step hapart hn h ha
      have hlast := Runs.chain_invariant hstep hahead hchain _ hmem
      simpa [final, List.getLastD_eq_getLast?, hl] using hlast

theorem serve_ahead {bridges : Bridges π} (hn : n ≤ 5) {calls : List (OtherCall runId)}
    {w : World π} (hahead : Everywhere (Ahead runId n) w.store) :
    Everywhere (Ahead runId n) (serve bridges calls w).store := by
  unfold serve
  induction calls generalizing w with
  | nil => exact hahead
  | cons call calls ih =>
      exact ih (ahead_final (exec_chain bridges call.1.env w call.1.op) call.2 hn hahead)

/-! ## Runs that are over -/

def Ended (runId : String) (store : CoordinationStore) : Prop :=
  ∃ record ∈ store.tables.records, ∃ run ∈ record.runs,
    run.runId = runId ∧ isActiveRun run = false

theorem Ended.over (h : Ended runId store) : Everywhere (Over runId) store := by
  obtain ⟨record, hmem, run, hrun, hid, hover⟩ := h
  intro other hother x hx hxid
  have hsame : other = record :=
    store.constraints.record_eq_of_run hother hmem hx hrun (hxid.trans hid.symm)
  subst hsame
  have hone : x = run :=
    (store.constraints.record_runs_distinct hmem).eq_of_key hx hrun (hxid.trans hid.symm)
  rw [hone]
  exact hover

theorem Ended.ahead (h : Ended runId store) : Everywhere (Ahead runId n) store :=
  fun record hmem => (h.over record hmem).ahead

variable {committed : List PersistedCoordinationEvent}

theorem ended_commit {written : PersistedRunState} (hold : store.record? input.task.taskId = old)
    (hstore : store.commitState input = .ok (committed, after)) (hrun : input.run = some written)
    (hid : written.runId = runId) (hover : isActiveRun written = false) : Ended runId after := by
  refine ⟨_, record?_mem (record?_after hold hstore), readRun written, ?_, hid,
    hover⟩
  exact (mem_recordAfter_runs hold).mpr (.inl ⟨written, hrun, rfl⟩)

/-! ## The operations of the loop -/

variable {bridges : Bridges π} {w : World π} {result : TaskStageCommitResult}

theorem planStartStage_at {request : StartTaskStageInput} {planned : Planned π}
    (h : planStartStage bridges env request store = .ok planned) : ∃ record run,
      AtStage store record run request.runId request.expectedCursor := by
  simp only [planStartStage, bind_eq_ok, assertActiveStageTarget_eq_ok] at h
  obtain ⟨aggregate, hagg, run, hrun, _, ⟨⟨hactive, hrunning, hcurrent⟩, hcursor, hinput⟩, _⟩ := h
  obtain ⟨record, hmem, rfl⟩ := requireAggregateForRun_ok hagg
  obtain ⟨hrmem, hrid⟩ := requireRun_ok hrun
  exact ⟨record, run, ⟨⟨hmem, hrmem, hrid⟩, hactive, hrunning, hcurrent⟩, hcursor, hinput⟩

theorem startStage_rank {request : StartTaskStageInput}
    (h : (startStage bridges env request w).result = .ok result)
    (hahead : Everywhere (Ahead request.runId n) w.store) : n ≤ rank request.expectedCursor := by
  have hat : ∃ record run, AtStage w.store record run request.runId request.expectedCursor := by
    rcases perform_returned h with ⟨_, hplan, _⟩ | ⟨_, _, _, hplan, _⟩
    all_goals exact planStartStage_at hplan
  obtain ⟨record, run, hat⟩ := hat
  obtain ⟨stored, hstored, hcursor⟩ := Option.map_eq_some_iff.mp hat.input_cursor
  have hrank := hahead record hat.record_mem run hat.run_mem hat.run_id hat.active stored hstored
  rwa [hcursor] at hrank

theorem ended_performed {planned : Except Thrown (Planned π)}
    (h : (perform w planned).result = .ok result)
    (hunchanged : ∀ taskId, planned = .ok (.unchanged taskId) → Ended runId w.store)
    (hcommit : ∀ plan, planned = .ok (.commit plan) →
      (∃ old, w.store.record? plan.commit.task.taskId = old) ∧
        ∃ written, plan.commit.run = some written ∧ written.runId = runId ∧
          isActiveRun written = false) : Ended runId ((perform w planned).final w).store := by
  rcases perform_returned h with ⟨taskId, hplan, hnil⟩ | ⟨plan, w', committed, hplan, hone, hstore⟩
  · rw [final, hnil]
    exact hunchanged taskId hplan
  · rw [final, hone]
    obtain ⟨⟨old, hold⟩, written, hrun, hid, hover⟩ := hcommit plan hplan
    exact ended_commit hold hstore hrun hid hover

theorem failStage_ended {request : FailTaskStageInput}
    (h : (failStage bridges env request w).result = .ok result) :
    Ended request.runId ((failStage bridges env request w).final w).store := by
  refine ended_performed h (fun taskId hplan => ?_) fun plan hplan => ⟨⟨_, rfl⟩, ?_⟩
  · simp only [planFailStage, bind_eq_ok, pure_eq_ok] at hplan
    obtain ⟨_, _, _, _, _, _, _, _, _, _, _, _, _, _, hcommit⟩ := hplan
    cases hcommit
  · simp only [planFailStage, bind_eq_ok, pure_eq_ok] at hplan
    obtain ⟨_, _, run, hrun, _, _, _, _, _, _, _, _, _, _, hcommit⟩ := hplan
    cases hcommit
    exact ⟨_, rfl, (requireRun_ok hrun).2, rfl⟩

theorem ended_found {aggregate : PersistedTaskAggregate}
    (hagg : requireAggregateForRun store runId = .ok aggregate)
    (hrun : requireRun aggregate runId = .ok run) (hover : isActiveRun run = false) :
    Ended runId store := by
  obtain ⟨record, hmem, rfl⟩ := requireAggregateForRun_ok hagg
  obtain ⟨hrmem, hid⟩ := requireRun_ok hrun
  exact ⟨record, hmem, run, hrmem, hid, hover⟩

theorem interruptRun_ended {request : TaskInterruptRequest}
    (h : (interruptRun env runId request w).result = .ok result) :
    Ended runId ((interruptRun env runId request w).final w).store := by
  refine ended_performed h (fun taskId hplan => ?_) fun plan hplan => ⟨⟨_, rfl⟩, ?_⟩
  · simp only [planInterruptRun, bind_eq_ok] at hplan
    obtain ⟨aggregate, hagg, run, hrun, hplan⟩ := hplan
    split at hplan
    · simp only [planInterrupt, bind_eq_ok, pure_eq_ok] at hplan
      obtain ⟨_, _, hcommit⟩ := hplan
      cases hcommit
    · next hover => exact ended_found hagg hrun (by simpa using hover)
  · simp only [planInterruptRun, bind_eq_ok] at hplan
    obtain ⟨aggregate, _, run, hrun, hplan⟩ := hplan
    split at hplan
    · simp only [planInterrupt, bind_eq_ok, pure_eq_ok] at hplan
      obtain ⟨_, _, hcommit⟩ := hplan
      cases hcommit
      exact ⟨_, rfl, (requireRun_ok hrun).2, rfl⟩
    · cases hplan

theorem finishRun_ended {request : FinishTaskRunInput}
    (h : (finishRun bridges env request w).result = .ok result) :
    Ended request.runId ((finishRun bridges env request w).final w).store := by
  have hover : ∀ run : PersistedRunState, run.status = request.status.toRunStatus →
      isActiveRun run = false := by
    intro run hstatus
    cases hs : request.status <;> simp [isActiveRun, hstatus, hs, FinishStatus.toRunStatus]
  refine ended_performed h (fun taskId hplan => ?_) fun plan hplan => ⟨⟨_, rfl⟩, ?_⟩
  · simp only [planFinishRun, bind_eq_ok] at hplan
    obtain ⟨aggregate, hagg, run, hrun, hplan⟩ := hplan
    split at hplan
    · simp only [bind_eq_ok, pure_eq_ok] at hplan
      obtain ⟨_, _, _, _, hcommit⟩ := hplan
      cases hcommit
    · simp only [bind_eq_ok, ensure_eq_ok] at hplan
      obtain ⟨_, hstatus, _⟩ := hplan
      exact ended_found hagg hrun (hover run hstatus)
  · simp only [planFinishRun, bind_eq_ok] at hplan
    obtain ⟨aggregate, _, run, hrun, hplan⟩ := hplan
    split at hplan
    · simp only [bind_eq_ok, pure_eq_ok] at hplan
      obtain ⟨_, _, _, _, hcommit⟩ := hplan
      cases hcommit
      exact ⟨_, rfl, (requireRun_ok hrun).2, hover _ rfl⟩
    · simp only [bind_eq_ok, pure_eq_ok] at hplan
      obtain ⟨_, _, hcommit⟩ := hplan
      cases hcommit

/-! ## Advances -/

/-- If it returned, the outcome of an advance has a commit, and shows the Task of the Run as
the last commit left it. -/
def Shows (runId : String) (w : World π) (outcome : Outcome π TaskStageCommitResult) : Prop :=
  ∀ result, outcome.result = .ok result → outcome.commits ≠ [] ∧
    ∃ record ∈ w.store.tables.records, (∃ run ∈ record.runs, run.runId = runId) ∧
      getTaskSnapshot (outcome.final w).store record.taskId = .ok result.snapshot

variable {request : AdvanceTaskStageInput}

theorem advanceStageOnce_shows :
    Shows request.runId w (advanceStageOnce bridges env request w) := by
  unfold advanceStageOnce
  split
  · exact fun _ h => (by cases h)
  · next plan nextInput hplan =>
      obtain ⟨record, run, event, hadv, htask, _⟩ := planAdvanceStage_commit hplan
      split
      · exact fun _ h => (by cases h)
      · next committed w' hw =>
          dsimp only
          generalize (if nextInput.cursor = .done then none
            else advanceSafepoint (env.shift 4) request.runId plan.taskId nextInput w') = safepoint
          intro result h
          refine ⟨List.cons_ne_nil w' safepoint.toList, record, hadv.at_stage.record_mem,
            ⟨run, hadv.at_stage.run_mem, hadv.at_stage.run_id⟩, ?_⟩
          have hlast : (w' :: safepoint.toList).getLastD w = safepoint.getD w' := by
            cases safepoint <;> rfl
          rw [← htask]
          show getTaskSnapshot ((w' :: safepoint.toList).getLastD w).store plan.taskId = _
          rw [hlast]
          cases hshown : getTaskSnapshot (safepoint.getD w').store plan.taskId with
          | error e =>
              rw [hshown] at h
              cases h
          | ok snapshot =>
              rw [hshown] at h
              cases h
              rfl

theorem advanceStage_shows (attempts : Nat) :
    Shows request.runId w (advanceStage bridges env request w attempts) := by
  induction attempts with
  | zero => exact fun _ h => (by cases h)
  | succ attempts ih =>
      unfold advanceStage
      dsimp only
      split
      · split
        · exact ih
        · exact advanceStageOnce_shows
      · exact advanceStageOnce_shows

/-- Where an advance leads: to a later cursor, and the Run is over or its Task still runs. -/
theorem advance_leads {event : Event} {nextInput : TaskCursorInput}
    (h : Advances store record run request nextInput event)
    (hstore : store.commitState (advanceStageCommit env record.aggregate run request nextInput
      event) = .ok (committed, after)) :
    Everywhere (Ahead request.runId (rank request.expectedCursor + 1)) after ∧
      (Ended request.runId after ∨ ∃ moved, after.record? record.taskId = some moved ∧
        moved.task.status = .running) := by
  have hcommit : TaskCommit store env (.advanceStage request) (some record) _ := .advance h
  have hold := hcommit.old_eq
  have hid : (advanceStageCommit env record.aggregate run request nextInput event).task.taskId =
      record.taskId := advancedTask_taskId ..
  have hless := rank_lt_of_transition h.transition
  constructor
  · intro other hother x hx hxid _ input hinput
    rcases mem_records_after hold hstore hother with rfl | ⟨hother, hne⟩
    · rw [recordAfter_runtimeState] at hinput
      cases hinput
      exact hless
    · have hsame := store.constraints.record_eq_of_run hother h.at_stage.record_mem hx
        h.at_stage.run_mem (hxid.trans h.at_stage.run_id.symm)
      exact absurd (hsame ▸ hid.symm) hne
  · by_cases hdone : nextInput.cursor = .done
    · refine .inl (ended_commit hold hstore rfl ?_ ?_)
      · simp [advancedRun, hdone, h.at_stage.run_id]
      · simp [advancedRun, hdone, isActiveRun]
    · refine .inr ⟨_, hid ▸ record?_after hold hstore, ?_⟩
      have hrunning : record.task.status = .running := h.at_stage.running
      simp [readTask, advanceStageCommit, advancedTask, hdone, hrunning]

theorem safepoint_leads {moved : TaskRecord} {trigger : SafepointTrigger}
    (hacts : ActsOn store moved run request.runId)
    (hstore : store.commitState (safepointCommit env moved.aggregate run trigger
      (store.getLatestCheckpoint moved.taskId)) = .ok (committed, after)) :
    (Ended request.runId store → Ended request.runId after) ∧
      (moved.task.status = .running → ∃ saved, after.record? moved.taskId = some saved ∧
        saved.task.status = .running) := by
  have hold : store.record? (safepointCommit env moved.aggregate run trigger
      (store.getLatestCheckpoint moved.taskId)).task.taskId = some moved :=
    record?_of_mem hacts.record_mem
  constructor
  · intro hended
    have hover := hended.over moved hacts.record_mem run hacts.run_mem hacts.run_id
    exact ended_commit hold hstore rfl hacts.run_id hover
  · intro hrunning
    exact ⟨_, record?_after hold hstore, hrunning⟩

theorem advanceCommits_lead {commits : List (World π)}
    (h : AdvanceCommits env w request commits) (hne : commits ≠ []) :
    Everywhere (Ahead request.runId (rank request.expectedCursor + 1)) (commits.getLastD w).store ∧
      (Ended request.runId (commits.getLastD w).store ∨
        ∀ record ∈ w.store.tables.records, (∃ run ∈ record.runs, run.runId = request.runId) →
          ∃ moved, (commits.getLastD w).store.record? record.taskId = some moved ∧
            moved.task.status = .running) := by
  have hone : ∀ {record : TaskRecord} {run : PersistedRunState},
      ActsOn w.store record run request.runId → ∀ other ∈ w.store.tables.records,
        (∃ x ∈ other.runs, x.runId = request.runId) → other = record := by
    rintro record run hacts other hother ⟨x, hx, hxid⟩
    exact w.store.constraints.record_eq_of_run hother hacts.record_mem hx hacts.run_mem
      (hxid.trans hacts.run_id.symm)
  cases h with
  | refused => exact absurd rfl hne
  | advanced hadv hstore =>
      obtain ⟨hahead, hended | hmoved⟩ := advance_leads hadv hstore
      · exact ⟨hahead, .inl hended⟩
      · refine ⟨hahead, .inr fun other hother hrun => ?_⟩
        rw [hone hadv.at_stage.toActsOn other hother hrun]
        exact hmoved
  | @saved k k' record moved run run' event nextInput _ _ trigger w' w'' hadv hstore hmoved hacts
      hsafe =>
      have hchain := (AdvanceCommits.saved hadv hstore hmoved hacts hsafe).chain
      have hstep : StoreStep (.advanceStage request) env w'.store w''.store :=
        (List.isChain_cons_cons.mp (List.isChain_cons_cons.mp hchain).2).1
      obtain ⟨hahead, hrest⟩ := advance_leads hadv hstore
      have hapart : Apart request.runId (.advanceStage request) :=
        ⟨fun h => (by cases h), fun _ h => (by cases h)⟩
      have hn : rank request.expectedCursor + 1 ≤ 5 :=
        (rank_lt_of_transition hadv.transition).trans_le (rank_le _)
      refine ⟨ahead_step hapart hn hstep hahead, ?_⟩
      obtain ⟨hkeeps, hruns⟩ := safepoint_leads hacts hsafe
      rcases hrest with hended | ⟨left, hleft, hrunning⟩
      · exact .inl (hkeeps hended)
      · refine .inr fun other hother hrun => ?_
        have hid : moved.taskId = record.taskId := by
          rw [hmoved]
          exact advancedTask_taskId ..
        have hstored := record?_of_mem hacts.record_mem
        rw [hid, hleft] at hstored
        rw [hone hadv.at_stage.toActsOn other hother hrun, ← hid]
        exact hruns (Option.some.inj hstored ▸ hrunning)

theorem getTaskSnapshot_status {taskId : String} (hrec : store.record? taskId = some record)
    (h : getTaskSnapshot store taskId = .ok snapshot) : snapshot.status = record.task.status := by
  simp only [getTaskSnapshot, requireTask, getTaskAggregate_of_record hrec,
    projectAggregate, projectTaskSnapshot, bind_eq_ok, parseTaskSnapshot_eq_ok] at h
  obtain ⟨aggregate, hagg, facts, _, projected, ⟨_, _, _, rfl⟩, _, rfl⟩ := h
  cases orThrow_eq_ok.mp hagg
  rfl

theorem advanceStage_leads {attempts : Nat}
    (h : (advanceStage bridges env request w attempts).result = .ok result) :
    Everywhere (Ahead request.runId (rank request.expectedCursor + 1))
        ((advanceStage bridges env request w attempts).final w).store ∧
      (result.snapshot.status ≠ .running →
        Ended request.runId ((advanceStage bridges env request w attempts).final w).store) := by
  obtain ⟨hne, record, hmem, hrun, hshown⟩ := advanceStage_shows attempts result h
  obtain ⟨hahead, hrest⟩ := advanceCommits_lead (advanceStage_commits attempts) hne
  refine ⟨hahead, fun hstatus => ?_⟩
  rcases hrest with hended | hmoved
  · exact hended
  · obtain ⟨moved, hrec, hrunning⟩ := hmoved record hmem hrun
    exact absurd ((getTaskSnapshot_status hrec hshown).trans hrunning) hstatus

end

/-! ## One stage -/

/-- What a stage that succeeded leaves: the Run ahead of it, and over unless the Task is
shown as running. -/
def Led (runId : String) (n : Nat) (store : CoordinationStore) (snapshot : TaskSnapshot) : Prop :=
  Everywhere (Ahead runId n) store ∧ (snapshot.status ≠ .running → Ended runId store)

theorem Ended.led {runId : String} {n : Nat} {store : CoordinationStore}
    (h : Ended runId store) : Led runId n store snapshot :=
  ⟨h.ahead, fun _ => h⟩

variable {stage : StageInput}

section
variable {options : LoopOptions π} {runId : String} {turn : Turn runId} {state : RunExecutionState}
  {w : World π} {committed : TaskStageCommitResult}

theorem advanceWithEvidence_led {input : AdvanceTaskStageInput}
    (h : (advanceWithEvidence options turn input w).2 = .ok committed) :
    Led input.runId (rank input.expectedCursor + 1)
      (advanceWithEvidence options turn input w).1.store committed.snapshot := by
  simp only [advanceWithEvidence] at h ⊢
  split at h
  · cases h
  · next result hresult =>
      split at h
      · cases h
      · cases h
        exact advanceStage_leads hresult

variable {n : Nat}

theorem failWithEvidence_led {input : FailTaskStageInput}
    (h : (failWithEvidence options turn input w).2 = .ok committed) :
    Led input.runId n (failWithEvidence options turn input w).1.store committed.snapshot := by
  simp only [failWithEvidence] at h ⊢
  split at h
  · cases h
  · next result hresult => exact (failStage_ended hresult).led

theorem withEvidence_led {next : RunStageEvidenceReference → Attempt π}
    (h : (withEvidence turn w next).2 = .ok committed)
    (hnext : ∀ evidence, (next evidence).2 = .ok committed →
      Led runId n (next evidence).1.store committed.snapshot) :
    Led runId n (withEvidence turn w next).1.store committed.snapshot := by
  unfold withEvidence at h ⊢
  split at h
  · cases h
  · exact hnext _ h

theorem stageBody_led {admitted : Option AdmittedDispatch}
    (h : (stageBody options turn state admitted w stage).2 = .ok committed) :
    Led runId (rank stage.cursor + 1) (stageBody options turn state admitted w stage).1.store
      committed.snapshot := by
  cases stage with
  | selectAgent =>
      simp only [stageBody, selectAgentStage] at h ⊢
      split at h
      · cases h
      · exact withEvidence_led h fun _ hadvance => advanceWithEvidence_led hadvance
  | executeAgent winnerAgentId =>
      simp only [stageBody, executeAgentStage] at h ⊢
      split at h
      · cases h
      · split at h
        · cases h
        · refine withEvidence_led h fun evidence h => ?_
          split at h
          · cases h
          · exact advanceWithEvidence_led h
  | council =>
      simp only [stageBody, councilStage] at h ⊢
      split at h
      · cases h
      · split at h
        · cases h
        · exact withEvidence_led h fun _ hadvance => advanceWithEvidence_led hadvance
  | gate changesetRef expectedSha256 =>
      simp only [stageBody, gateStage] at h ⊢
      split at h
      · cases h
      · split at h
        · cases h
        · refine withEvidence_led h fun evidence h => ?_
          split at h
          · next hdenied =>
              simp only [hdenied, if_true]
              exact failWithEvidence_led h
          · next hallowed =>
              simp only [hallowed, if_false]
              exact advanceWithEvidence_led h
  | deliver =>
      simp only [stageBody, deliverStage] at h ⊢
      split at h
      · cases h
      · exact withEvidence_led h fun _ hadvance => advanceWithEvidence_led hadvance

theorem settle_ended {dispatch : Option SapExecuteDispatch} {error : StageError}
    (h : (settle options turn dispatch cursor error w).2 = .ok snapshot) :
    Ended runId (settle options turn dispatch cursor error w).1.store := by
  unfold settle at h ⊢
  dsimp only at h ⊢
  split at h
  · cases h
  · obtain ⟨result, hresult, _⟩ := mapped_eq_ok.mp h
    exact interruptRun_ended hresult
  · obtain ⟨result, hresult, _⟩ := mapped_eq_ok.mp h
    exact finishRun_ended hresult
  · split at h
    · cases h
    · obtain ⟨result, hresult, _⟩ := bind_eq_ok.mp h
      exact failStage_ended hresult

/-- The executor of a stage is invoked only when the Run is not ahead of it, and a stage that
returned has invoked it. -/
structure Orderly (runId : String) (n : Nat) (cursor : TaskResumeCursor) (run : StageRun π) :
    Prop where
  invoked : run.invoked = true → n ≤ rank cursor
  returned : ∀ snapshot, run.result = .ok snapshot →
    run.invoked = true ∧ Led runId (rank cursor + 1) run.world.store snapshot

theorem Orderly.stopped {stop : StageStop} :
    Orderly runId n cursor ({ world := w, invoked := false, result := .error stop } : StageRun π) :=
  ⟨fun h => (by cases h), fun _ h => (by cases h)⟩

theorem executeStage_orderly (hahead : Everywhere (Ahead runId n) w.store) :
    Orderly runId n stage.cursor (executeStage options turn state stage w) := by
  unfold executeStage
  split
  · exact .stopped
  · next dispatch _ =>
      dsimp only
      split
      · exact .stopped
      · next hstarted =>
          obtain ⟨result, hresult, _⟩ := bind_eq_ok.mp hstarted
          have hrank : n ≤ rank stage.cursor := startStage_rank hresult hahead
          split
          · exact .stopped
          · next admitted w' _ =>
              split
              · exact .stopped
              · split
                · next committed hcommitted =>
                    refine ⟨fun _ => hrank, fun snapshot h => ⟨rfl, ?_⟩⟩
                    cases h
                    exact stageBody_led hcommitted
                · next error _ =>
                    refine ⟨fun _ => hrank, fun snapshot h => ⟨rfl, ?_⟩⟩
                    cases hsettled : (settle options turn dispatch stage.cursor error
                      (stageBody options turn state admitted
                        (serve options.bridges turn.during w') stage).1).2 with
                    | error e =>
                        rw [hsettled] at h
                        cases h
                    | ok snapshot => exact (settle_ended hsettled).led

end

/-! ## The loop -/

/-- The Run is over, or its Task stands where the loop has nothing to do. -/
def AtRest (runId : String) (store : CoordinationStore) : Prop :=
  Ended runId store ∨ ∃ record ∈ store.tables.records, (∃ run ∈ record.runs, run.runId = runId) ∧
    record.runtimeState.resumeCursor ∈ [.done, .mailboxWait]

instance (runId : String) (store : CoordinationStore) : Decidable (Ended runId store) :=
  inferInstanceAs (Decidable (∃ record ∈ store.tables.records, _))

instance (runId : String) (store : CoordinationStore) : Decidable (AtRest runId store) :=
  inferInstanceAs (Decidable (_ ∨ ∃ record ∈ store.tables.records, _))

section
variable {options : LoopOptions π} {taskId runId : String} {n : Nat}

theorem readTurn_ok {signal : Signal} {store : CoordinationStore} {state : RunExecutionState}
    {input : TaskCursorInput} (h : readTurn taskId runId signal store = .ok (state, input)) :
    ∃ record ∈ store.tables.records, (∃ run ∈ record.runs, run.runId = runId) ∧
      record.runtimeState.resumeCursor = input.cursor := by
  simp only [readTurn, getRunExecutionState, requireCursorInput, bind_eq_ok, pure_eq_ok,
    orThrow_eq_ok, Option.filter_eq_some_iff] at h
  obtain ⟨_, _, _, ⟨aggregate, hagg, run, hrun, rfl⟩, _, _, _, ⟨_, hcursor⟩, heq⟩ := h
  obtain ⟨record, hmem, rfl⟩ := requireAggregateForRun_ok hagg
  cases heq
  exact ⟨record, hmem, ⟨run, requireRun_ok hrun⟩, (of_decide_eq_true hcursor).symm⟩

theorem ofResult_ne_unfinished {returned : TaskSnapshot → LoopEnd}
    {result : Except Thrown TaskSnapshot} (h : ∀ snapshot, returned snapshot ≠ .unfinished) :
    LoopEnd.ofResult returned result ≠ .unfinished := by
  cases result with
  | error e => exact fun h => (by cases h)
  | ok snapshot => exact h snapshot

structure Rises (runId : String) (n : Nat) (turns : Nat) (run : LoopRun π) : Prop where
  ahead : ∀ cursor ∈ run.invoked, n ≤ rank cursor
  rising : run.invoked.Pairwise fun cursor next => rank cursor < rank next
  few : n + run.invoked.length ≤ 5
  unfinished : run.ended = .unfinished → run.invoked.length = turns
  returned : ∀ snapshot, run.ended = .returned snapshot → AtRest runId run.world.store

variable {w : World π}

theorem Rises.ends {invoked : Bool} {ended : LoopEnd} (hn : n ≤ 5)
    (hlater : invoked = true → n ≤ rank stage.cursor) (hended : ended ≠ .unfinished)
    (hreturned : ∀ snapshot, ended = .returned snapshot → AtRest runId w.store) :
    Rises runId n turns
      { world := w, invoked := if invoked then [stage.cursor] else [], ended } := by
  have hstage := stage.rank_lt
  cases invoked with
  | false => exact ⟨by simp, by simp, hn, fun h => absurd h hended, hreturned⟩
  | true =>
      have hle := hlater rfl
      refine ⟨by simpa using hle, by simp, ?_, fun h => absurd h hended, hreturned⟩
      show n + 1 ≤ 5
      omega

theorem Rises.cons {rest : LoopRun π} (hle : n ≤ rank stage.cursor)
    (h : Rises runId (rank stage.cursor + 1) turns rest) :
    Rises runId n (turns + 1) { rest with invoked := stage.cursor :: rest.invoked } where
  ahead cursor hcursor := by
    rcases List.mem_cons.mp hcursor with rfl | hrest
    · exact hle
    · exact (hle.trans (Nat.le_succ _)).trans (h.ahead cursor hrest)
  rising := List.pairwise_cons.mpr ⟨h.ahead, h.rising⟩
  few := by
    have hfew := h.few
    simp only [List.length_cons]
    omega
  unfinished hended := by
    rw [List.length_cons, h.unfinished hended]
  returned := h.returned

/-- By induction on the turns: what is invoked from here on is not behind the Run. -/
theorem runStages_rises (turns : List (Turn runId)) (hn : n ≤ 5)
    (hahead : Everywhere (Ahead runId n) w.store) :
    Rises runId n turns.length (runStages options taskId turns w) := by
  induction turns generalizing w n with
  | nil =>
      unfold runStages
      exact ⟨by simp, by simp, hn, fun _ => rfl, fun _ h => (by cases h)⟩
  | cons turn turns ih =>
      unfold runStages
      dsimp only
      have hserved : Everywhere (Ahead runId n) (serve options.bridges turn.before w).store :=
        serve_ahead hn hahead
      generalize serve options.bridges turn.before w = w at hserved
      cases hread : readTurn taskId runId turn.signalBefore w.store with
      | error e => exact ⟨by simp, by simp, hn, fun h => (by cases h), fun _ h => (by cases h)⟩
      | ok read =>
          obtain ⟨state, input⟩ := read
          dsimp only
          cases hstage : StageInput.ofCursorInput input with
          | none =>
              refine ⟨by simp, by simp, hn, fun h => ?_, fun snapshot h => ?_⟩
              · exact absurd h (ofResult_ne_unfinished fun _ h => (by cases h))
              · -- such an input is for `done` or `mailbox_wait`
                obtain ⟨record, hmem, hrun, hcursor⟩ := readTurn_ok hread
                refine .inr ⟨record, hmem, hrun, ?_⟩
                rw [hcursor]
                exact StageInput.cursor_of_none hstage
          | some stage =>
              dsimp only
              have horderly : Orderly runId n stage.cursor
                  (executeStage options turn state stage w) := executeStage_orderly hserved
              generalize executeStage options turn state stage w = run at horderly
              split
              · exact .ends hn horderly.invoked (fun h => (by cases h)) fun _ h => (by cases h)
              · refine .ends hn horderly.invoked ?_ fun snapshot h => ?_
                · exact ofResult_ne_unfinished fun _ h => (by cases h)
                · -- a stage that is claimed elsewhere is no end of the Run
                  cases hshown : getTaskSnapshot run.world.store taskId <;>
                    rw [hshown] at h <;> cases h
              · next snapshot hreturned =>
                  split
                  · obtain ⟨hinvoked, hled, _⟩ := horderly.returned snapshot hreturned
                    simp only [hinvoked, if_true]
                    exact .cons (horderly.invoked hinvoked) (ih stage.rank_lt hled)
                  · next hstopped =>
                      obtain ⟨_, _, hover⟩ := horderly.returned snapshot hreturned
                      refine .ends hn horderly.invoked ?_ fun _ _ => .inl (hover hstopped)
                      exact fun h => (by cases h)

end

def selecting : StageExecutors where
  selectAgent := .ok { winnerAgentId := "a" }
  executeAgent := .error (.error "stopped")
  council := .error (.error "stopped")
  gate := .error (.error "stopped")
  deliver := .error (.error "stopped")

def selectTurn : Turn "r" where
  invocationId := "i"
  bridgeTime := "2"
  startEnv := stoppedEnv '2'
  executors := selecting
  evidence := .ok { uri := "e", sha256 := zeroSha256 }
  commitEnv := stoppedEnv '3'
  settleEnv := stoppedEnv '4'

/-- An event of an executor that is recorded after its stage. -/
def lateEvent : OtherCall "r" :=
  ⟨⟨stoppedEnv '5', .recordRunEvent "r"
      { eventId := "5l", eventType := "gate.result", subjectId := "r", runId := some "r"
        taskId := some "t", payload := [], createdAt := "5" }⟩,
    fun h => (by cases h), fun _ h => (by cases h)⟩

def lateTurns : List (Turn "r") :=
  [selectTurn, { selectTurn with before := [lateEvent] }]

end Newide.ExecutionLoop
