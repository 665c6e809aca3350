import Newide.RowInvariants

/-!
# The life of a Run

What a commit may do to a Task seen from outside its stages: begin a Run,
keep the current one going, end it, or change the Task's status past it.
`TaskCommit.effect` shows that the commits of the processor are nothing
else.  The properties about which Run is active are proved over these
five effects.
-/

namespace Newide

open CoordinationStore

/-- The effect of a commit on the Task's status and on which of its Runs are active. -/
inductive RunEffect (op : Operation) : Option TaskRecord → CoordinationStateCommit → Prop where
  /-- A new Run is active, on a Task where none was. -/
  | begins {old : Option TaskRecord} {input : CoordinationStateCommit}
      {request : BeginTaskRunInput} {run : PersistedRunState} (hop : op = .beginRun request)
      (hidle : ∀ x ∈ oldRuns old, isActiveRun x = false) (hrun : input.run = some run)
      (hid : run.runId = request.runId) (hactive : isActiveRun run = true)
      (hstatus : input.task.status = .running)
      (hcurrent : input.runtimeState.currentRunId = some run.runId)
      (hout : input.task.finalOutput = none) : RunEffect op old input
  /-- The status, the current Run and what is active stay. -/
  | keeps {record : TaskRecord} {input : CoordinationStateCommit}
      (hstatus : input.task.status = record.task.status)
      (hcurrent : input.runtimeState.currentRunId = record.runtimeState.currentRunId)
      (hout : input.task.finalOutput = record.task.finalOutput)
      (hrun : ∀ w ∈ input.run, ∃ run ∈ record.runs,
        run.runId = w.runId ∧ isActiveRun w = isActiveRun run) : RunEffect op (some record) input
  /-- The active Run ends, and the Task with it stops running. -/
  | ends {record : TaskRecord} {input : CoordinationStateCommit} {run w : PersistedRunState}
      (hmem : run ∈ record.runs) (hactive : isActiveRun run = true) (hrun : input.run = some w)
      (hid : w.runId = run.runId) (hover : isActiveRun w = false)
      (hstatus : input.task.status ≠ .running) : RunEffect op (some record) input
  /-- A deadlock blocks the Task and looks at no Run. -/
  | blocks {record : TaskRecord} {input : CoordinationStateCommit} {reason : String}
      (hop : op = .blockMailboxDeadlock record.taskId reason) (hrun : input.run = none)
      (hstatus : input.task.status = .blocked)
      (hcurrent : input.runtimeState.currentRunId = record.runtimeState.currentRunId)
      (hout : input.task.finalOutput = record.task.finalOutput) :
      RunEffect op (some record) input
  /-- A timeout fails the Task and looks at no Run. -/
  | expires {record : TaskRecord} {input : CoordinationStateCommit} {reason : String}
      (hop : op = .expireMailboxWait record.taskId reason) (hrun : input.run = none)
      (hstatus : input.task.status = .failed) : RunEffect op (some record) input

variable {x : PersistedRunState}

section
variable {store after : CoordinationStore} {env : Env} {op : Operation}
  {old : Option TaskRecord} {input : CoordinationStateCommit} {last : Nat}

variable {record : TaskRecord} {run : PersistedRunState}

/-- An advance ends the Run when it reaches `done`, and keeps it going otherwise. -/
theorem advanceStageCommit_effect
    {request : AdvanceTaskStageInput} {nextInput : TaskCursorInput} {event : Event}
    (howns : Owns store record run request.runId) :
    RunEffect op (some record)
      (advanceStageCommit env record.aggregate run request nextInput event) := by
  by_cases hdone : nextInput.cursor = .done
  · refine .ends howns.run_mem howns.active rfl ?_ ?_ ?_
    · simp [advancedRun, hdone]
    · simp [advancedRun, hdone, isActiveRun]
    · simp [advanceStageCommit, advancedTask, hdone]
  · refine .keeps ?_ ?_ ?_ ?_
    · simp [advanceStageCommit, advancedTask, hdone]
    · simp [advanceStageCommit, advancedRuntimeState, hdone, howns.current, howns.run_id]
    · simp [advanceStageCommit, advancedTask, hdone]
    · intro w hw
      cases hw
      exact ⟨run, howns.run_mem, by simp [advancedRun, hdone], by simp [advancedRun, hdone, isActiveRun]⟩

theorem TaskCommit.effect (h : TaskCommit store env op old input) : RunEffect op old input := by
  have touch : ∀ {record : TaskRecord} {run : PersistedRunState} {w : PersistedRunState},
      run ∈ record.runs → w.runId = run.runId → w.status = run.status →
      ∀ w' ∈ some w, ∃ run ∈ record.runs, run.runId = w'.runId ∧ isActiveRun w' = isActiveRun run := by
    intro record run w hmem hid hstatus w' hw'
    cases hw'
    exact ⟨run, hmem, hid.symm, by simp [isActiveRun, hstatus]⟩
  cases h with
  | beginNew => exact .begins rfl (by simp [oldRuns]) rfl rfl rfl rfl rfl rfl
  | beginExisting hrec hidle =>
      refine .begins rfl (fun x hx => ?_) rfl rfl rfl rfl rfl rfl
      simpa using List.filter_eq_nil_iff.mp hidle x hx
  | startStage hat => exact .keeps rfl rfl rfl (touch hat.run_mem rfl rfl)
  | councilReceipt hop hacts => exact .keeps rfl rfl rfl (touch hacts.run_mem rfl rfl)
  | advance h => exact advanceStageCommit_effect h.at_stage.toOwns
  | fail hat =>
      exact .ends hat.run_mem hat.active rfl rfl rfl (by simp [failStageCommit])
  | override howns => exact .keeps rfl rfl rfl (touch howns.run_mem rfl rfl)
  | runEvent hacts => exact .keeps rfl rfl rfl (touch hacts.run_mem rfl rfl)
  | mailboxWait howns =>
      exact .ends howns.run_mem howns.active rfl rfl rfl
        (by simp [completeRunForMailboxWaitCommit])
  | block hrec =>
      exact .blocks (by rw [record?_taskId hrec]) rfl rfl rfl rfl
  | expire hrec =>
      exact .expires (by rw [record?_taskId hrec]) rfl rfl
  | interrupt hop hacts hactive =>
      exact .ends hacts.run_mem hactive rfl rfl rfl (by simp [interruptCommit])
  | @finish request record run hacts hactive =>
      refine .ends hacts.run_mem hactive rfl rfl ?_ ?_
      · cases request.status <;> simp [FinishStatus.toRunStatus, isActiveRun]
      · cases hs : request.status <;> simp [finishRunCommit, hs, FinishStatus.toTaskStatus]
  | safepoint hop hacts => exact .keeps rfl rfl rfl (touch hacts.run_mem rfl rfl)
  | restore hrec => exact .keeps rfl rfl rfl (by simp [workspaceRestoreCommit])

theorem TaskCommit.beginRun_eq {request : BeginTaskRunInput}
    (h : TaskCommit store env (.beginRun request) old input) :
    input = beginRunCommit env request (old.map (·.aggregate)) ∧
      input.task.taskId = request.taskId := by
  generalize hop : Operation.beginRun request = op at h
  cases h with
  | beginNew =>
      cases hop
      exact ⟨rfl, rfl⟩
  | beginExisting hrec =>
      cases hop
      exact ⟨rfl, record?_taskId hrec⟩
  | startStage | advance | fail | override | runEvent | mailboxWait | block | expire | finish
  | restore => cases hop
  | councilReceipt hop' =>
      subst hop
      cases hop'
  | interrupt hop' =>
      subst hop
      rcases hop' with ⟨_, hop', _⟩ | ⟨hop', _⟩ <;> cases hop'
  | safepoint hop' =>
      subst hop
      rcases hop' with ⟨hop', _⟩ | ⟨⟨_, hop', _⟩, _⟩ <;> cases hop'

/-! ## The active Runs of a written record -/

theorem active_unique (hmem : record ∈ store.tables.records)
    {a b : PersistedRunState} (ha : a ∈ record.runs) (hb : b ∈ record.runs)
    (hactA : isActiveRun a = true) (hactB : isActiveRun b = true) : a = b :=
  (store.constraints.record_runs_distinct hmem).eq_of_key ha hb
    (store.constraints.one_active record hmem a ha b hb hactA hactB)

theorem active_recordAfter (hold : store.record? input.task.taskId = old)
    (hx : x ∈ (recordAfter old input last).runs) (hactive : isActiveRun x = true) :
    (∃ run, input.run = some run ∧ x = readRun run ∧ isActiveRun run = true) ∨
      (x ∈ oldRuns old ∧ ∀ run, input.run = some run → x.runId ≠ run.runId) := by
  rcases (mem_recordAfter_runs hold).mp hx with ⟨run, hrun, rfl⟩ | ⟨hx, hne⟩
  · exact .inl ⟨run, hrun, rfl, hactive⟩
  · exact .inr ⟨hx, hne⟩

theorem ends_idle {w : PersistedRunState} (hold : store.record? input.task.taskId = some record)
    (hmem : run ∈ record.runs) (hactive : isActiveRun run = true) (hrun : input.run = some w)
    (hid : w.runId = run.runId) (hover : isActiveRun w = false) :
    ∀ x ∈ (recordAfter (some record) input last).runs, isActiveRun x = false := by
  intro x hx
  by_contra hact
  have hact : isActiveRun x = true := by simpa using hact
  rcases active_recordAfter hold hx hact with ⟨w', hw', _, hactw⟩ | ⟨hxold, hne⟩
  · rw [hrun] at hw'
    cases hw'
    rw [hover] at hactw
    cases hactw
  · have heq := active_unique (record?_mem hold) hxold hmem hact hactive
    exact hne w hrun (heq ▸ hid.symm)

/-- Only beginning a Run makes one active: an active Run after any other commit was active. -/
theorem active_before (heff : RunEffect op old input) (hold : store.record? input.task.taskId = old)
    (hop : ∀ request, op ≠ .beginRun request) (hx : x ∈ (recordAfter old input last).runs)
    (hactive : isActiveRun x = true) :
    ∃ run ∈ oldRuns old, run.runId = x.runId ∧ isActiveRun run = true := by
  rcases active_recordAfter hold hx hactive with ⟨w, hw, rfl, hactw⟩ | ⟨hxold, _⟩
  · cases heff with
    | begins hop' => exact absurd hop' (hop _)
    | keeps hs hc hout hrun =>
        obtain ⟨run, hmem, hid, heq⟩ := hrun w hw
        exact ⟨run, hmem, hid, heq ▸ hactw⟩
    | ends hmem hactive hrun hid hover =>
        rw [hrun] at hw
        cases hw
        rw [hover] at hactw
        cases hactw
    | blocks hop' hrun | expires hop' hrun =>
        rw [hrun] at hw
        cases hw
  · exact ⟨x, hxold, rfl, hactive⟩

theorem idle_of_effect (heff : RunEffect op old input)
    (hold : store.record? input.task.taskId = old) (hop : ∀ request, op ≠ .beginRun request)
    (hidle : ∀ x ∈ oldRuns old, isActiveRun x = false) :
    ∀ x ∈ (recordAfter old input last).runs, isActiveRun x = false := by
  intro x hx
  by_contra hact
  obtain ⟨run, hrun, _, hactive⟩ := active_before heff hold hop hx (by simpa using hact)
  rw [hidle run hrun] at hactive
  cases hactive

theorem mem_activeRuns :
    run ∈ record.activeRuns ↔ run ∈ record.runs ∧ isActiveRun run = true := by
  simp [PersistedTaskAggregate.activeRuns]

theorem activeRuns_eq_nil :
    record.activeRuns = [] ↔ ∀ run ∈ record.runs, isActiveRun run = false := by
  simp [PersistedTaskAggregate.activeRuns]

theorem activeRuns_length (hmem : record ∈ store.tables.records)
    (hrun : run ∈ record.runs) (hactive : isActiveRun run = true) :
    record.activeRuns.length = 1 := by
  have hnodup : record.activeRuns.Nodup :=
    (List.Nodup.of_map _ (store.constraints.record_runs_distinct hmem)).filter _
  have hall : ∀ x ∈ record.activeRuns, x = run := fun x hx =>
    have hx := mem_activeRuns.mp hx
    active_unique hmem hx.1 hrun hx.2 hactive
  match hl : record.activeRuns with
  | [] => exact absurd (hl ▸ mem_activeRuns.mpr ⟨hrun, hactive⟩) List.not_mem_nil
  | [_] => rfl
  | a :: b :: _ =>
      rw [hl] at hnodup hall
      have hab : a = b := (hall a (by simp)).trans (hall b (by simp)).symm
      exact absurd (hab ▸ List.mem_cons_self ..) (List.nodup_cons.mp hnodup).1

/-! ## Exits of idle Tasks -/

/-- The call is no exit of the kind `exit?` names, or the Task it exits has no active Run. -/
def ExitIdle (exit? : Operation → Option String) (call : Call) (store : CoordinationStore) :
    Prop :=
  ∀ record ∈ store.tables.records, exit? call.op = some record.taskId → record.activeRuns = []

instance (exit? : Operation → Option String) (call : Call) (store : CoordinationStore) :
    Decidable (ExitIdle exit? call store) :=
  inferInstanceAs (Decidable (∀ record ∈ store.tables.records, _ → _))

theorem exitIdle_step {exit? : Operation → Option String} {call : Call}
    (hbegin : ∀ request, exit? (.beginRun request) = none)
    (hdelete : ∀ taskId, exit? (.deleteTask taskId) = none)
    (h : StoreStep call.op call.env store after) (hexit : ExitIdle exit? call store) :
    ExitIdle exit? call after := by
  intro record hmem hop
  have hne : ∀ request, call.op ≠ .beginRun request := by
    intro request heq
    rw [heq, hbegin] at hop
    cases hop
  cases h with
  | commit hc hstore =>
      rcases mem_records_after hc.old_eq hstore hmem with rfl | ⟨hold, _⟩
      · refine activeRuns_eq_nil.mpr (idle_of_effect hc.effect hc.old_eq hne ?_)
        cases hc.effect with
        | begins hop' => exact absurd hop' (hne _)
        | keeps | ends | blocks | expires =>
            have hid := record?_taskId hc.old_eq
            refine activeRuns_eq_nil.mp (hexit _ (record?_mem hc.old_eq) ?_)
            rw [hid]
            simpa [TaskRecord.taskId, readTask] using hop
      · exact hexit record hold hop
  | delete hdel _ =>
      rw [hdel, hdelete] at hop
      cases hop
  | protocol => exact hexit record hmem hop

end

end Newide
