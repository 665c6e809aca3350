import Newide.Beginning
import Newide.Recovery

/-!
# Resuming an interrupted Run

The context of a resume is read back from the checkpoint the
interruption left, and the Run begun from it stands where the
interrupted one stood: same cursor, same input, same mode.
-/

namespace Newide

open Fallible CoordinationStore

variable {π : Type}

/-- The request `resumeTask` hands to `startTaskLoopRun`, and that to `beginRun`. -/
def resumeRequest (context : TaskResumeContext) (taskId runId workspacePath : String) :
    BeginTaskRunInput where
  taskId
  runId
  taskRequest := context.taskRequest
  workspacePath
  mode := context.mode
  memoryAblation := context.memoryAblation
  sessionId := truthy context.sessionId
  restartedFromRunId := truthy (some context.interruptedRunId)
  resumeCheckpointId := truthy (some context.checkpointId)
  requestedResumeCursor := some context.resumeCursor
  cursorInput := some context.cursorInput
  runIntent := some (.checkpointResume .fromCheckpoint)

structure ResumesRun (context : TaskResumeContext) (record : TaskRecord) (run : PersistedRunState)
    (i : TaskCursorInput) (checkpointId : String) : Prop where
  request : context.taskRequest =
    { storedTaskRequest record.task with
      allowAgentCouncil := context.taskRequest.allowAgentCouncil }
  workspace : context.workspacePath = record.task.workspacePath
  checkpoint : context.checkpointId = checkpointId
  cursor : context.resumeCursor = record.runtimeState.resumeCursor
  input : context.cursorInput = i
  mode : context.mode = run.mode
  run : context.interruptedRunId = run.runId

section
variable {env env' : Env} {store final : CoordinationStore} {record : TaskRecord}
  {run : PersistedRunState} {input : InterruptRunInput} {i : TaskCursorInput}

theorem interruptCheckpoint_cursorInput (hkept : WellKept record)
    (hi : record.runtimeState.cursorInput = some i) {latest : Option PersistedFullCheckpoint} :
    (readCheckpoint (interruptCheckpoint env record.aggregate run input latest)).cursorInput =
      some i := by
  obtain ⟨hwf, hcursor⟩ := hkept.cursor i hi
  show (safepointCursorInput record.aggregate run.runId).bind _ = _
  rw [safepointCursorInput_of_stored hi hcursor, Option.bind_some,
    parseTaskCursorInput_of_wellFormed hwf]
  rfl

theorem checkParticipant_ok {aggregate : PersistedTaskAggregate}
    {registry : Option ParticipantSessionRegistry}
    {participant : PersistedCheckpointParticipantSession} (h : registry = none) :
    checkParticipant aggregate registry participant = .ok () := by
  subst h
  exact ensure_eq_ok.mpr fun _ hbound => by cases hbound

theorem LeftInterrupted.context (h : LeftInterrupted env record run input final)
    (hrun : run ∈ record.runs) (hactive : isActiveRun run = true)
    (hi : record.runtimeState.cursorInput = some i) (hids : i.deliveryIds? ≠ some [])
    (hregistry : env'.participantSessions = none) :
    ∃ context k mid, Ready (env.shift k) mid ∧ record ∈ mid.tables.records ∧
      final.record? record.taskId = some (interruptedRecord (env.shift k) mid record run input) ∧
      final.getLatestCheckpoint record.taskId = some (readCheckpoint
        (interruptCheckpoint (env.shift k) record.aggregate run input
          (mid.getLatestCheckpoint record.taskId))) ∧
      getTaskResumeContext env' final record.taskId = .ok context ∧
      ResumesRun context record run i ((env.shift k).createCheckpointId 0) := by
  obtain ⟨k, mid, hready, hmem, hrec, hlatest⟩ := h.latest hrun hactive
  have hkept := hready.kept record hmem
  obtain ⟨hwf, hcursor⟩ := hkept.cursor i hi
  have hagg := getTaskAggregate_of_record hrec
  have hfound : (interruptedRecord (env.shift k) mid record run input).aggregate.run? run.runId =
      some (interruptedRun (env.shift k) run) :=
    (final.constraints.record_runs_distinct (record?_mem hrec)).lookup_of_mem
      ((mem_interrupted_runs hmem).mpr (.inl rfl))
  set aggregate := (interruptedRecord (env.shift k) mid record run input).aggregate
  set checkpoint := readCheckpoint (interruptCheckpoint (env.shift k) record.aggregate run input
    (mid.getLatestCheckpoint record.taskId))
  have hresolve : resolveResumeCursorInput aggregate checkpoint = .ok i :=
    resolveResumeCursorInput_of_stored (interruptCheckpoint_cursorInput hkept hi) hwf hcursor hids
  have hpackage : ∃ package, buildResumePackage env' final record.taskId = .ok package ∧
      package.taskRequest = storedTaskRequest record.task ∧
      package.workspacePath = record.task.workspacePath ∧
      package.checkpointId = (env.shift k).createCheckpointId 0 ∧
      package.resumeCursor = record.runtimeState.resumeCursor ∧ package.cursorInput = i ∧
      package.mode = run.mode ∧ package.interruptedRunId = run.runId := by
    refine ⟨_, bind_eq_ok.mpr ⟨aggregate, orThrow_eq_ok.mpr hagg, bind_eq_ok.mpr ⟨checkpoint,
      orThrow_eq_ok.mpr hlatest, bind_eq_ok.mpr ⟨(), ensure_eq_ok.mpr rfl, bind_eq_ok.mpr
      ⟨_, orThrow_eq_ok.mpr hfound, bind_eq_ok.mpr ⟨i, hresolve, bind_eq_ok.mpr
      ⟨(), forM_eq_ok.mpr fun p _ => checkParticipant_ok hregistry, rfl⟩⟩⟩⟩⟩⟩, ?_⟩
    refine ⟨?_, rfl, rfl, rfl, rfl, rfl, rfl⟩
    simp [storedTaskRequest, aggregate, interruptedRecord, TaskRecord.write, writeRecord, readTask,
      interruptCommit]
  obtain ⟨package, hpackage, hrequest, hworkspace, hid, hcur, hinput, hmode, hsource⟩ := hpackage
  refine ⟨_, k, mid, hready, hmem, hrec, hlatest, bind_eq_ok.mpr ⟨package, hpackage, rfl⟩, ?_⟩
  exact ⟨by rw [← hrequest], hworkspace, hid, hcur, hinput, hmode, hsource⟩

theorem planBeginRun_resume (env' : Env) (runId : String) {context : TaskResumeContext}
    {mid : CoordinationStore} (hmem : record ∈ mid.tables.records) (hrun : run ∈ record.runs)
    (hactive : isActiveRun run = true) (hkept : WellKept record)
    (hi : record.runtimeState.cursorInput = some i) (hnamed : run.runId ≠ "")
    (hid : env.createCheckpointId 0 ≠ "")
    (hrec : final.record? record.taskId = some (interruptedRecord env mid record run input))
    (hlatest : final.getLatestCheckpoint record.taskId = some (readCheckpoint
      (interruptCheckpoint env record.aggregate run input
        (mid.getLatestCheckpoint record.taskId))))
    (hcontext : ResumesRun context record run i (env.createCheckpointId 0)) :
    planBeginRun (π := π) env'
        (resumeRequest context record.taskId runId record.task.workspacePath) final =
      .ok (.commit
        { taskId := record.taskId
          commit := beginRunCommit env'
            (resumeRequest context record.taskId runId record.task.workspacePath)
            (some (interruptedRecord env mid record run input).aggregate) }) := by
  obtain ⟨hwf, hcursor⟩ := hkept.cursor i hi
  have hagg : final.getTaskAggregate
      (resumeRequest context record.taskId runId record.task.workspacePath).taskId =
        some (interruptedRecord env mid record run input).aggregate :=
    getTaskAggregate_of_record hrec
  have hidle := interrupted_idle env input hmem hrun hactive
  have hfound : (interruptedRecord env mid record run input).aggregate.run? run.runId =
      some (interruptedRun env run) :=
    (final.constraints.record_runs_distinct (record?_mem hrec)).lookup_of_mem
      ((mem_interrupted_runs hmem).mpr (.inl rfl))
  have hsource : truthy (some context.interruptedRunId) = some run.runId := by
    rw [hcontext.run]
    exact truthy_of_ne hnamed
  have hresume : truthy (some context.checkpointId) = some (env.createCheckpointId 0) := by
    rw [hcontext.checkpoint]
    exact truthy_of_ne hid
  have hdefinition : assertImmutableTaskDefinition
      (interruptedRecord env mid record run input).task context.taskRequest
      record.task.workspacePath = .ok () := by
    rw [hcontext.request]
    simp [assertImmutableTaskDefinition, storedTaskRequest, interruptedRecord, TaskRecord.write,
      writeRecord, readTask, interruptCommit]
  have hintent : assertCheckpointResumeIntent (interruptedRecord env mid record run input).aggregate
      (resumeRequest context record.taskId runId record.task.workspacePath) i .fromCheckpoint
      (final.getLatestCheckpoint record.taskId) = .ok () := by
    rw [hlatest]
    refine bind_eq_ok.mpr ⟨readCheckpoint (interruptCheckpoint env record.aggregate run input
      (mid.getLatestCheckpoint record.taskId)), orThrow_eq_ok.mpr ?_, ?_⟩
    · refine Option.filter_eq_some_iff.mpr ⟨rfl, decide_eq_true ⟨hresume, ?_⟩⟩
      exact congrArg some hcontext.cursor
    · refine bind_eq_ok.mpr ⟨(), assertTaskRunStartTransition_eq_ok.mpr rfl, bind_eq_ok.mpr
        ⟨(), ensure_eq_ok.mpr hsource, bind_eq_ok.mpr ⟨interruptedRun env run,
          orThrow_eq_ok.mpr ?_, bind_eq_ok.mpr ⟨(), ensure_eq_ok.mpr hcontext.mode,
          ensure_eq_ok.mpr hcursor⟩⟩⟩⟩
      exact Option.filter_eq_some_iff.mpr ⟨hfound, rfl⟩
  simp only [planBeginRun, hagg, bind_eq_ok, pure_eq_ok, ensure_eq_ok, forM_eq_ok]
  refine ⟨(), ?_, ⟨⟩, ?_, (), ?_, rfl⟩
  · rintro aggregate ha
    cases ha
    exact Option.isNone_iff_eq_none.mpr (List.find?_eq_none.mpr fun x hx => by
      simpa using hidle x hx)
  · intro aggregate ha
    rw [Option.toList_some, List.mem_singleton] at ha
    subst ha
    exact hdefinition
  · have hparsed : context.cursorInput.WellFormed := hcontext.input ▸ hwf
    refine bind_eq_ok.mpr ⟨context.cursorInput, ?_, ?_⟩
    · exact parseTaskCursorInput_of_wellFormed hparsed
    · show assertCheckpointResumeIntent _ _ context.cursorInput _ _ = _
      rw [hcontext.input]
      exact hintent

theorem LeftInterrupted.resume (bridges : Bridges π) {w : World π}
    {contextEnv resumeEnv : Env} {runId : String}
    (h : LeftInterrupted env record run input w.store) (hrun : run ∈ record.runs)
    (hactive : isActiveRun run = true) (hi : record.runtimeState.cursorInput = some i)
    (hids : i.deliveryIds? ≠ some []) (hcheckpoint : ∀ k, env.createCheckpointId k ≠ "")
    (hregistry : contextEnv.participantSessions = none) (hevents : EventsKnown w.store)
    (hsupplies : Supplies resumeEnv w.store) (hrunId : runId ≠ "")
    (hfresh : ∀ x ∈ w.store.tables.runs, x.runId ≠ runId) :
    ∃ context k mid w',
      getTaskResumeContext contextEnv w.store record.taskId = .ok context ∧
      ResumesRun context record run i ((env.shift k).createCheckpointId 0) ∧
      record ∈ mid.tables.records ∧
      interruptedRecord (env.shift k) mid record run input ∈ w.store.tables.records ∧
      exec bridges resumeEnv w (.beginRun
        (resumeRequest context record.taskId runId record.task.workspacePath)) =
          { commits := [w'], result := .ok () } ∧
      w'.store.record? record.taskId = some (begunRecord resumeEnv w.store
        (interruptedRecord (env.shift k) mid record run input)
        (resumeRequest context record.taskId runId record.task.workspacePath)) ∧
      Readable (begunRecord resumeEnv w.store
        (interruptedRecord (env.shift k) mid record run input)
        (resumeRequest context record.taskId runId record.task.workspacePath)).aggregate ∧
      ∀ taskId, taskId ≠ record.taskId → w'.store.record? taskId = w.store.record? taskId := by
  obtain ⟨context, k, mid, hready, hmem, hrec, hlatest, hcontext, hresumes⟩ :=
    h.context hrun hactive hi hids hregistry
  have hkept := hready.kept record hmem
  have hreadable := (hready.active record hmem
    (List.ne_nil_of_mem (mem_activeRuns.mpr ⟨hrun, hactive⟩))).readable
  have hnamed : run.runId ≠ "" := (hreadable.runs run hrun).named
  have hplan := planBeginRun_resume (π := π) resumeEnv runId hmem hrun hactive
    hkept hi hnamed (hcheckpoint (k + 0)) hrec hlatest hresumes
  have hafter : interruptedRecord (env.shift k) mid record run input ∈ w.store.tables.records :=
    record?_mem hrec
  have hbegins : BeginsFresh resumeEnv w.store
      (interruptedRecord (env.shift k) mid record run input)
      (resumeRequest context record.taskId runId record.task.workspacePath) :=
    { task := rfl
      own_events := ⟨rfl, rfl⟩
      named := hrunId
      fresh := hfresh
      source := by
        intro source hsource
        have hsource : truthy (some context.interruptedRunId) = some source := hsource
        have hsource := Option.some.inj (truthy_eq_some.mp hsource).1
        exact ⟨interruptedRun (env.shift k) run, List.mem_flatMap.mpr ⟨_, hafter,
          (mem_interrupted_runs hmem).mpr (.inl rfl)⟩, hresumes.run.symm.trans hsource⟩
      input := by
        show context.cursorInput.WellFormed
        rw [hresumes.input]
        exact (hkept.cursor i hi).1
      supplies := hsupplies }
  have hstill := interrupted_readable input hmem hrun hready.supplies hreadable
  have hidle := activeRuns_eq_nil.mpr
    (interrupted_idle (env.shift k) input hmem hrun hactive)
  obtain ⟨w', result, hbegin, hbegun, hothers⟩ :=
    planBeginRun_ok hafter hidle hevents hbegins hstill hplan
  refine ⟨context, k, mid, w', hcontext, hresumes, hmem, hafter, ?_, hbegun,
    begun_readable hafter hevents hbegins hstill, hothers⟩
  show (beginRun resumeEnv _ w).void = _
  rw [hbegin]
  rfl

end

end Newide
