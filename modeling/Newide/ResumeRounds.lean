import Newide.Resumption

/-!
# Rounds of interrupting and resuming

A round interrupts the Run of a Task, or recovers after a crash, reads
the context of a resume and begins the next Run from it.  Any number of
rounds goes through, and each new Run stands where the first one stood.
-/

namespace Newide

open Fallible CoordinationStore

variable {π : Type}

inductive Interruption where
  | interruptRun (request : TaskInterruptRequest)
  | recoverInterruptedTasks

def Interruption.operation (how : Interruption) (runId : String) : Operation :=
  match how with
  | .interruptRun request => .interruptRun runId request
  | .recoverInterruptedTasks => .recoverInterruptedTasks

/-- One round: how the current Run is interrupted, the processes its calls run in, and the
id of the Run it begins. -/
structure Round where
  how : Interruption
  interruptEnv : Env
  contextEnv : Env
  resumeEnv : Env
  runId : String

section
variable (bridges : Bridges π) (normalizeWorkspacePath : String → Except Thrown String)
  (taskId : String)

abbrev Round.interrupted (round : Round) (runId : String) (w : World π) : Outcome π Unit :=
  exec bridges round.interruptEnv w (round.how.operation runId)

/-- A whole round, from the Run `runId` of the Task. -/
def Round.play (round : Round) (runId : String) (w : World π) : Except Thrown (World π) := do
  let interrupted := round.interrupted bridges runId w
  interrupted.result
  let context ← getTaskResumeContext round.contextEnv (interrupted.final w).store taskId
  let workspacePath ← normalizeWorkspacePath context.workspacePath
  let resumed := exec bridges round.resumeEnv (interrupted.final w)
    (.beginRun (resumeRequest context taskId round.runId workspacePath))
  resumed.result
  return resumed.final (interrupted.final w)

def playRounds : String → List Round → World π → Except Thrown (World π)
  | _, [], w => .ok w
  | runId, round :: rest, w => do
      playRounds round.runId rest
        (← round.play bridges normalizeWorkspacePath taskId runId w)

/-- Every round is given new ids, and no session registry. -/
def RoundsSupplied : String → List Round → World π → Prop
  | _, [], _ => True
  | runId, round :: rest, w =>
      let interrupted := ((round.interrupted bridges runId w).final w).store
      Supplies round.interruptEnv w.store ∧ (∀ k, round.interruptEnv.createCheckpointId k ≠ "") ∧
      round.contextEnv.participantSessions = none ∧ Supplies round.resumeEnv interrupted ∧
      round.runId ≠ "" ∧ (∀ run ∈ interrupted.tables.runs, run.runId ≠ round.runId) ∧
      ∀ w', round.play bridges normalizeWorkspacePath taskId runId w = .ok w' →
        RoundsSupplied round.runId rest w'

end

/-- Every reading of the first clock is before every reading of the second. -/
def Env.Before (env env' : Env) : Prop :=
  ∀ i j, env.now i < env'.now j

def Round.envs (round : Round) : List Env :=
  [round.interruptEnv, round.resumeEnv]

/-! ## The interruption of a round -/

variable {env : Env} {w' : World π}

section
variable {store : CoordinationStore} {record : TaskRecord} {run : PersistedRunState}

/-- What an interrupted Task's store is like for the other Tasks: those that run can still
be shown. -/
def OthersShown (taskId : String) (store : CoordinationStore) : Prop :=
  ∀ record ∈ store.tables.records, record.taskId ≠ taskId → record.activeRuns ≠ [] →
    Readable record.aggregate

theorem Interruption.interrupts (bridges : Bridges π) {w : World π} (how : Interruption)
    (h : Ready env w.store) (hmem : record ∈ w.store.tables.records) (hrun : run ∈ record.runs)
    (hactive : isActiveRun run = true) :
    (exec bridges env w (how.operation run.runId)).result = .ok () ∧
      (∃ input, LeftInterrupted env record run input
        ((exec bridges env w (how.operation run.runId)).final w).store) ∧
      OthersShown record.taskId ((exec bridges env w (how.operation run.runId)).final w).store := by
  cases how with
  | interruptRun request =>
      obtain ⟨w', committed, result, hperform, hstore⟩ :=
        planInterrupt_ok (userInterrupt run.runId request) h hmem hrun hactive
      have hexec : exec bridges env w (.interruptRun run.runId request) =
          { commits := [w'], result := .ok () } := by
        have hplan : planInterruptRun (π := π) env run.runId request w.store =
            planInterrupt env record.aggregate run (userInterrupt run.runId request) w.store := by
          unfold planInterruptRun
          rw [requireAggregateForRun_of_mem hmem hrun]
          show (requireRun record.aggregate run.runId >>= _) = _
          rw [requireRun_of_mem hmem hrun]
          show (if isActiveRun run then _ else _) = _
          rw [if_pos hactive]
        show (Newide.interruptRun env run.runId request w).void = _
        rw [Newide.interruptRun, hplan, hperform]
        rfl
      show (exec bridges env w (.interruptRun run.runId request)).result = .ok () ∧
        (∃ input, LeftInterrupted env record run input
          ((exec bridges env w (.interruptRun run.runId request)).final w).store) ∧
        OthersShown record.taskId
          ((exec bridges env w (.interruptRun run.runId request)).final w).store
      rw [hexec]
      have hold := record?_of_mem hmem
      refine ⟨rfl, ⟨userInterrupt run.runId request, 0, w.store, (Env.shift_zero env).symm ▸ h, hmem,
        ?_⟩, ?_⟩
      · rw [Env.shift_zero]
        exact record?_commit_self hstore hold
      · intro owner howner hne hact
        rcases mem_records_after hold hstore howner with rfl | ⟨howner, _⟩
        · exact absurd rfl hne
        · exact (h.active owner howner hact).readable
  | recoverInterruptedTasks =>
      obtain ⟨⟨snapshots, hok⟩, hinterrupted, _⟩ := h.interrupts
      have hresult : (exec bridges env w .recoverInterruptedTasks).result = .ok () := by
        show (Newide.recoverInterruptedTasks env w).result.map _ = _
        rw [hok]
        rfl
      refine ⟨hresult, ⟨_, hinterrupted record hmem run (mem_activeRuns.mpr ⟨hrun, hactive⟩)⟩, ?_⟩
      intro owner howner _ hact
      exact absurd (h.recovery.idle owner howner) hact

end

/-! ## One round -/

structure StandsAt (store : CoordinationStore) (taskId runId : String) (cursor : TaskResumeCursor)
    (i : TaskCursorInput) (mode : RunMode) (workspacePath : String) (record : TaskRecord)
    (run : PersistedRunState) : Prop where
  stored : store.record? taskId = some record
  run_mem : run ∈ record.runs
  run_id : run.runId = runId
  active : isActiveRun run = true
  run_mode : run.mode = mode
  cursor_eq : record.runtimeState.resumeCursor = cursor
  input_eq : record.runtimeState.cursorInput = some i
  workspace : record.task.workspacePath = workspacePath

/-- A Run of a Task was restarted from another, in this mode. -/
def RestartedFrom (mode : RunMode) (record : TaskRecord) (source runId : String) : Prop :=
  ∃ run ∈ record.runs, run.runId = runId ∧ run.mode = mode ∧
    run.restartedFromRunId = some source ∧ source ≠ ""

/-- A reachable world whose Tasks can be shown while they run. -/
structure RoundReady (bridges : Bridges π) (calls : List Call) (w : World π) : Prop where
  reached : ∃ w₀, Initial w₀ ∧ Runs.Steps (CrashSteps bridges) w₀ calls w
  shown : ∀ record ∈ w.store.tables.records, record.activeRuns ≠ [] → Readable record.aggregate

section
variable {bridges : Bridges π} {normalizeWorkspacePath : String → Except Thrown String}
  {taskId runId : String} {calls : List Call} {w : World π} {cursor : TaskResumeCursor}
  {i : TaskCursorInput} {mode : RunMode} {workspacePath : String} {record : TaskRecord}
  {run : PersistedRunState}

theorem RoundReady.ready (h : RoundReady bridges calls w) (hsupplies : Supplies env w.store)
    (hclock : ∀ call ∈ calls, call.env.Before env) :
    Ready env w.store := by
  obtain ⟨w₀, hw, hsteps⟩ := h.reached
  obtain ⟨hkept, hsources, _, hinterruptible⟩ := crash_invariants hw hsteps
  have hdated := crash_dated hw hsteps
  refine ⟨hkept, hsources, hsupplies, fun record hmem hne => ?_⟩
  obtain ⟨run, hrun⟩ := List.exists_mem_of_ne_nil _ hne
  obtain ⟨hrun, hactive⟩ := mem_activeRuns.mp hrun
  obtain ⟨hstatus, hout⟩ := hinterruptible record hmem run hrun hactive
  refine ⟨hstatus, hout, h.shown record hmem hne, fun c hc k => ?_⟩
  obtain ⟨call, hcall, j, hj⟩ := hdated c (List.mem_flatMap.mpr ⟨record, hmem, hc⟩)
  exact hj ▸ hclock call hcall j k

theorem RoundReady.extend (h : RoundReady bridges calls w) {call : Call}
    (hidle : call.op.expiry? = none) (hcut : Cut bridges w call w')
    (hshown : ∀ record ∈ w'.store.tables.records, record.activeRuns ≠ [] →
      Readable record.aggregate) : RoundReady bridges (calls ++ [call]) w' := by
  obtain ⟨w₀, hw, hsteps⟩ := h.reached
  refine ⟨⟨w₀, hw, .snoc hsteps ⟨fun record _ hexit => ?_, hcut⟩⟩, hshown⟩
  rw [hidle] at hexit
  cases hexit

/-- The Run a round begins: it stands where the interrupted one stood, and was restarted
from it; the Runs before it keep their rows' lineage. -/
structure Resumed (w' : World π) (record : TaskRecord) (run : PersistedRunState) (runId : String)
    (i : TaskCursorInput) (record' : TaskRecord) (run' : PersistedRunState) : Prop where
  stands : StandsAt w'.store record.taskId runId record.runtimeState.resumeCursor i run.mode
    record.task.workspacePath record' run'
  source : RestartedFrom run.mode record' run.runId runId
  kept : ∀ mode a b, RestartedFrom mode record a b → RestartedFrom mode record' a b

theorem resumed_of_begun {mid store : CoordinationStore} {resumeEnv : Env}
    {input : InterruptRunInput} {context : TaskResumeContext} {checkpointId : String}
    (hmid : record ∈ mid.tables.records)
    (hmem : interruptedRecord env mid record run input ∈ store.tables.records)
    (hresumes : ResumesRun context record run i checkpointId) (hnamed : run.runId ≠ "")
    (hcursor : i.cursor = record.runtimeState.resumeCursor) (hrun : run ∈ record.runs)
    (hfresh : ∀ x ∈ store.tables.runs, x.runId ≠ runId)
    (hbegun : w'.store.record? record.taskId = some (begunRecord resumeEnv store
      (interruptedRecord env mid record run input)
      (resumeRequest context record.taskId runId record.task.workspacePath))) :
    ∃ record' run', Resumed w' record run runId i record' run' := by
  set request := resumeRequest context record.taskId runId record.task.workspacePath
  have hsource : (readRun (request.newRun (resumeEnv.now 0))).restartedFromRunId =
      some run.runId := by
    show truthy (truthy (truthy (some context.interruptedRunId))) = _
    rw [truthy_truthy, truthy_truthy, hresumes.run]
    exact truthy_of_ne hnamed
  have hnew : readRun (request.newRun (resumeEnv.now 0)) ∈
      (begunRecord resumeEnv store (interruptedRecord env mid record run input) request).runs :=
    (mem_begun_runs hmem).mpr (.inl rfl)
  have hstands : StandsAt w'.store record.taskId runId record.runtimeState.resumeCursor i run.mode
      record.task.workspacePath _ (readRun (request.newRun (resumeEnv.now 0))) :=
    { stored := hbegun
      run_mem := hnew
      run_id := rfl
      active := rfl
      run_mode := hresumes.mode
      cursor_eq := by
        show context.cursorInput.cursor = _
        rw [hresumes.input, hcursor]
      input_eq := congrArg some hresumes.input
      workspace := rfl }
  refine ⟨_, _, hstands, ⟨_, hnew, rfl, hresumes.mode, hsource, hnamed⟩, ?_⟩
  rintro mode a b ⟨x, hx, rfl, hmode, ha, hne⟩
  -- the row is still there, as it was or interrupted
  have hinterrupted : ∃ y ∈ (interruptedRecord env mid record run input).runs,
      y.runId = x.runId ∧ y.mode = mode ∧ y.restartedFromRunId = some a := by
    by_cases hid : x.runId = run.runId
    · have hsame : x = run := (mid.constraints.record_runs_distinct hmid).eq_of_key hx hrun hid
      subst hsame
      refine ⟨interruptedRun env x, (mem_interrupted_runs hmid).mpr (.inl rfl), rfl, hmode, ?_⟩
      show truthy x.restartedFromRunId = some a
      rw [ha]
      exact truthy_of_ne hne
    · exact ⟨x, (mem_interrupted_runs hmid).mpr (.inr ⟨hx, hid⟩), rfl, hmode, ha⟩
  obtain ⟨y, hy, hid, hmode, ha⟩ := hinterrupted
  refine ⟨y, (mem_begun_runs hmem).mpr (.inr ⟨hy, ?_⟩), hid, hmode, ha, hne⟩
  exact hfresh y (List.mem_flatMap.mpr ⟨_, hmem, hy⟩)

theorem Round.play_ok (round : Round) (h : RoundReady bridges calls w)
    (hclock : ∀ call ∈ calls, call.env.Before round.interruptEnv)
    (hmem : record ∈ w.store.tables.records) (hrun : run ∈ record.runs)
    (hactive : isActiveRun run = true) (hi : record.runtimeState.cursorInput = some i)
    (hids : i.deliveryIds? ≠ some [])
    (hworkspace : normalizeWorkspacePath record.task.workspacePath =
      .ok record.task.workspacePath)
    (hsupplied : RoundsSupplied bridges normalizeWorkspacePath record.taskId run.runId [round] w) :
    ∃ w' request, round.play bridges normalizeWorkspacePath record.taskId run.runId w = .ok w' ∧
      RoundReady bridges (calls ++ [⟨round.interruptEnv, round.how.operation run.runId⟩] ++
        [⟨round.resumeEnv, .beginRun request⟩]) w' ∧
      ∃ record' run', Resumed w' record run round.runId i record' run' := by
  obtain ⟨hsupplies, hcheckpoint, hregistry, hresume, hrunId, hfresh, _⟩ := hsupplied
  obtain ⟨hresult, ⟨input, hleft⟩, hothers⟩ :=
    round.how.interrupts bridges (h.ready hsupplies hclock) hmem hrun hactive
  -- the interrupted world is one more reachable world, with the Task idle
  have hmid : RoundReady bridges (calls ++ [⟨round.interruptEnv, round.how.operation run.runId⟩])
      ((round.interrupted bridges run.runId w).final w) := by
    refine h.extend (by cases round.how <;> rfl) (Returns.cut ⟨hresult, rfl⟩) ?_
    intro owner howner hact
    by_cases hid : owner.taskId = record.taskId
    · obtain ⟨k, mid, _, hmidMem, hrec⟩ := hleft
      have howner := record?_of_mem howner
      rw [hid, hrec] at howner
      cases howner
      exact absurd (activeRuns_eq_nil.mpr (interrupted_idle _ _ hmidMem hrun hactive)) hact
    · exact hothers owner howner hid hact
  obtain ⟨w₀, hw, hsteps⟩ := hmid.reached
  obtain ⟨_, _, hevents, _⟩ := crash_invariants hw hsteps
  have hkept := (h.ready hsupplies hclock).kept record hmem
  have hcursor := (hkept.cursor i hi).2
  have hnamed : run.runId ≠ "" := ((h.shown record hmem
    (List.ne_nil_of_mem (mem_activeRuns.mpr ⟨hrun, hactive⟩))).runs run hrun).named
  obtain ⟨context, k, mid, w', hcontext, hresumes, hmidMem, hafter, hexec, hbegun, hreadable,
    hsame⟩ :=
    hleft.resume bridges hrun hactive hi hids hcheckpoint hregistry hevents hresume
      hrunId hfresh
  have hplay : round.play bridges normalizeWorkspacePath record.taskId run.runId w = .ok w' := by
    refine bind_eq_ok.mpr ⟨(), hresult, bind_eq_ok.mpr ⟨context, hcontext, bind_eq_ok.mpr
      ⟨record.task.workspacePath, hresumes.workspace ▸ hworkspace, ?_⟩⟩⟩
    show (exec bridges round.resumeEnv _ _).result >>= _ = _
    rw [hexec]
    rfl
  have hcut : Cut bridges ((round.interrupted bridges run.runId w).final w) ⟨round.resumeEnv, .beginRun
      (resumeRequest context record.taskId round.runId record.task.workspacePath)⟩ w' := by
    refine .inr ?_
    rw [hexec]
    exact List.mem_singleton_self _
  refine ⟨w', _, hplay, hmid.extend rfl hcut fun owner howner hact => ?_,
    resumed_of_begun hmidMem hafter hresumes hnamed hcursor hrun hfresh hbegun⟩
  by_cases hid : owner.taskId = record.taskId
  · have howner := record?_of_mem howner
    rw [hid, hbegun] at howner
    cases howner
    exact hreadable
  · have howner := record?_of_mem howner
    rw [hsame _ hid] at howner
    exact hmid.shown owner (record?_mem howner) hact

end

/-! ## Any number of rounds -/

section
variable {bridges : Bridges π} {normalizeWorkspacePath : String → Except Thrown String}
  {taskId : String} {i : TaskCursorInput}

/-- Rounds from a world that is ready for them all go through: the last Run stands where the
first one stood, and each was restarted from the one before. -/
theorem playRounds_ok (rounds : List Round) :
    ∀ {calls : List Call} {w : World π} {record : TaskRecord} {run : PersistedRunState},
      RoundReady bridges calls w →
      (calls.map (·.env) ++ rounds.flatMap Round.envs).Pairwise Env.Before →
      w.store.record? taskId = some record → run ∈ record.runs → isActiveRun run = true →
      record.runtimeState.cursorInput = some i → i.deliveryIds? ≠ some [] →
      normalizeWorkspacePath record.task.workspacePath = .ok record.task.workspacePath →
      RoundsSupplied bridges normalizeWorkspacePath taskId run.runId rounds w →
      ∃ w' record' run', playRounds bridges normalizeWorkspacePath taskId run.runId rounds w =
          .ok w' ∧
        StandsAt w'.store taskId ((rounds.map (·.runId)).getLastD run.runId)
          record.runtimeState.resumeCursor i run.mode record.task.workspacePath record' run' ∧
        List.IsChain (RestartedFrom run.mode record') (run.runId :: rounds.map (·.runId)) ∧
        ∀ mode a b, RestartedFrom mode record a b → RestartedFrom mode record' a b := by
  induction rounds with
  | nil =>
      intro calls w record run _ _ hrec hrun hactive hi _ _ _
      exact ⟨w, record, run, rfl, ⟨hrec, hrun, rfl, hactive, rfl, rfl, hi, rfl⟩,
        List.isChain_singleton _, fun _ _ _ h => h⟩
  | cons round rest ih =>
      intro calls w record run hready hclock hrec hrun hactive hi hids hworkspace hsupplied
      have htask := record?_taskId hrec
      subst htask
      have hbefore : ∀ call ∈ calls, call.env.Before round.interruptEnv := fun call hcall =>
        (List.pairwise_append.mp hclock).2.2 _ (List.mem_map_of_mem hcall) _
          (List.mem_append_left _ (List.mem_cons_self ..))
      obtain ⟨h1, h2, h3, h4, h5, h6, hnext⟩ := hsupplied
      obtain ⟨w1, request, hplay, hready1, record1, run1, hresumed⟩ :=
        round.play_ok hready hbefore (record?_mem hrec) hrun hactive hi hids
          hworkspace ⟨h1, h2, h3, h4, h5, h6, fun _ _ => trivial⟩
      have hstands := hresumed.stands
      have hsupplied1 := hnext w1 hplay
      rw [← hstands.run_id] at hsupplied1
      obtain ⟨w', record', run', hrest, hlast, hchain, hkept⟩ := ih hready1
        (by simpa [Round.envs, List.append_assoc] using hclock) hstands.stored hstands.run_mem
        hstands.active hstands.input_eq hids (hstands.workspace ▸ hworkspace) hsupplied1
      refine ⟨w', record', run', bind_eq_ok.mpr ⟨w1, hplay, hstands.run_id ▸ hrest⟩, ?_, ?_,
        fun mode a b h => hkept mode a b (hresumed.kept mode a b h)⟩
      · rw [hstands.run_id, hstands.cursor_eq, hstands.run_mode, hstands.workspace] at hlast
        rw [List.map_cons, List.getLastD_cons]
        exact hlast
      · rw [hstands.run_id, hstands.run_mode] at hchain
        exact List.isChain_cons_cons.mpr ⟨hkept _ _ _ hresumed.source, hchain⟩

/-- From every state that calls cut at any commit can leave, unless a wait expired under an
active Run, a Run that stands at a stored input can be interrupted and resumed any number of
times, and every Run that is begun stands where it stood. -/
theorem resume_keeps_cursor (bridges : Bridges π)
    (normalizeWorkspacePath : String → Except Thrown String) {w₀ w : World π} {calls : List Call}
    (hw : Initial w₀) (h : Runs.Steps (CrashSteps bridges) w₀ calls w)
    (hshown : ∀ record ∈ w.store.tables.records, record.activeRuns ≠ [] →
      Readable record.aggregate)
    {record : TaskRecord} {run : PersistedRunState} (hrec : w.store.record? taskId = some record)
    (hrun : run ∈ record.runs) (hactive : isActiveRun run = true)
    (hi : record.runtimeState.cursorInput = some i) (hwait : i.deliveryIds? ≠ some [])
    (hworkspace : normalizeWorkspacePath record.task.workspacePath =
      .ok record.task.workspacePath)
    (rounds : List Round)
    (hclock : (calls.map (·.env) ++ rounds.flatMap Round.envs).Pairwise Env.Before)
    (hsupplied : RoundsSupplied bridges normalizeWorkspacePath taskId run.runId rounds w) :
    ∃ w' record' run', playRounds bridges normalizeWorkspacePath taskId run.runId rounds w =
        .ok w' ∧
      StandsAt w'.store taskId ((rounds.map (·.runId)).getLastD run.runId)
        record.runtimeState.resumeCursor i run.mode record.task.workspacePath record' run' ∧
      List.IsChain (RestartedFrom run.mode record') (run.runId :: rounds.map (·.runId)) := by
  obtain ⟨w', record', run', hplay, hstands, hchain, _⟩ := playRounds_ok rounds
    ⟨⟨w₀, hw, h⟩, hshown⟩ hclock hrec hrun hactive hi hwait hworkspace hsupplied
  exact ⟨w', record', run', hplay, hstands, hchain⟩

end

/-! ## Fixed rounds -/

def stoppedRound (how : Interruption) (interruptTime resumeTime : Char) (runId : String) :
    Round where
  how
  interruptEnv := stoppedEnv interruptTime
  contextEnv := stoppedEnv resumeTime
  resumeEnv := stoppedEnv resumeTime
  runId

theorem stoppedEnv_before {a b : Char} (h : a < b) : (stoppedEnv a).Before (stoppedEnv b) := by
  intro i j
  show String.ofList [a] < String.ofList [b]
  rw [String.lt_iff, String.toList_ofList, String.toList_ofList]
  exact List.Lex.rel h

def Unused (time : Char) (store : CoordinationStore) : Prop :=
  (∀ old ∈ store.tables.events, old.eventId.toList.head? ≠ some time) ∧
    ∀ old ∈ store.tables.checkpoints, old.checkpointId.toList.head? ≠ some time

instance (time : Char) (store : CoordinationStore) : Decidable (Unused time store) :=
  inferInstanceAs (Decidable (_ ∧ _))

/-- The times of a round are unused when it comes, and so is the id of its Run. -/
def RoundUnused (round : Round) (t t' : Char) (runId : String) (w : World Unit) : Prop :=
  let interrupted := ((round.interrupted {} runId w).final w).store
  Unused t w.store ∧ Unused t' interrupted ∧ round.runId ≠ "" ∧
    ∀ run ∈ interrupted.tables.runs, run.runId ≠ round.runId

instance (round : Round) (t t' : Char) (runId : String) (w : World Unit) :
    Decidable (RoundUnused round t t' runId w) :=
  inferInstanceAs (Decidable (_ ∧ _ ∧ _ ∧ _))

theorem RoundUnused.supplied {how : Interruption} {t t' : Char} {taskId runId next : String}
    {rest : List Round} {w : World Unit}
    (h : RoundUnused (stoppedRound how t t' next) t t' runId w)
    (hrest : ∀ w', (stoppedRound how t t' next).play {} .ok taskId runId w = .ok w' →
      RoundsSupplied {} .ok taskId next rest w') :
    RoundsSupplied {} .ok taskId runId (stoppedRound how t t' next :: rest) w := by
  obtain ⟨⟨hevents, hcheckpoints⟩, ⟨hevents', hcheckpoints'⟩, hne, hfresh⟩ := h
  refine ⟨.stopped hevents hcheckpoints, fun k => ?_, rfl, .stopped hevents' hcheckpoints', hne,
    hfresh, hrest⟩
  intro heq
  simpa [stoppedRound, stoppedEnv] using congrArg String.toList heq

/-- A round that is stopped by the user and one that recovers from a crash. -/
def twoRounds : List Round :=
  [stoppedRound (.interruptRun { reason := "stop", source := .user }) '3' '4' "r2",
   stoppedRound .recoverInterruptedTasks '5' '6' "r3"]

/-- A Run in its first stage goes through two rounds. -/
theorem resume_keeps_cursor_twice : ∃ w w' : World Unit,
    playRounds {} .ok "t" "r" twoRounds w = .ok w' ∧
      ∃ i record' run', StandsAt w'.store "t" "r3" .selectAgent i .singleAgent "/w" record' run' ∧
        List.IsChain (RestartedFrom .singleAgent record') ["r", "r2", "r3"] := by
  obtain ⟨w, h, hshown, ⟨record, hrec, run, hrun, hid, hactive, hmode, hcursor, hworkspace, i, hi,
      hwait⟩, hfirst, hsecond⟩ := exists_guarded_run ExpiryIdle {} emptyWorld
    [⟨stoppedEnv '1', .beginRun createRequest⟩, startCall '2' "r" .selectAgent]
    (P := fun w =>
      (∀ record ∈ w.store.tables.records, record.activeRuns ≠ [] → Readable record.aggregate) ∧
      (∃ record ∈ w.store.record? "t", ∃ run ∈ record.runs, run.runId = "r" ∧
        isActiveRun run = true ∧ run.mode = .singleAgent ∧
        record.runtimeState.resumeCursor = .selectAgent ∧ record.task.workspacePath = "/w" ∧
        ∃ i ∈ record.runtimeState.cursorInput, i.deliveryIds? ≠ some []) ∧
      RoundUnused (stoppedRound (.interruptRun { reason := "stop", source := .user }) '3' '4' "r2")
        '3' '4' "r" w ∧
      ∀ w1 ∈ swallow ((stoppedRound (.interruptRun { reason := "stop", source := .user }) '3' '4'
          "r2").play {} .ok "t" "r" w),
        RoundUnused (stoppedRound .recoverInterruptedTasks '5' '6' "r3") '5' '6' "r2" w1)
    (by decide)
  have hclock : (['1', '2', '3', '4', '5', '6'].map stoppedEnv).Pairwise Env.Before := by
    rw [List.pairwise_map]
    exact List.Pairwise.imp stoppedEnv_before (by decide)
  have hsupplied : RoundsSupplied {} .ok "t" run.runId twoRounds w := by
    rw [hid]
    refine hfirst.supplied fun w1 hplay => (hsecond w1 (swallow_eq_some.mpr hplay)).supplied ?_
    exact fun _ _ => trivial
  have hinit : Initial emptyWorld := rfl
  obtain ⟨w', record', run', hplay, hstands, hchain⟩ := resume_keeps_cursor {} .ok
    hinit (h.mono fun a c b hab => ⟨hab.1, hab.2.cut⟩) hshown hrec hrun hactive hi
    hwait rfl twoRounds hclock hsupplied
  rw [hid] at hplay hchain hstands
  rw [hcursor, hmode, hworkspace] at hstands
  rw [hmode] at hchain
  exact ⟨w, w', hplay, i, record', run', hstands, hchain⟩

/-- After a wait has expired under an active Run, the Run stands at a stored input and can
be neither interrupted nor recovered. -/
theorem resume_fails_after_expiry :
    ∃ w : World Unit, Runs.Steps (Returns {}) emptyWorld
        [⟨stoppedEnv '1', .beginRun createRequest⟩,
         ⟨stoppedEnv '2', .expireMailboxWait "t" "timeout"⟩] w ∧
      ∃ record ∈ w.store.record? "t", ∃ run ∈ record.runs, isActiveRun run = true ∧
        (∃ i ∈ record.runtimeState.cursorInput,
          i.cursor = record.runtimeState.resumeCursor ∧ i.deliveryIds? ≠ some []) ∧
        ∀ round ∈ twoRounds, swallow (round.play {} .ok "t" run.runId w) = none := by
  obtain ⟨w, h, record, hrec, run, hrun, hactive, hi, hround⟩ := exists_run {} emptyWorld
    [⟨stoppedEnv '1', .beginRun createRequest⟩,
     ⟨stoppedEnv '2', .expireMailboxWait "t" "timeout"⟩]
    (P := fun w => ∃ record ∈ w.store.record? "t", ∃ run ∈ record.runs, isActiveRun run = true ∧
      (∃ i ∈ record.runtimeState.cursorInput,
        i.cursor = record.runtimeState.resumeCursor ∧ i.deliveryIds? ≠ some []) ∧
      ∀ round ∈ twoRounds, (swallow (round.play {} .ok "t" run.runId w)).isNone = true)
    (by decide)
  exact ⟨w, h, record, hrec, run, hrun, hactive, hi, fun round hr =>
    Option.isNone_iff_eq_none.mp (hround round hr)⟩

end Newide
