import Newide.Resumption

/-!
# What a continuation keeps

A Council override lives in the diagnostics of the Task, which every
`beginRun` builds anew, and a resumed Run gets the workspace of its
Task.  So an override holds for the Run it was set on and for no later
one, and a resumed Run keeps the workspace of the interrupted one when
that was the Task's.
-/

namespace Newide

open Fallible Operation CoordinationStore

variable {π : Type}

/-- The stage advance of `execute_agent` to `gate` without a Council input. -/
structure SkipsCouncil (input : AdvanceTaskStageInput) : Prop where
  expected : input.expectedCursor = .executeAgent
  next : input.nextInput.cursor = .gate
  council : input.councilOverrideInput = none

/-- No advance of the Task may skip the Council. -/
def RefusesGate (aggregate : PersistedTaskAggregate) : Prop :=
  ∀ input, SkipsCouncil input → ∃ e, resolveStageNextInput aggregate input = .error e

theorem refusesGate_iff {aggregate : PersistedTaskAggregate} :
    RefusesGate aggregate ↔ aggregate.runtimeState.diagnostics.councilOverride = true := by
  constructor
  · intro h
    by_contra hoff
    let input : AdvanceTaskStageInput :=
      { runId := ""
        expectedCursor := .executeAgent
        invocationId := ""
        evidenceRef := { uri := "", sha256 := "" }
        nextInput := .gate "" "" "" "" }
    obtain ⟨e, he⟩ := h input ⟨rfl, rfl, rfl⟩
    have hok : resolveStageNextInput aggregate input = .ok input.nextInput := by
      refine bind_eq_ok.mpr ⟨(), ensure_eq_ok.mpr fun hall => hoff hall.1, rfl⟩
    rw [hok] at he
    cases he
  · rintro hon input ⟨hexpected, hnext, hcouncil⟩
    cases hresolve : resolveStageNextInput aggregate input with
    | error e => exact ⟨e, rfl⟩
    | ok next =>
        obtain ⟨_, hensure, _⟩ := bind_eq_ok.mp hresolve
        exact absurd ⟨hon, hexpected, hnext, by rw [hcouncil]; rfl⟩ (ensure_eq_ok.mp hensure)

/-! ## Overrides along a run -/

/-- A call that returned sets its Run's override, or begins a Run without one. -/
def Operation.overrides (overridden : List String) : Operation → List String
  | .setCouncilOverride runId => runId :: overridden
  | .beginRun input => overridden.filter fun runId => runId ≠ input.runId
  | _ => overridden

/-- The Runs on which `setCouncilOverride` has succeeded since they began. -/
def overridden (calls : List Call) : List String :=
  calls.foldl (fun runIds call => call.op.overrides runIds) []

theorem overridden_append {calls : List Call} {call : Call} :
    overridden (calls ++ [call]) = call.op.overrides (overridden calls) := by
  simp [overridden]

/-- A Task with an active Run has the override exactly when it was set on that Run. -/
def OverrideOwned (runIds : List String) (record : TaskRecord) : Prop :=
  ∀ run ∈ record.runs, isActiveRun run = true →
    (record.runtimeState.diagnostics.councilOverride = true ↔ run.runId ∈ runIds)

section
variable {store after : CoordinationStore} {env : Env} {op : Operation}
  {old : Option TaskRecord} {input : CoordinationStateCommit} {last : Nat}

theorem TaskCommit.override_eq (h : TaskCommit store env op old input) :
    (∃ request, op = .beginRun request ∧
      input.runtimeState.diagnostics.councilOverride = false ∧
        input.run.map (·.runId) = some request.runId ∧ ∀ x ∈ oldRuns old, isActiveRun x = false) ∨
      (∃ runId record run, op = .setCouncilOverride runId ∧ old = some record ∧
        Owns store record run runId ∧ (∀ w ∈ input.run, w.runId = runId) ∧
        input.runtimeState.diagnostics.councilOverride = true) ∨
      ((∀ request, op ≠ .beginRun request) ∧ (∀ runId, op ≠ .setCouncilOverride runId) ∧
        ∃ record, old = some record ∧ input.runtimeState.diagnostics.councilOverride =
          record.runtimeState.diagnostics.councilOverride) := by
  cases h with
  | beginNew => exact .inl ⟨_, rfl, rfl, rfl, by simp [oldRuns]⟩
  | beginExisting hrec hidle =>
      exact .inl ⟨_, rfl, rfl, rfl, activeRuns_eq_nil.mp hidle⟩
  | override howns =>
      refine .inr (.inl ⟨_, _, _, rfl, rfl, howns, ?_, rfl⟩)
      rintro w hw
      cases hw
      exact howns.run_id
  | startStage | advance | fail | runEvent | mailboxWait | block | expire | finish | restore =>
      exact .inr (.inr ⟨fun _ h => (by cases h), fun _ h => (by cases h), _, rfl, rfl⟩)
  | councilReceipt hop =>
      refine .inr (.inr ⟨?_, ?_, _, rfl, rfl⟩) <;> rintro _ rfl <;> cases hop
  | interrupt hop =>
      refine .inr (.inr ⟨?_, ?_, _, rfl, rfl⟩) <;> rintro _ rfl <;>
        rcases hop with ⟨_, hop, _⟩ | ⟨hop, _⟩ <;> cases hop
  | safepoint hop =>
      refine .inr (.inr ⟨?_, ?_, _, rfl, rfl⟩) <;> rintro _ rfl <;>
        rcases hop with ⟨hop, _⟩ | ⟨⟨_, hop, _⟩, _⟩ <;> cases hop

variable {runIds : List String}

theorem overrides_other (hbegin : ∀ request, op ≠ .beginRun request)
    (hset : ∀ runId, op ≠ .setCouncilOverride runId) : op.overrides runIds = runIds := by
  unfold overrides
  split
  · exact absurd rfl (hset _)
  · exact absurd rfl (hbegin _)
  · rfl

theorem overrideOwned_commit {committed : List PersistedCoordinationEvent}
    (hc : TaskCommit store env op old input)
    (hstore : store.commitState input = .ok (committed, after))
    (hI : Everywhere (OverrideOwned runIds) store) :
    Everywhere (OverrideOwned (op.overrides runIds)) after := by
  have hrec := record?_after hc.old_eq hstore
  have hafter := record?_mem hrec
  -- another Task's Runs have other ids than the Run the call names
  have others : ∀ {runId : String}, (∃ y ∈ (recordAfter old input store.tables.lastSequence).runs,
      y.runId = runId) → ∀ record ∈ after.tables.records, record.taskId ≠ input.task.taskId →
        ∀ x ∈ record.runs, x.runId ≠ runId := by
    rintro runId ⟨y, hy, rfl⟩ record hmem hne x hx hid
    have hsame := after.constraints.record_eq_of_run hmem hafter hx hy hid
    exact hne (hsame ▸ record?_taskId hrec)
  intro record hmem
  have hcases := mem_records_after hc.old_eq hstore hmem
  rcases hc.override_eq with ⟨request, rfl, hoff, hrun, hidle⟩ |
      ⟨runId, current, run, rfl, rfl, howns, hwritten, hon⟩ | ⟨hbegin, hset, current, rfl, hsame⟩
  · obtain ⟨w, hw, hwid⟩ := Option.map_eq_some_iff.mp hrun
    have hnew : readRun w ∈ (recordAfter old input store.tables.lastSequence).runs :=
      (mem_recordAfter_runs hc.old_eq).mpr (.inl ⟨w, hw, rfl⟩)
    rcases hcases with rfl | ⟨hold, hne⟩
    · intro x hx hact
      rcases active_recordAfter hc.old_eq hx hact with ⟨w', hw', rfl, _⟩ | ⟨hxold, _⟩
      · rw [hw] at hw'
        cases hw'
        simp [readRuntimeState, hoff, overrides, readRun, hwid]
      · rw [hidle x hxold] at hact
        cases hact
    · intro x hx hact
      have hne := others ⟨_, hnew, hwid⟩ record hmem hne x hx
      rw [hI record hold x hx hact]
      simp [overrides, hne]
  · have hkept : ∃ y ∈ (recordAfter (some current) input store.tables.lastSequence).runs,
        y.runId = runId := by
      obtain ⟨y, hy, hid⟩ := recordAfter_run_kept _ hc.old_eq howns.run_mem
      exact ⟨y, hy, hid.trans howns.run_id⟩
    rcases hcases with rfl | ⟨hold, hne⟩
    · intro x hx hact
      have hid : x.runId = runId := by
        rcases active_recordAfter hc.old_eq hx hact with ⟨w, hw, rfl, _⟩ | ⟨hxold, _⟩
        · exact hwritten w hw
        · rw [active_unique howns.record_mem hxold howns.run_mem hact howns.active]
          exact howns.run_id
      simp [readRuntimeState, hon, overrides, hid]
    · intro x hx hact
      have hne := others hkept record hmem hne x hx
      rw [hI record hold x hx hact]
      simp [overrides, hne]
  · rw [overrides_other hbegin hset]
    rcases hcases with rfl | ⟨hold, hne⟩
    · intro x hx hact
      have howned := hI current hc.record_mem
      obtain ⟨run, hrun, hid, hact⟩ := active_before hc.effect hc.old_eq hbegin hx hact
      rw [recordAfter_runtimeState, ← hid]
      exact hsame ▸ howned run hrun hact
    · exact hI record hold

end

section
variable {bridges : Bridges π} {w w' : World π} {call : Call} {runIds : List String}

variable {env : Env} {input : AdvanceTaskStageInput}

/-- A `setCouncilOverride` that had nothing to do found the override on its Run. -/
theorem planSetCouncilOverride_unchanged {store : CoordinationStore} {runId taskId : String}
    (h : planSetCouncilOverride (π := π) env runId store = .ok (.unchanged taskId)) :
    ∃ record run, Owns store record run runId ∧
      record.runtimeState.diagnostics.councilOverride = true := by
  simp only [planSetCouncilOverride, bind_eq_ok, ensure_eq_ok,
    assertActiveRunOwnership_eq_ok] at h
  obtain ⟨aggregate, hagg, run, hrun, _, ⟨hactive, hrunning, hcurrent⟩, _, _, h⟩ := h
  obtain ⟨record, hmem, rfl⟩ := requireAggregateForRun_ok hagg
  obtain ⟨hrmem, hrid⟩ := requireRun_ok hrun
  split at h
  · next hon => exact ⟨record, run, ⟨⟨hmem, hrmem, hrid⟩, hactive, hrunning, hcurrent⟩, hon⟩
  · cases h

theorem TakesEffect.begins {input : BeginTaskRunInput}
    (h : TakesEffect bridges w ⟨env, .beginRun input⟩ w') :
    ∃ old commit committed, TaskCommit w.store env (.beginRun input) old commit ∧
      w.store.commitState commit = .ok (committed, w'.store) := by
  rcases h.performed rfl with ⟨taskId, hplan, _⟩ | ⟨plan, committed, hplan, hstore⟩
  · simp only [planBeginRun, bind_eq_ok, pure_eq_ok] at hplan
    obtain ⟨_, _, _, _, _, _, hplan⟩ := hplan
    cases hplan
  · obtain ⟨⟨old, hcommit⟩, _⟩ := planBeginRun_commit hplan
    exact ⟨old, plan.commit, committed, hcommit, hstore⟩

theorem overrideOwned_takesEffect (h : TakesEffect bridges w call w')
    (hI : Everywhere (OverrideOwned runIds) w.store) :
    Everywhere (OverrideOwned (call.op.overrides runIds)) w'.store := by
  by_cases hop : (∃ request, call.op = .beginRun request) ∨
      ∃ runId, call.op = .setCouncilOverride runId
  · obtain ⟨env, op⟩ := call
    rcases hop with ⟨request, hop⟩ | ⟨runId, hop⟩
    · cases hop
      obtain ⟨old, commit, committed, hcommit, hstore⟩ := h.begins
      exact overrideOwned_commit hcommit hstore hI
    · cases hop
      rcases h.performed rfl with ⟨taskId, hplan, rfl⟩ | ⟨plan, committed, hplan, hstore⟩
      · obtain ⟨record, run, howns, hon⟩ := planSetCouncilOverride_unchanged hplan
        intro owner howner x hx hact
        rw [hI owner howner x hx hact]
        simp only [overrides, List.mem_cons, iff_or_self]
        rintro rfl
        -- the Run has the override already
        have hsame := w'.store.constraints.record_eq_of_run howner howns.record_mem hx
          howns.run_mem howns.run_id.symm
        subst hsame
        exact (hI owner howner x hx hact).mp hon
      · obtain ⟨old, hcommit⟩ := planSetCouncilOverride_commit hplan
        exact overrideOwned_commit hcommit hstore hI
  · have hbegin : ∀ request, call.op ≠ .beginRun request := fun request heq =>
      hop (.inl ⟨request, heq⟩)
    have hset : ∀ runId, call.op ≠ .setCouncilOverride runId := fun runId heq =>
      hop (.inr ⟨runId, heq⟩)
    rw [overrides_other hbegin hset]
    refine h.cut.invariant (fun s t hs hst => ?_) hI
    cases hst with
    | commit hc hstore =>
        have hnext := overrideOwned_commit hc hstore hs
        rwa [overrides_other hbegin hset] at hnext
    | delete hop hstore => exact hs.delete hstore fun _ _ hr _ => hr
    | protocol => exact hs

theorem advanceStage_refused
    (h : ∀ k, ∃ e, planAdvanceStage bridges (env.shift k) input w.store = .error e) (attempts : Nat) :
    (advanceStage bridges env input w attempts).commits = [] ∧
      ∃ e, (advanceStage bridges env input w attempts).result = .error e := by
  induction attempts with
  | zero => exact ⟨rfl, _, rfl⟩
  | succ attempts ih =>
      obtain ⟨e, he⟩ := h (8 * attempts)
      have honce : advanceStageOnce bridges (env.shift (8 * attempts)) input w =
          .stop (.error e) := by
        simp only [advanceStageOnce, he]
      unfold advanceStage
      simp only [honce]
      split
      · split
        · exact ih
        · exact ⟨rfl, e, rfl⟩
      · exact ⟨rfl, e, rfl⟩

theorem RefusesGate.advance {record : TaskRecord} {run : PersistedRunState}
    (h : RefusesGate record.aggregate) (hmem : record ∈ w.store.tables.records)
    (hrun : run ∈ record.runs) (hid : input.runId = run.runId) (hskips : SkipsCouncil input) :
    (exec bridges env w (.advanceStage input)).commits = [] ∧
      ∃ e, (exec bridges env w (.advanceStage input)).result = .error e := by
  have hplan : ∀ k, ∃ e, planAdvanceStage bridges (env.shift k) input w.store = .error e := by
    intro k
    cases hplan : planAdvanceStage bridges (env.shift k) input w.store with
    | error e => exact ⟨e, rfl⟩
    | ok planned =>
        obtain ⟨owner, x, event, hadv, _⟩ := planAdvanceStage_commit hplan
        have hacts := hadv.at_stage.toActsOn
        have hsame := w.store.constraints.record_eq_of_run hacts.record_mem hmem hacts.run_mem
          hrun (hacts.run_id.trans hid)
        obtain ⟨e, he⟩ := h input hskips
        rw [← hsame, hadv.next] at he
        cases he
  obtain ⟨hnil, e, he⟩ := advanceStage_refused hplan 3
  refine ⟨hnil, e, ?_⟩
  show (advanceStage bridges env input w 3).void.result = _
  rw [Outcome.void, he]
  rfl

/-! ## The workspace of a resumed Run -/

/-- A resume that began its Run: the interrupted Run it was restarted from, and its own. -/
structure ResumedFrom (before after : CoordinationStore) (taskId runId : String)
    (record record' : TaskRecord) (source run : PersistedRunState) : Prop where
  before : before.record? taskId = some record
  after : after.record? taskId = some record'
  source_mem : source ∈ record.runs
  interrupted : source.status = .interrupted
  run_mem : run ∈ record'.runs
  run_id : run.runId = runId
  restarted : run.restartedFromRunId = some source.runId

theorem assertCheckpointResumeIntent_source {existing : PersistedTaskAggregate}
    {input : BeginTaskRunInput} {cursorInput : TaskCursorInput} {strategy : ResumeStrategy}
    {latest : Option PersistedFullCheckpoint}
    (h : assertCheckpointResumeIntent existing input cursorInput strategy latest = .ok ()) :
    ∃ source ∈ existing.runs, source.status = .interrupted ∧
      input.restartedFromRunId = some source.runId := by
  simp only [assertCheckpointResumeIntent, bind_eq_ok, orThrow_eq_ok,
    Option.filter_eq_some_iff, decide_eq_true_eq] at h
  obtain ⟨checkpoint, _, _, _, _, hsource, source, ⟨hfound, hinterrupted⟩, _⟩ := h
  refine ⟨source, Rows.lookup_mem hfound, hinterrupted, ?_⟩
  rw [ensure_eq_ok.mp hsource, Rows.lookup_key hfound]

theorem resume_workspace {context : TaskResumeContext} {taskId runId workspacePath : String}
    (h : TakesEffect bridges w
      ⟨env, .beginRun (resumeRequest context taskId runId workspacePath)⟩ w') :
    ∃ record record' source run,
      ResumedFrom w.store w'.store taskId runId record record' source run ∧
        (run.workspacePath = source.workspacePath ↔
          source.workspacePath = record.task.workspacePath) := by
  obtain ⟨old, commit, committed, hcommit, hstore⟩ := h.begins
  have hold := hcommit.old_eq
  have hafter := record?_after hold hstore
  cases hcommit with
  | councilReceipt hop => cases hop
  | interrupt hop => rcases hop with ⟨_, hop, _⟩ | ⟨hop, _⟩ <;> cases hop
  | safepoint hop => rcases hop with ⟨hop, _⟩ | ⟨⟨_, hop, _⟩, _⟩ <;> cases hop
  | beginNew hnone hintent => cases hintent
  | @beginExisting _ record hrec hidle hdef hwf hintent =>
      obtain ⟨source, hsource, hinterrupted, hid⟩ := assertCheckpointResumeIntent_source hintent
      have hworkspace : record.task.workspacePath = workspacePath := (ensure_eq_ok.mp hdef).2.1
      have htask : record.task.taskId = taskId := record?_taskId hrec
      have hafter : w'.store.record? record.task.taskId = _ := hafter
      rw [htask] at hafter
      refine ⟨record, _, source, readRun ((resumeRequest context taskId runId
        workspacePath).newRun (env.now 0)), ⟨hrec, hafter, hsource, hinterrupted,
          (mem_recordAfter_runs hold).mpr (.inl ⟨_, rfl, rfl⟩), rfl, ?_⟩, ?_⟩
      · have hid : truthy (some context.interruptedRunId) = some source.runId := hid
        show truthy (truthy (truthy (some context.interruptedRunId))) = _
        simp only [hid, truthy_of_ne (truthy_eq_some.mp hid).2]
      · show workspacePath = source.workspacePath ↔ _
        rw [hworkspace, eq_comm]

/-! ## Continuations -/

/-- Along every run of the processor an active Run refuses to skip the Council exactly when
`setCouncilOverride` succeeded on it, whatever happened to the Runs it continues; and a
resumed Run keeps the workspace of the interrupted one exactly when that was the Task's. -/
theorem continuation_keeps (bridges : Bridges π) {calls : List Call} (hw : Initial w)
    (h : Runs.Steps (TakesEffect bridges) w calls w') :
    (∀ record ∈ w'.store.tables.records, ∀ run ∈ record.runs, isActiveRun run = true →
      (RefusesGate record.aggregate ↔ run.runId ∈ overridden calls) ∧
        (run.runId ∈ overridden calls → ∀ env input, input.runId = run.runId →
          SkipsCouncil input → (exec bridges env w' (.advanceStage input)).commits = [] ∧
            ∃ e, (exec bridges env w' (.advanceStage input)).result = .error e)) ∧
      ∀ env context taskId runId workspacePath w'', TakesEffect bridges w'
          ⟨env, .beginRun (resumeRequest context taskId runId workspacePath)⟩ w'' →
        ∃ record record' source run,
          ResumedFrom w'.store w''.store taskId runId record record' source run ∧
            (run.workspacePath = source.workspacePath ↔
              source.workspacePath = record.task.workspacePath) := by
  have howned : Everywhere (OverrideOwned (overridden calls)) w'.store := by
    refine Runs.Steps.invariant_history
      (I := fun past x => Everywhere (OverrideOwned (overridden past)) x.store) ?_ ?_ h
    · intro record hmem
      rw [show w.store = .empty from hw] at hmem
      cases hmem
    · intro past a call b hI hab
      rw [overridden_append]
      exact overrideOwned_takesEffect hab hI
  refine ⟨?_, fun env context taskId runId workspacePath w'' hresume => resume_workspace hresume⟩
  intro record hmem run hrun hactive
  have hrefuses : RefusesGate record.aggregate ↔ run.runId ∈ overridden calls :=
    refusesGate_iff.trans (howned record hmem run hrun hactive)
  refine ⟨hrefuses, ?_⟩
  intro hon env input hid hskips
  exact (hrefuses.mpr hon).advance hmem hrun hid hskips

end

def overriddenRun : List Call :=
  [⟨stoppedEnv '1', .beginRun createRequest⟩,
   ⟨stoppedEnv '2', .setCouncilOverride "r"⟩,
   ⟨stoppedEnv '3', .interruptRun "r" { reason := "stop", source := .user }⟩]

def toExecuteAgent : List Call :=
  [startCall '5' "r2" .selectAgent,
   advanceCall '6' "r2" .selectAgent (.executeAgent "a" none none) none,
   startCall '7' "r2" .executeAgent]

/-- An override that was set on an active Run holds on it. -/
theorem continuation_keeps_own : ∃ w : World Unit,
    ∃ record ∈ w.store.tables.records, RefusesGate record.aggregate := by
  obtain ⟨w, hrun, record, hmem, run, hmem', hactive, hid⟩ := exists_run {} emptyWorld
    [⟨stoppedEnv '1', .beginRun createRequest⟩, ⟨stoppedEnv '2', .setCouncilOverride "r"⟩]
    (P := fun w => ∃ record ∈ w.store.tables.records, ∃ run ∈ record.runs,
      isActiveRun run = true ∧ run.runId = "r") (by decide)
  have hkeeps := continuation_keeps {} (w := emptyWorld) rfl
    (hrun.mono fun _ _ _ hab => .inl hab)
  refine ⟨w, record, hmem, (hkeeps.1 record hmem run hmem' hactive).1.mpr ?_⟩
  rw [hid]
  exact List.mem_cons_self

/-- The Run that continues an overridden one gets past the Council without a Council input. -/
theorem override_lost_on_resume : ∃ w w1 w2 w3 : World Unit, ∃ context input,
    Runs.Steps (Returns {}) emptyWorld overriddenRun w ∧ "r" ∈ overridden overriddenRun ∧
      getTaskResumeContext (stoppedEnv '4') w.store "t" = .ok context ∧
      Returns {} w
        ⟨stoppedEnv '4', .beginRun (resumeRequest context "t" "r2" context.workspacePath)⟩ w1 ∧
      Runs.Steps (Returns {}) w1 toExecuteAgent w2 ∧
      input.runId = "r2" ∧ SkipsCouncil input ∧
      Returns {} w2 ⟨stoppedEnv '8', .advanceStage input⟩ w3 := by
  obtain ⟨w, hrun, context, hcontext, w1, hw1, w2, hw2, hw3⟩ := exists_run {} emptyWorld
    overriddenRun
    (P := fun w => ∃ context ∈ swallow (getTaskResumeContext (stoppedEnv '4') w.store "t"),
      ∃ w1 ∈ nextWorld (fun _ _ => True) {} w
        ⟨stoppedEnv '4', .beginRun (resumeRequest context "t" "r2" context.workspacePath)⟩,
      ∃ w2 ∈ Runs.exec (nextWorld (fun _ _ => True) {}) w1 toExecuteAgent,
        (nextWorld (fun _ _ => True) {} w2
          (advanceCall '8' "r2" .executeAgent (.gate "x" "p" "x" zeroSha256) none)).isSome = true)
    (by decide)
  obtain ⟨w3, hw3⟩ := Option.isSome_iff_exists.mp hw3
  exact ⟨w, w1, w2, w3, context, _, hrun, by decide, swallow_eq_some.mp hcontext,
    (nextWorld_step _ hw1).2,
    (Runs.exec_steps (fun _ _ _ => nextWorld_step _) hw2).mono fun _ _ _ hab => hab.2, rfl,
    ⟨rfl, rfl, rfl⟩, (nextWorld_step _ hw3).2⟩

end Newide
