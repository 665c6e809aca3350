import Newide.ProcessorRuns

/-!
# What every stored row satisfies

Facts about the rows that hold in every state any calls can leave
behind, cut or not, with no condition on the arguments: they come from
the store's own checks, from its readers, and from the commits never
writing certain fields.
-/

namespace Newide

open Fallible CoordinationStore

/-! ## The parts of a written record -/

def oldRuns (old : Option TaskRecord) : List PersistedRunState :=
  old.elim [] (·.runs)

def oldEvents (old : Option TaskRecord) : List PersistedCoordinationEvent :=
  old.elim [] (·.events)

def oldCheckpoints (old : Option TaskRecord) : List PersistedFullCheckpoint :=
  old.elim [] (·.checkpoints)

theorem mem_numberEvents {events : List Event} {last : Nat} {x : PersistedCoordinationEvent}
    (h : x ∈ Tables.numberEvents last events) : ∃ event ∈ events, ∃ n, x = readEvent event n := by
  induction events generalizing last with
  | nil => cases h
  | cons event rest ih =>
      rcases List.mem_cons.mp h with rfl | h
      · exact ⟨event, List.mem_cons_self .., _, rfl⟩
      · obtain ⟨raw, hraw, hx⟩ := ih h
        exact ⟨raw, List.mem_cons_of_mem _ hraw, hx⟩

variable {x : PersistedRunState} {taskId : String}

section
variable {old : Option TaskRecord} {input : CoordinationStateCommit} {last : Nat}

@[simp] theorem recordAfter_task : (recordAfter old input last).task = readTask input.task := by
  cases old <;> rfl

@[simp] theorem recordAfter_taskId :
    (recordAfter old input last).taskId = input.task.taskId := by
  cases old <;> rfl

@[simp] theorem recordAfter_runtimeState :
    (recordAfter old input last).runtimeState = readRuntimeState input.runtimeState := by
  cases old <;> rfl

theorem recordAfter_runs : (recordAfter old input last).runs =
    match input.run with
    | none => oldRuns old
    | some run => writeRun (oldRuns old) (readRun run) := by
  cases old <;> rfl

theorem recordAfter_events : (recordAfter old input last).events =
    oldEvents old ++ Tables.numberEvents last input.events := by
  cases old <;> rfl

theorem recordAfter_checkpoints : (recordAfter old input last).checkpoints =
    oldCheckpoints old ++ (input.checkpoint.map readCheckpoint).toList := by
  cases old <;> rfl

variable {store : CoordinationStore}

theorem oldRuns_distinct (hold : store.record? input.task.taskId = old) :
    Rows.Distinct PersistedRunState.runId (oldRuns old) := by
  cases old with
  | none => exact List.nodup_nil
  | some record => exact store.constraints.record_runs_distinct (record?_mem hold)

theorem mem_recordAfter_runs (hold : store.record? input.task.taskId = old) :
    x ∈ (recordAfter old input last).runs ↔
      (∃ run ∈ input.run, x = readRun run) ∨
        (x ∈ oldRuns old ∧ ∀ run ∈ input.run, x.runId ≠ run.runId) := by
  rw [recordAfter_runs]
  cases hrun : input.run with
  | none => simp
  | some run =>
      simp only [mem_writeRun (oldRuns_distinct hold), Option.mem_some_iff, exists_eq_left',
        forall_eq']
      rfl

theorem recordAfter_run_kept (last : Nat) (hold : store.record? input.task.taskId = old)
    (hx : x ∈ oldRuns old) :
    ∃ y ∈ (recordAfter old input last).runs, y.runId = x.runId := by
  by_cases hid : ∃ run ∈ input.run, run.runId = x.runId
  · obtain ⟨run, hrun, hid⟩ := hid
    exact ⟨readRun run, (mem_recordAfter_runs hold).mpr (.inl ⟨run, hrun, rfl⟩), hid⟩
  · refine ⟨x, (mem_recordAfter_runs hold).mpr (.inr ⟨hx, fun run hrun heq => ?_⟩), rfl⟩
    exact hid ⟨run, hrun, heq.symm⟩

end

/-! ## Single records -/

/-- No commit writes the diagnostics a cursor input could be reconstructed from. -/
def Diagnostics.Unseeded (diagnostics : Diagnostics) : Prop :=
  diagnostics.changesetRef = none ∧ diagnostics.expectedSha256 = none

/-- The rows of a Task fit together. -/
structure WellKept (record : TaskRecord) : Prop where
  runtime_task : record.runtimeState.taskId = record.taskId
  current_ne : record.runtimeState.currentRunId ≠ some ""
  cursor : ∀ i ∈ record.runtimeState.cursorInput,
    i.WellFormed ∧ i.cursor = record.runtimeState.resumeCursor
  unseeded : record.runtimeState.diagnostics.Unseeded
  parent : truthy record.task.parentId = record.task.parentId
  role : truthy record.task.roleId = record.task.roleId
  checkpoint_task : ∀ c ∈ record.checkpoints, c.taskId = record.taskId
  checkpoint_run : ∀ c ∈ record.checkpoints, ∃ run ∈ record.runs, run.runId = c.runId
  checkpoint_cursor : ∀ c ∈ record.checkpoints, ∀ i ∈ c.cursorInput,
    i.WellFormed ∧ i.cursor = c.resumeCursor
  checkpoint_valid : ∀ c ∈ record.checkpoints, c.validityStatus = .valid

section
variable {store after : CoordinationStore} {env : Env} {op : Operation}
  {old : Option TaskRecord} {input : CoordinationStateCommit}

theorem TaskCommit.unseeded (h : TaskCommit store env op old input)
    (hold : ∀ record ∈ old, record.runtimeState.diagnostics.Unseeded) :
    input.runtimeState.diagnostics.Unseeded := by
  cases h with
  | beginNew => exact ⟨rfl, rfl⟩
  | beginExisting => exact ⟨rfl, rfl⟩
  | startStage | councilReceipt | advance | fail | override | runEvent | mailboxWait | block
  | expire | interrupt | finish | safepoint | restore => exact hold _ rfl

theorem TaskCommit.checkpoint_eq (h : TaskCommit store env op old input)
    {checkpoint : PersistedFullCheckpoint} (hc : input.checkpoint = some checkpoint) :
    (∃ run, input.run = some run ∧ run.runId = checkpoint.runId) ∧
      (∀ i ∈ checkpoint.cursorInput, i.cursor = checkpoint.resumeCursor) ∧
      checkpoint.validityStatus = .valid := by
  cases h with
  | interrupt | safepoint =>
      cases hc
      exact ⟨⟨_, rfl, rfl⟩, fun i hi => safepointCursorInput_cursor hi, rfl⟩
  | beginNew | beginExisting | startStage | councilReceipt | advance | fail | override | runEvent
  | mailboxWait | block | expire | finish | restore => cases hc

theorem WellKept.of_commit {last : Nat} (h : TaskCommit store env op old input)
    (hadm : Admitted store.tables input) (hold : ∀ record ∈ old, WellKept record) :
    WellKept (recordAfter old input last) := by
  have hid : ∀ record ∈ old, record.taskId = input.task.taskId := by
    rintro record rfl
    exact record?_taskId h.old_eq
  have hcheckpoints : ∀ c ∈ (recordAfter old input last).checkpoints,
      (∃ record ∈ old, c ∈ record.checkpoints) ∨
        ∃ checkpoint, input.checkpoint = some checkpoint ∧ c = readCheckpoint checkpoint := by
    intro c hc
    rw [recordAfter_checkpoints, List.mem_append] at hc
    rcases hc with hc | hc
    · cases old with
      | none => cases hc
      | some record => exact .inl ⟨record, rfl, hc⟩
    · cases hcp : input.checkpoint with
      | none => simp [hcp] at hc
      | some checkpoint =>
          rw [hcp] at hc
          exact .inr ⟨checkpoint, rfl, by simpa using hc⟩
  refine ⟨?_, ?_, ?_, ?_, ?_, ?_, ?_, ?_, ?_, ?_⟩
  · rw [TaskRecord.taskId, recordAfter_runtimeState, recordAfter_task]
    exact hadm.runtime_task
  · rw [recordAfter_runtimeState]
    exact truthy_ne _
  · rw [recordAfter_runtimeState]
    exact hadm.cursor
  · rw [recordAfter_runtimeState]
    exact h.unseeded fun record hr => (hold record hr).unseeded
  · simp only [recordAfter_task]
    exact truthy_truthy _
  · simp only [recordAfter_task]
    exact truthy_truthy _
  · intro c hc
    simp only [TaskRecord.taskId, recordAfter_task]
    rcases hcheckpoints c hc with ⟨record, hr, hc⟩ | ⟨checkpoint, hcp, rfl⟩
    · exact ((hold record hr).checkpoint_task c hc).trans (hid record hr)
    · exact (hadm.checkpoint_owner checkpoint hcp).1
  · intro c hc
    rcases hcheckpoints c hc with ⟨record, hr, hc⟩ | ⟨checkpoint, hcp, rfl⟩
    · obtain ⟨run, hrun, hrid⟩ := (hold record hr).checkpoint_run c hc
      cases hr
      obtain ⟨y, hy, hyid⟩ := recordAfter_run_kept last h.old_eq hrun
      exact ⟨y, hy, hyid.trans hrid⟩
    · obtain ⟨⟨run, hrun, hrid⟩, _⟩ := h.checkpoint_eq hcp
      exact ⟨readRun run, (mem_recordAfter_runs h.old_eq).mpr (.inl ⟨run, hrun, rfl⟩), hrid⟩
  · intro c hc
    rcases hcheckpoints c hc with ⟨record, hr, hc⟩ | ⟨checkpoint, hcp, rfl⟩
    · exact (hold record hr).checkpoint_cursor c hc
    · intro i hi
      obtain ⟨raw, hraw, hparse⟩ := Option.bind_eq_some_iff.mp hi
      obtain ⟨hwf, rfl⟩ := parseTaskCursorInput_eq_ok.mp (swallow_eq_some.mp hparse)
      exact ⟨hwf, (h.checkpoint_eq hcp).2.1 _ hraw⟩
  · intro c hc
    rcases hcheckpoints c hc with ⟨record, hr, hc⟩ | ⟨checkpoint, hcp, rfl⟩
    · exact (hold record hr).checkpoint_valid c hc
    · exact (h.checkpoint_eq hcp).2.2

theorem WellKept.forget {record : TaskRecord} (h : WellKept record) (gone : List String) :
    WellKept (Tables.forgetRuns gone record) :=
  { h with
    current_ne := fun he => h.current_ne (Option.filter_eq_some_iff.mp he).1 }

theorem wellKept_step (h : StoreStep op env store after) (hI : Everywhere WellKept store) :
    Everywhere WellKept after :=
  hI.step h
    (fun _ _ _ hc hadm => .of_commit hc hadm fun record hr =>
      hI record (record?_mem (hr ▸ hc.old_eq)))
    fun _ gone hr _ => hr.forget gone

end

/-! ## References between Tasks -/

/-- Every Run that a Run was restarted from is stored. -/
def SourcesKnown (store : CoordinationStore) : Prop :=
  ∀ run ∈ store.tables.runs, ∀ source ∈ run.restartedFromRunId,
    ∃ other ∈ store.tables.runs, other.runId = source

section
variable {store after : CoordinationStore} {env : Env} {op : Operation}
  {old : Option TaskRecord} {input : CoordinationStateCommit}
  {committed : List PersistedCoordinationEvent}

theorem run_kept (hold : store.record? input.task.taskId = old)
    (hstore : store.commitState input = .ok (committed, after)) {run : PersistedRunState}
    (hrun : run ∈ store.tables.runs) : ∃ kept ∈ after.tables.runs, kept.runId = run.runId := by
  obtain ⟨record, hmem, hrun⟩ := List.mem_flatMap.mp hrun
  have hrec := record?_of_mem hmem
  by_cases hid : record.taskId = input.task.taskId
  · rw [hid, hold] at hrec
    subst hrec
    obtain ⟨y, hy, hyid⟩ := recordAfter_run_kept store.tables.lastSequence hold hrun
    exact ⟨y, List.mem_flatMap.mpr
      ⟨_, record?_mem (record?_after hold hstore), hy⟩, hyid⟩
  · rw [← record?_commit_ne hstore hid] at hrec
    exact ⟨run, List.mem_flatMap.mpr ⟨record, record?_mem hrec, hrun⟩, rfl⟩

theorem SourcesKnown.commit (hI : SourcesKnown store)
    (hold : store.record? input.task.taskId = old)
    (hstore : store.commitState input = .ok (committed, after)) : SourcesKnown after := by
  have hadm := (commitState_eq_ok.mp hstore).1
  have hknown : ∀ source, (∃ other ∈ store.tables.runs, other.runId = source) →
      ∃ other ∈ after.tables.runs, other.runId = source := by
    rintro source ⟨other, hother, rfl⟩
    exact run_kept hold hstore hother
  have hold' : ∀ x ∈ store.tables.runs, ∀ source ∈ x.restartedFromRunId,
      ∃ other ∈ after.tables.runs, other.runId = source :=
    fun x hx source hs => hknown source (hI x hx source hs)
  intro x hx source hs
  obtain ⟨record, hmem, hxr⟩ := List.mem_flatMap.mp hx
  rcases mem_records_after hold hstore hmem with rfl | ⟨hrec, _⟩
  · rcases (mem_recordAfter_runs hold).mp hxr with ⟨run, hrun, rfl⟩ | ⟨hxold, _⟩
    · have hs' := truthy_eq_some.mp hs
      rcases (hadm.run run hrun).source source hs'.1 with hself | hother
      · exact ⟨readRun run, hx, hself.symm⟩
      · exact hknown source hother
    · cases old with
      | none => cases hxold
      | some record =>
          exact hold' x (List.mem_flatMap.mpr ⟨record, record?_mem hold, hxold⟩)
            source hs
  · exact hold' x (List.mem_flatMap.mpr ⟨record, hrec, hxr⟩) source hs

theorem run_kept_deleted (hstore : store.deleteTask taskId = .ok after) {runId : String}
    (hgone : runId ∉ goneRuns store taskId)
    (hknown : ∃ other ∈ store.tables.runs, other.runId = runId) :
    ∃ other ∈ after.tables.runs, other.runId = runId := by
  obtain ⟨other, hother, rfl⟩ := hknown
  obtain ⟨owner, howner, hor⟩ := List.mem_flatMap.mp hother
  refine ⟨other, List.mem_flatMap.mpr ⟨_, (mem_records_deleted hstore).mpr
    ⟨owner, howner, ?_, rfl⟩, hor⟩, rfl⟩
  intro hid
  have hrec : store.tables.record? taskId = some owner :=
    hid ▸ record?_of_mem howner
  exact hgone (by simpa [goneRuns, hrec] using ⟨other, hor, rfl⟩)

theorem SourcesKnown.delete (hI : SourcesKnown store) (hstore : store.deleteTask taskId = .ok after) :
    SourcesKnown after := by
  intro x hx source hs
  obtain ⟨record, hmem, hxr⟩ := List.mem_flatMap.mp hx
  obtain ⟨kept, hkept, hne, rfl⟩ := (mem_records_deleted hstore).mp hmem
  exact run_kept_deleted hstore ((deleteTask_ok hstore).2.1 kept hkept hne x hxr source hs)
    (hI x (List.mem_flatMap.mpr ⟨kept, hkept, hxr⟩) source hs)

theorem sourcesKnown_step (h : StoreStep op env store after) (hI : SourcesKnown store) :
    SourcesKnown after := by
  cases h with
  | commit hc hstore => exact hI.commit hc.old_eq hstore
  | delete hop hstore => exact hI.delete hstore
  | protocol => exact hI

def EventsKnown (store : CoordinationStore) : Prop :=
  ∀ event ∈ store.tables.events, ∀ runId ∈ event.runId,
    ∃ run ∈ store.tables.runs, run.runId = runId

theorem EventsKnown.commit (hI : EventsKnown store)
    (hold : store.record? input.task.taskId = old)
    (hstore : store.commitState input = .ok (committed, after)) : EventsKnown after := by
  have hadm := (commitState_eq_ok.mp hstore).1
  intro event hevent runId hid
  obtain ⟨record, hmem, hevent⟩ := List.mem_flatMap.mp hevent
  rcases mem_records_after hold hstore hmem with rfl | ⟨hrec, _⟩
  · rw [recordAfter_events, List.mem_append] at hevent
    rcases hevent with hevent | hevent
    · cases old with
      | none => cases hevent
      | some record =>
          obtain ⟨run, hrun, rfl⟩ := hI event
            (List.mem_flatMap.mpr ⟨record, record?_mem hold, hevent⟩) runId hid
          exact run_kept hold hstore hrun
    · obtain ⟨raw, hraw, n, rfl⟩ := mem_numberEvents hevent
      have hid := (truthy_eq_some.mp hid).1
      rcases hadm.events_run raw hraw runId hid with ⟨run, hrun, rfl⟩ | ⟨run, hrun, rfl⟩
      · exact ⟨readRun run, List.mem_flatMap.mpr ⟨_, hmem,
          (mem_recordAfter_runs hold).mpr (.inl ⟨run, hrun, rfl⟩)⟩, rfl⟩
      · exact run_kept hold hstore hrun
  · obtain ⟨run, hrun, rfl⟩ := hI event (List.mem_flatMap.mpr ⟨record, hrec, hevent⟩) runId hid
    exact run_kept hold hstore hrun

theorem EventsKnown.delete (hI : EventsKnown store) (hstore : store.deleteTask taskId = .ok after) :
    EventsKnown after := by
  intro event hevent runId hid
  obtain ⟨record, hmem, hevent⟩ := List.mem_flatMap.mp hevent
  obtain ⟨kept, hkept, hne, rfl⟩ := (mem_records_deleted hstore).mp hmem
  exact run_kept_deleted hstore ((deleteTask_ok hstore).2.2 kept hkept hne event hevent runId hid)
    (hI event (List.mem_flatMap.mpr ⟨kept, hkept, hevent⟩) runId hid)

theorem eventsKnown_step (h : StoreStep op env store after) (hI : EventsKnown store) :
    EventsKnown after := by
  cases h with
  | commit hc hstore => exact hI.commit hc.old_eq hstore
  | delete hop hstore => exact hI.delete hstore
  | protocol => exact hI

end

end Newide
