import Mathlib.Data.List.Flatten
import Newide.SqliteStore

/-!
# The store and its constraints

What a commit needs to be admitted is collected in `Admitted`, one field
for every refusal, and `check_eq_ok` says it is exactly that.  From it
the schema's constraints are kept by every commit, so `CoordinationStore`
carries them and the later modules never mention the checks again: they
use `commitState_eq_ok` for what a commit was allowed to do and the
`record?` lemmas for what it left behind.
-/

namespace Newide

open Fallible Rows Rows.Distinct TaskRecord

/-! ## Admission -/

def TaskAdmitted (tables : Tables) (input : CoordinationStateCommit) : Prop :=
  match tables.record? input.task.taskId with
  | none => input.expectedTaskRevision = none ∧ input.task.revision = 1
  | some current =>
      input.expectedTaskRevision = some current.task.revision ∧
        input.task.revision = current.task.revision + 1

/-- A Run row a commit may write. -/
structure RunAdmitted (tables : Tables) (run : PersistedRunState) : Prop where
  /-- An active Run has no active sibling. -/
  sole : isActiveRun run = true → ∀ other ∈ tables.runs,
    other.taskId = run.taskId → isActiveRun other = true → other.runId = run.runId
  row : match lookup PersistedRunState.runId run.runId tables.runs with
    | none => run.revision = 1
    | some current => current.taskId = run.taskId ∧ run.revision = current.revision + 1
  source : ∀ source ∈ run.restartedFromRunId,
    source = run.runId ∨ ∃ other ∈ tables.runs, other.runId = source

/-- Everything that lets a commit through. -/
structure Admitted (tables : Tables) (input : CoordinationStateCommit) : Prop where
  events_ne : input.events.isEmpty = false
  runtime_task : input.runtimeState.taskId = input.task.taskId
  cursor : ∀ i ∈ input.runtimeState.cursorInput,
    i.WellFormed ∧ i.cursor = input.runtimeState.resumeCursor
  run_task : ∀ run ∈ input.run, run.taskId = input.task.taskId
  event_task : ∀ event ∈ input.events, event.taskId = some input.task.taskId
  event_run : ∀ event ∈ input.events, ∀ runId ∈ truthy event.runId,
    ∀ run ∈ input.run, runId = run.runId
  evidence : input.task.status = .completed → HasFinalEvidence input.task.finalOutput
  checkpoint_owner : ∀ checkpoint ∈ input.checkpoint,
    checkpoint.taskId = input.task.taskId ∧ ∀ run ∈ input.run, checkpoint.runId = run.runId
  checkpoint_event : ∀ checkpoint ∈ input.checkpoint, ∃ event ∈ input.events,
    event.eventType = "checkpoint.saved" ∧ event.subjectId = checkpoint.checkpointId
  task : TaskAdmitted tables input
  run : ∀ run ∈ input.run, RunAdmitted tables run
  current : ∀ runId ∈ input.runtimeState.currentRunId, tables.KnownRun input runId
  checkpoint_fresh : ∀ checkpoint ∈ input.checkpoint, ∀ other ∈ tables.checkpoints,
    other.checkpointId ≠ checkpoint.checkpointId
  checkpoint_parent : ∀ checkpoint ∈ input.checkpoint, ∀ parent ∈ checkpoint.parentCheckpointId,
    parent = checkpoint.checkpointId ∨ ∃ other ∈ tables.checkpoints, other.checkpointId = parent
  events_distinct : (input.events.map (·.eventId)).Nodup
  events_fresh : ∀ event ∈ input.events, ∀ old ∈ tables.events, old.eventId ≠ event.eventId
  events_run : ∀ event ∈ input.events, ∀ runId ∈ event.runId, tables.KnownRun input runId

variable {u : Unit}

theorem validateCursorInput_eq_ok {state : PersistedTaskRuntimeState} :
    validateCursorInput state = .ok u ↔
      ∀ i ∈ state.cursorInput, i.WellFormed ∧ i.cursor = state.resumeCursor := by
  unfold validateCursorInput
  cases h : state.cursorInput with
  | none => simp
  | some input =>
      simp only [bind_eq_ok, parseTaskCursorInput_eq_ok, ensure_eq_ok, Option.mem_some_iff,
        forall_eq']
      constructor
      · rintro ⟨i, ⟨hwf, rfl⟩, hc⟩
        exact ⟨hwf, hc⟩
      · rintro ⟨hwf, hc⟩
        exact ⟨input, ⟨hwf, rfl⟩, hc⟩

theorem validateEvent_eq_ok {input : CoordinationStateCommit} {event : Event} :
    validateEvent input event = .ok u ↔ event.taskId = some input.task.taskId ∧
      ∀ runId ∈ truthy event.runId, ∀ run ∈ input.run, runId = run.runId := by
  simp only [validateEvent, bind_eq_ok, ensure_eq_ok, exists_and_left, exists_const]

theorem validateCheckpoint_eq_ok {input : CoordinationStateCommit} :
    validateCheckpoint input = .ok u ↔ ∀ checkpoint ∈ input.checkpoint,
      (checkpoint.taskId = input.task.taskId ∧ ∀ run ∈ input.run, checkpoint.runId = run.runId) ∧
      ∃ event ∈ input.events,
        event.eventType = "checkpoint.saved" ∧ event.subjectId = checkpoint.checkpointId := by
  unfold validateCheckpoint
  cases h : input.checkpoint with
  | none => simp
  | some checkpoint =>
      simp only [bind_eq_ok, ensure_eq_ok, exists_and_left, exists_const, Option.mem_some_iff,
        forall_eq']

variable {run : PersistedRunState}

namespace Tables

variable {input : CoordinationStateCommit} {tables : Tables}

theorem checkTask_eq_ok :
    tables.checkTask input = .ok u ↔ TaskAdmitted tables input := by
  unfold checkTask TaskAdmitted
  cases tables.record? input.task.taskId with
  | none => simp only [bind_eq_ok, ensure_eq_ok, exists_and_left, exists_const]
  | some current => simp only [bind_eq_ok, ensure_eq_ok, exists_and_left, exists_const]

theorem checkRun_eq_ok :
    tables.checkRun run = .ok u ↔ RunAdmitted tables run := by
  have hrow : ∀ {u : Unit}, tables.checkRunRow run = .ok u ↔
      match lookup PersistedRunState.runId run.runId tables.runs with
      | none => run.revision = 1
      | some current => current.taskId = run.taskId ∧ run.revision = current.revision + 1 := by
    unfold checkRunRow
    cases lookup PersistedRunState.runId run.runId tables.runs with
    | none => simp only [ensure_eq_ok, implies_true]
    | some current => simp only [bind_eq_ok, ensure_eq_ok, exists_and_left, exists_const,
        implies_true]
  simp only [checkRun, bind_eq_ok, ensure_eq_ok, hrow, exists_and_left, exists_const]
  constructor
  · rintro ⟨hsole, hr, hsource⟩
    exact ⟨hsole, hr, hsource⟩
  · rintro ⟨hsole, hr, hsource⟩
    exact ⟨hsole, hr, hsource⟩

theorem check_eq_ok :
    tables.check input = .ok u ↔ Admitted tables input := by
  simp only [check, validateCommit, checkCheckpoint, checkEvents, bind_eq_ok, forM_eq_ok,
    ensure_eq_ok, validateCursorInput_eq_ok, validateEvent_eq_ok, validateCheckpoint_eq_ok,
    checkTask_eq_ok, checkRun_eq_ok, exists_and_left, exists_const, Option.mem_toList]
  constructor
  · rintro ⟨⟨h1, h2, h3, h4, h5, h6, h7⟩, h8, h9, h10, h11, ⟨h12, h13⟩, h14⟩
    exact ⟨h1, h2, h3, h4, fun e he => (h5 e he).1, fun e he => (h5 e he).2, h6,
      fun c hc => (h7 c hc).1, fun c hc => (h7 c hc).2, h8, h9, h10,
      fun c hc => (h11 c hc).1, fun c hc => (h11 c hc).2, h12, h13, h14⟩
  · rintro ⟨h1, h2, h3, h4, h5, h5', h6, h7, h7', h8, h9, h10, h11, h11', h12, h13, h14⟩
    exact ⟨⟨h1, h2, h3, h4, fun e he => ⟨h5 e he, h5' e he⟩, h6,
      fun c hc => ⟨h7 c hc, h7' c hc⟩⟩, h8, h9, h10,
      fun c hc => ⟨h11 c hc, h11' c hc⟩, ⟨h12, h13⟩, h14⟩

end Tables

/-! ## Writing a Run row -/

variable {runs : List PersistedRunState}

theorem writeRun_perm_insert
    (h : ∀ r ∈ runs, r.runId ≠ run.runId) : (writeRun runs run).Perm (run :: runs) := by
  have hnone := lookup_eq_none.mpr h
  simp only [writeRun, hnone]
  exact List.perm_insertionSort _ _

theorem writeRun_perm_replace {old : PersistedRunState}
    (hd : Rows.Distinct PersistedRunState.runId runs) (h : old ∈ runs) (hid : old.runId = run.runId) :
    
    (writeRun runs run).Perm (replace PersistedRunState.runId run runs) := by
  have hsome := hd.lookup_of_mem h
  rw [hid] at hsome
  simp only [writeRun, hsome]
  exact List.perm_insertionSort _ _

theorem mem_writeRun {x : PersistedRunState} (hd : Rows.Distinct PersistedRunState.runId runs) :
    x ∈ writeRun runs run ↔ x = run ∨ (x ∈ runs ∧ x.runId ≠ run.runId) := by
  by_cases hex : ∃ old ∈ runs, old.runId = run.runId
  · obtain ⟨old, hold, hid⟩ := hex
    rw [(writeRun_perm_replace hd hold hid).mem_iff, mem_replace]
    constructor
    · rintro (⟨rfl, _⟩ | h)
      · exact .inl rfl
      · exact .inr h
    · rintro (rfl | h)
      · exact .inl ⟨rfl, old, hold, hid⟩
      · exact .inr h
  · have hne : ∀ r ∈ runs, r.runId ≠ run.runId := fun r hr hid => hex ⟨r, hr, hid⟩
    rw [(writeRun_perm_insert hne).mem_iff, List.mem_cons]
    constructor
    · rintro (rfl | h)
      · exact .inl rfl
      · exact .inr ⟨h, hne x h⟩
    · rintro (rfl | ⟨h, _⟩)
      · exact .inl rfl
      · exact .inr h

theorem numberEvents_ids (last : Nat) (events : List Event) :
    (Tables.numberEvents last events).map (·.eventId) = events.map (·.eventId) := by
  induction events generalizing last with
  | nil => rfl
  | cons event rest ih => simp only [Tables.numberEvents, List.map_cons, ih, readEvent]

/-! ## Constraints of the schema -/

/-- Primary keys, `one_active_run_per_task`, and the unique event ids. -/
structure Constraints (tables : Tables) : Prop where
  tasks_distinct : Rows.Distinct taskId tables.records
  runs_distinct : Rows.Distinct PersistedRunState.runId tables.runs
  run_task : ∀ record ∈ tables.records, ∀ run ∈ record.runs, run.taskId = record.taskId
  one_active : ∀ record ∈ tables.records, ∀ a ∈ record.runs, ∀ b ∈ record.runs,
    isActiveRun a = true → isActiveRun b = true → a.runId = b.runId
  events_distinct : (tables.events.map (·.eventId)).Nodup

variable {record : TaskRecord}

namespace Constraints

variable {tables : Tables}

theorem empty : Constraints {} where
  tasks_distinct := List.nodup_nil
  runs_distinct := List.nodup_nil
  run_task := by simp
  one_active := by simp
  events_distinct := List.nodup_nil

theorem record_runs_distinct (h : Constraints tables)
    (hr : record ∈ tables.records) : Rows.Distinct PersistedRunState.runId record.runs := by
  have hsub : record.runs.Sublist tables.runs := by
    unfold Tables.runs
    rw [List.flatMap_def]
    exact List.sublist_flatten_of_mem (List.mem_map_of_mem hr)
  exact List.Nodup.sublist (hsub.map _) h.runs_distinct

theorem record_eq_of_run (h : Constraints tables) {a b : TaskRecord}
    (ha : a ∈ tables.records) (hb : b ∈ tables.records) {x y : PersistedRunState}
    (hx : x ∈ a.runs) (hy : y ∈ b.runs) (hid : x.runId = y.runId) : a = b := by
  have hxy : x = y := h.runs_distinct.eq_of_key
    (List.mem_flatMap.mpr ⟨a, ha, hx⟩) (List.mem_flatMap.mpr ⟨b, hb, hy⟩) hid
  subst hxy
  exact h.tasks_distinct.eq_of_key ha hb ((h.run_task a ha x hx).symm.trans (h.run_task b hb x hy))

end Constraints

/-! ## Commits keep the constraints -/

namespace Admitted

variable {tables : Tables} {input : CoordinationStateCommit}

theorem run_owner (hc : Constraints tables) (ha : Admitted tables input)
    (hrun : input.run = some run) {other : PersistedRunState}
    (ho : other ∈ tables.runs) (hid : other.runId = run.runId) :
    other.taskId = input.task.taskId ∧ run.revision = other.revision + 1 := by
  have hrow := (ha.run run hrun).row
  have hl := hc.runs_distinct.lookup_of_mem ho
  rw [hid] at hl
  rw [hl] at hrow
  exact ⟨hrow.1.trans (ha.run_task run hrun), hrow.2⟩

end Admitted

theorem write_records_perm {tables : Tables} (hc : Constraints tables)
    (input : CoordinationStateCommit) :
    (∃ record rest, tables.record? input.task.taskId = some record ∧
        tables.records.Perm (record :: rest) ∧
        (tables.write input).records.Perm (record.write input tables.lastSequence :: rest)) ∨
    (tables.record? input.task.taskId = none ∧
        (tables.write input).records.Perm
          (writeRecord [] [] [] input tables.lastSequence :: tables.records)) := by
  cases hr : tables.record? input.task.taskId with
  | none =>
      refine .inr ⟨rfl, ?_⟩
      simp only [Tables.write, hr]
      exact List.perm_append_singleton _ _
  | some record =>
      have hmem := lookup_mem hr
      have hkey : record.taskId = (record.write input tables.lastSequence).taskId :=
        lookup_key hr
      obtain ⟨rest, hp, hp'⟩ := hc.tasks_distinct.replace_perm hmem hkey
      refine .inl ⟨record, rest, rfl, hp, ?_⟩
      simp only [Tables.write, hr]
      exact hp'

variable {checkpoints : List PersistedFullCheckpoint} {events : List PersistedCoordinationEvent}
  {last : Nat}

theorem writeRecord_runs {input : CoordinationStateCommit} :
    (writeRecord runs events checkpoints input last).runs =
      match input.run with
      | none => runs
      | some run => writeRun runs (readRun run) := rfl

theorem constraints_of_perm {tables : Tables} {input : CoordinationStateCommit}
    {rest : List TaskRecord} {after : Tables} (hc : Constraints tables) (ha : Admitted tables input)
    (hafter : after.records.Perm (writeRecord runs events checkpoints input last :: rest))
    (hrest : ∀ record ∈ rest, record ∈ tables.records ∧ record.taskId ≠ input.task.taskId)
    (htasks : Rows.Distinct taskId rest)
    (hruns : tables.runs.Perm (runs ++ rest.flatMap (·.runs)))
    (howner : ∀ run ∈ runs, run.taskId = input.task.taskId)
    (hone : ∀ a ∈ runs, ∀ b ∈ runs, isActiveRun a = true → isActiveRun b = true →
      a.runId = b.runId) (hevents : tables.events.Perm (events ++ rest.flatMap (·.events))) :
    Constraints after := by
  have hdruns : Rows.Distinct PersistedRunState.runId (runs ++ rest.flatMap (·.runs)) :=
    hc.runs_distinct.of_perm hruns
  have hdown : Rows.Distinct PersistedRunState.runId runs :=
    List.Nodup.sublist ((List.sublist_append_left _ _).map _) hdruns
  have hmem : ∀ record ∈ after.records,
      record = writeRecord runs events checkpoints input last ∨ record ∈ rest := by
    intro record hrecord
    exact List.mem_cons.mp (hafter.mem_iff.mp hrecord)
  have hmemRun : ∀ run ∈ (writeRecord runs events checkpoints input last).runs,
      run ∈ runs ∨ ∃ r, input.run = some r ∧ run = readRun r := by
    intro run hrun
    rw [writeRecord_runs] at hrun
    cases hinput : input.run with
    | none =>
        rw [hinput] at hrun
        exact .inl hrun
    | some r =>
        rw [hinput] at hrun
        rcases (mem_writeRun hdown).mp hrun with h | ⟨h, _⟩
        · exact .inr ⟨r, rfl, h⟩
        · exact .inl h
  have hafterRuns : after.runs.Perm
      ((writeRecord runs events checkpoints input last).runs ++ rest.flatMap (·.runs)) := by
    unfold Tables.runs
    have := hafter.flatMap_right (fun record : TaskRecord => record.runs)
    rw [List.flatMap_cons] at this
    exact this
  refine ⟨?_, ?_, ?_, ?_, ?_⟩
  · refine of_perm hafter.symm (List.nodup_cons.mpr ⟨?_, htasks⟩)
    intro hin
    obtain ⟨record, hrecord, hkey⟩ := List.mem_map.mp hin
    exact (hrest record hrecord).2 hkey
  · refine of_perm hafterRuns.symm ?_
    rw [writeRecord_runs]
    cases hinput : input.run with
    | none => exact hdruns
    | some r =>
        by_cases hex : ∃ old ∈ runs, old.runId = r.runId
        · obtain ⟨old, hold, hid⟩ := hex
          have hperm : (writeRun runs (readRun r)).Perm
              (replace PersistedRunState.runId (readRun r) runs) :=
            writeRun_perm_replace hdown hold hid
          refine of_perm (hperm.symm.append_right _) ?_
          unfold Rows.Distinct at hdruns ⊢
          rw [List.map_append, replace_keys, ← List.map_append]
          exact hdruns
        · have hne : ∀ x ∈ runs, x.runId ≠ (readRun r).runId := fun x hx hid => hex ⟨x, hx, hid⟩
          refine of_perm ((writeRun_perm_insert hne).symm.append_right _) ?_
          refine List.nodup_cons.mpr ⟨?_, hdruns⟩
          intro hin
          obtain ⟨x, hx, hid⟩ := List.mem_map.mp hin
          rcases List.mem_append.mp hx with hx | hx
          · exact hne x hx hid
          · have hxt : x ∈ tables.runs := hruns.mem_iff.mpr (List.mem_append_right _ hx)
            obtain ⟨record, hrecord, hxr⟩ := List.mem_flatMap.mp hx
            have howns := (ha.run_owner hc hinput hxt hid).1
            exact (hrest record hrecord).2
              ((hc.run_task record (hrest record hrecord).1 x hxr).symm.trans howns)
  · intro record hrecord run hrun
    rcases hmem record hrecord with rfl | hr
    · rcases hmemRun run hrun with h | ⟨r, hr, rfl⟩
      · exact howner run h
      · exact ha.run_task r hr
    · exact hc.run_task record (hrest record hr).1 run hrun
  · intro record hrecord a hra b hrb hactA hactB
    rcases hmem record hrecord with rfl | hr
    · have hsole : ∀ r, input.run = some r → isActiveRun r = true → ∀ x ∈ runs,
          isActiveRun x = true → x.runId = r.runId := by
        intro r hinput hact x hx hactx
        have hxt : x ∈ tables.runs := hruns.mem_iff.mpr (List.mem_append_left _ hx)
        exact (ha.run r hinput).sole hact x hxt
          ((howner x hx).trans (ha.run_task r hinput).symm) hactx
      rcases hmemRun a hra with h | ⟨r, hr, rfl⟩ <;> rcases hmemRun b hrb with h' | ⟨r', hr', rfl⟩
      · exact hone a h b h' hactA hactB
      · exact hsole r' hr' hactB a h hactA
      · exact (hsole r hr hactA b h' hactB).symm
      · rw [hr] at hr'
        cases hr'
        rfl
    · exact hc.one_active record (hrest record hr).1 a hra b hrb hactA hactB
  · have hafterEvents : after.events.Perm
        ((writeRecord runs events checkpoints input last).events ++ rest.flatMap (·.events)) := by
      unfold Tables.events
      have := hafter.flatMap_right (fun record : TaskRecord => record.events)
      rw [List.flatMap_cons] at this
      exact this
    have hold : ((events ++ rest.flatMap (·.events)).map (·.eventId)).Nodup :=
      (hevents.map _).nodup_iff.mp hc.events_distinct
    have hsplit : (((events ++ rest.flatMap (·.events)) ++
        Tables.numberEvents last input.events).map (·.eventId)).Nodup := by
      rw [List.map_append, numberEvents_ids]
      refine List.nodup_append.mpr ⟨hold, ha.events_distinct, ?_⟩
      intro id hid id' hid' heq
      obtain ⟨old, hold', rfl⟩ := List.mem_map.mp hid
      obtain ⟨event, hevent, rfl⟩ := List.mem_map.mp hid'
      exact ha.events_fresh event hevent old (hevents.mem_iff.mpr hold') heq
    refine ((hafterEvents.map _).nodup_iff.mpr ?_)
    refine (List.Perm.nodup_iff (List.Perm.map _ ?_)).mp hsplit
    show ((events ++ rest.flatMap (·.events)) ++ Tables.numberEvents last input.events).Perm
      ((events ++ Tables.numberEvents last input.events) ++ rest.flatMap (·.events))
    rw [List.append_assoc, List.append_assoc]
    exact List.perm_append_comm.append_left events

theorem constraints_write {tables : Tables} {input : CoordinationStateCommit}
    (hc : Constraints tables) (ha : Admitted tables input) : Constraints (tables.write input) := by
  rcases write_records_perm hc input with ⟨record, rest, hr, hp, hp'⟩ | ⟨hr, hp'⟩
  · have hmem : record ∈ tables.records := lookup_mem hr
    have hkey : record.taskId = input.task.taskId := lookup_key hr
    have hd : Rows.Distinct taskId (record :: rest) := hc.tasks_distinct.of_perm hp
    refine constraints_of_perm hc ha hp' ?_ (List.nodup_cons.mp hd).2
      (hp.flatMap_right _) (fun run hrun => (hc.run_task record hmem run hrun).trans hkey)
      (hc.one_active record hmem) (hp.flatMap_right _)
    intro other ho
    refine ⟨hp.mem_iff.mpr (List.mem_cons_of_mem _ ho), fun hk => ?_⟩
    exact (List.nodup_cons.mp hd).1 (List.mem_map.mpr ⟨other, ho, hk.trans hkey.symm⟩)
  · refine constraints_of_perm hc ha hp' ?_ hc.tasks_distinct (List.Perm.refl _)
      (by simp) (by simp) (List.Perm.refl _)
    exact fun other ho => ⟨ho, lookup_eq_none.mp hr other ho⟩

variable {taskId : String}

theorem constraints_deleteTask {tables after : Tables}
    (hc : Constraints tables) (h : tables.deleteTask taskId = .ok after) : Constraints after := by
  simp only [Tables.deleteTask, bind_eq_ok, ensure_eq_ok, pure_eq_ok] at h
  obtain ⟨_, _, _, _, rfl⟩ := h
  set gone := ((tables.record? taskId).elim [] (·.runs)).map (·.runId)
  have hsub : (tables.records.filter fun record => record.taskId ≠ taskId).Sublist
      tables.records := List.filter_sublist
  have hmem : ∀ record, record ∈ (tables.records.filter fun record =>
      record.taskId ≠ taskId).map (Tables.forgetRuns gone) →
      ∃ old ∈ tables.records, old.runs = record.runs ∧ old.taskId = record.taskId := by
    intro record hr
    obtain ⟨old, hold, rfl⟩ := List.mem_map.mp hr
    exact ⟨old, hsub.subset hold, rfl, rfl⟩
  refine ⟨?_, ?_, ?_, ?_, ?_⟩
  · unfold Rows.Distinct
    rw [List.map_map]
    exact List.Nodup.sublist (hsub.map _) hc.tasks_distinct
  · unfold Rows.Distinct Tables.runs
    rw [List.flatMap_map]
    exact List.Nodup.sublist ((hsub.flatMap _).map _) hc.runs_distinct
  · intro record hr run hrun
    obtain ⟨old, hold, hruns, htask⟩ := hmem record hr
    rw [← htask]
    exact hc.run_task old hold run (hruns ▸ hrun)
  · intro record hr a ha b hb
    obtain ⟨old, hold, hruns, _⟩ := hmem record hr
    exact hc.one_active old hold a (hruns ▸ ha) b (hruns ▸ hb)
  · unfold Tables.events
    rw [List.flatMap_map]
    exact List.Nodup.sublist ((hsub.flatMap _).map _) hc.events_distinct

/-! ## The store -/

structure CoordinationStore where
  tables : Tables
  constraints : Constraints tables

namespace CoordinationStore

def empty : CoordinationStore where
  tables := {}
  constraints := .empty

def record? (store : CoordinationStore) (taskId : String) : Option TaskRecord :=
  store.tables.record? taskId

def getTaskAggregate (store : CoordinationStore) (taskId : String) :
    Option PersistedTaskAggregate :=
  store.tables.getTaskAggregate taskId

def listTaskAggregates (store : CoordinationStore) : List PersistedTaskAggregate :=
  store.tables.listTaskAggregates

def getLatestCheckpoint (store : CoordinationStore) (taskId : String) :
    Option PersistedFullCheckpoint :=
  store.tables.getLatestCheckpoint taskId

/-- `commitState`: all or nothing.  Returns the events with their sequence numbers. -/
def commitState (store : CoordinationStore) (input : CoordinationStateCommit) :
    Except Thrown (List PersistedCoordinationEvent × CoordinationStore) :=
  match h : store.tables.check input with
  | .error e => .error e
  | .ok _ => .ok (Tables.numberEvents store.tables.lastSequence input.events,
      { tables := store.tables.write input
        constraints := constraints_write store.constraints (Tables.check_eq_ok.mp h) })

/-- `deleteTask` of the store. -/
def deleteTask (store : CoordinationStore) (taskId : String) : Except Thrown CoordinationStore :=
  match h : store.tables.deleteTask taskId with
  | .error e => .error e
  | .ok tables => .ok { tables, constraints := constraints_deleteTask store.constraints h }

variable {store after : CoordinationStore} {input : CoordinationStateCommit}
  {committed : List PersistedCoordinationEvent}

@[ext] theorem ext (h : store.tables = after.tables) : store = after := by
  cases store
  cases after
  cases h
  rfl

theorem commitState_eq_ok :
    store.commitState input = .ok (committed, after) ↔
      Admitted store.tables input ∧
        committed = Tables.numberEvents store.tables.lastSequence input.events ∧
        after.tables = store.tables.write input := by
  unfold commitState
  constructor
  · intro h
    split at h
    · cases h
    · next hcheck =>
        cases h
        exact ⟨Tables.check_eq_ok.mp hcheck, rfl, rfl⟩
  · rintro ⟨ha, rfl, hw⟩
    split
    · next e hcheck =>
        rw [(Tables.check_eq_ok (u := ())).mpr ha] at hcheck
        cases hcheck
    · refine congrArg Except.ok (Prod.ext rfl ?_)
      exact ext hw.symm

theorem commitState_of_admitted (h : Admitted store.tables input) :
    ∃ committed after, store.commitState input = .ok (committed, after) :=
  ⟨_, ⟨_, constraints_write store.constraints h⟩, commitState_eq_ok.mpr ⟨h, rfl, rfl⟩⟩

theorem record?_mem (h : store.record? taskId = some record) : record ∈ store.tables.records :=
  lookup_mem h

theorem record?_taskId (h : store.record? taskId = some record) : record.taskId = taskId :=
  lookup_key h

theorem record?_of_mem (h : record ∈ store.tables.records) :
    store.record? record.taskId = some record :=
  store.constraints.tasks_distinct.lookup_of_mem h

theorem getTaskAggregate_of_record (h : store.record? taskId = some record) :
    store.getTaskAggregate taskId = some record.aggregate :=
  congrArg (Option.map aggregate) h

theorem record?_commit_self (h : store.commitState input = .ok (committed, after))
    (hr : store.record? input.task.taskId = some record) :
    after.record? input.task.taskId = some (record.write input store.tables.lastSequence) := by
  obtain ⟨_, _, hw⟩ := commitState_eq_ok.mp h
  have hr' : store.tables.record? input.task.taskId = some record := hr
  unfold record? Tables.record?
  rw [hw]
  simp only [Tables.write, hr']
  have hkey : record.taskId = (record.write input store.tables.lastSequence).taskId :=
    record?_taskId hr
  exact lookup_replace_self store.constraints.tasks_distinct (record?_mem hr) hkey

theorem record?_commit_new (h : store.commitState input = .ok (committed, after))
    (hr : store.record? input.task.taskId = none) :
    after.record? input.task.taskId =
      some (writeRecord [] [] [] input store.tables.lastSequence) := by
  obtain ⟨_, _, hw⟩ := commitState_eq_ok.mp h
  have hr' : store.tables.record? input.task.taskId = none := hr
  have hmem : writeRecord [] [] [] input store.tables.lastSequence ∈ after.tables.records := by
    rw [hw]
    simp only [Tables.write, hr']
    exact List.mem_append_right _ (List.mem_singleton_self _)
  exact record?_of_mem hmem

theorem record?_commit_ne (h : store.commitState input = .ok (committed, after))
    (hne : taskId ≠ input.task.taskId) : after.record? taskId = store.record? taskId := by
  obtain ⟨_, _, hw⟩ := commitState_eq_ok.mp h
  unfold record? Tables.record?
  rw [hw]
  cases hr : store.tables.record? input.task.taskId with
  | none =>
      simp only [Tables.write, hr]
      unfold lookup
      rw [List.find?_append]
      have hother : (writeRecord [] [] [] input store.tables.lastSequence).taskId ≠ taskId :=
        fun hk => hne hk.symm
      simp [hother]
  | some record =>
      simp only [Tables.write, hr]
      exact lookup_replace_ne hne

theorem mem_listTaskAggregates {aggregate : PersistedTaskAggregate} :
    aggregate ∈ store.listTaskAggregates ↔
      ∃ record ∈ store.tables.records, record.aggregate = aggregate := by
  simp only [listTaskAggregates, Tables.listTaskAggregates, List.mem_map]
  constructor
  · rintro ⟨record, hr, rfl⟩
    exact ⟨record, (List.mem_insertionSort _).mp hr, rfl⟩
  · rintro ⟨record, hr, rfl⟩
    exact ⟨record, (List.mem_insertionSort _).mpr hr, rfl⟩

end CoordinationStore

end Newide
