import Newide.RunLife
import Newide.SnapshotChecks

/-!
# Interrupting a Run

`commitInterruptedRun` is never refused on stored rows when ids are new,
and leaves a blocked Task whose latest checkpoint stands where the Run
stood.  Whether the Task can then be shown depends on its rows alone.
-/

namespace Newide

open Fallible CoordinationStore

/-! ## Cursor inputs of a safepoint -/

theorem synthesizeCursorInput_wellFormed {resumeCursor : TaskResumeCursor}
    {aggregate : PersistedTaskAggregate} {runId : String} {input : TaskCursorInput}
    (hseed : aggregate.runtimeState.diagnostics.Unseeded) (hrun : runId ≠ "")
    (h : synthesizeCursorInput resumeCursor aggregate runId = some input) : input.WellFormed := by
  obtain ⟨hchangeset, hsha⟩ := hseed
  cases resumeCursor with
  | selectAgent =>
      cases h
      exact ⟨by simp, hrun⟩
  | executeAgent =>
      obtain ⟨winner, hwinner, rfl⟩ := Option.map_eq_some_iff.mp h
      exact ⟨by simp, by simp, (truthy_eq_some.mp hwinner).2⟩
  | council =>
      cases h
      exact ⟨by simp, by simp⟩
  | gate =>
      obtain ⟨changeset, hc, rfl⟩ := Option.map_eq_some_iff.mp h
      have hne := (truthy_eq_some.mp hc).2
      rw [hsha]
      exact ⟨hne, hne, rfl, by decide, by decide, by decide⟩
  | deliver =>
      obtain ⟨changeset, hc, rfl⟩ := Option.map_eq_some_iff.mp h
      rw [hsha]
      exact ⟨(truthy_eq_some.mp hc).2, by decide, by decide⟩
  | mailboxWait =>
      cases h
      decide
  | done =>
      cases h
      trivial

theorem interruptedCursor_fits {record : TaskRecord} {runId : String} (hkept : WellKept record)
    (hrun : runId ≠ "") {i : TaskCursorInput}
    (hi : (safepointCursorInput record.aggregate runId <|>
      record.runtimeState.cursorInput) = some i) :
    i.WellFormed ∧ i.cursor = record.runtimeState.resumeCursor := by
  simp only [Option.orElse_eq_orElse, Option.orElse_eq_or, Option.or_eq_some_iff] at hi
  rcases hi with hi | ⟨_, hi⟩
  · refine ⟨?_, safepointCursorInput_cursor hi⟩
    simp only [safepointCursorInput, Option.orElse_eq_orElse, Option.orElse_eq_or,
      Option.or_eq_some_iff, Option.filter_eq_some_iff] at hi
    rcases hi with ⟨hi, _⟩ | ⟨_, hi⟩
    · exact (hkept.cursor i hi).1
    · exact synthesizeCursorInput_wellFormed hkept.unseeded hrun hi
  · exact hkept.cursor i hi

/-! ## Admission -/

/-- The ids and readings a process hands out fit the store: no row has one of its ids. -/
structure Supplies (env : Env) (store : CoordinationStore) : Prop where
  event_fresh : ∀ k, ∀ old ∈ store.tables.events, old.eventId ≠ env.createEventId k
  event_injective : Function.Injective env.createEventId
  event_ne : ∀ k, env.createEventId k ≠ ""
  checkpoint_fresh : ∀ k, ∀ old ∈ store.tables.checkpoints,
    old.checkpointId ≠ env.createCheckpointId k
  checkpoint_injective : Function.Injective env.createCheckpointId
  clock_ne : ∀ k, env.now k ≠ ""

theorem Supplies.stopped {store : CoordinationStore} {time : Char}
    (hevents : ∀ old ∈ store.tables.events, old.eventId.toList.head? ≠ some time)
    (hcheckpoints : ∀ old ∈ store.tables.checkpoints,
      old.checkpointId.toList.head? ≠ some time) : Supplies (stoppedEnv time) store where
  event_fresh k old hold heq := hevents old hold (by simp [heq, stoppedEnv])
  event_injective a b hab := by
    simpa [stoppedEnv] using congrArg (fun id : String => id.toList.length) hab
  event_ne k heq := by simpa [stoppedEnv] using congrArg String.toList heq
  checkpoint_fresh k old hold heq := hcheckpoints old hold (by simp [heq, stoppedEnv])
  checkpoint_injective a b hab := by
    simpa [stoppedEnv] using congrArg (fun id : String => id.toList.length) hab
  clock_ne k heq := by simpa [stoppedEnv] using congrArg String.toList heq

section
variable {store after : CoordinationStore} {env : Env} {record : TaskRecord}
  {run : PersistedRunState} {input : InterruptRunInput}
  {committed : List PersistedCoordinationEvent}

theorem latest_mem {taskId : String} {checkpoint : PersistedFullCheckpoint}
    (h : store.getLatestCheckpoint taskId = some checkpoint) :
    ∃ record, store.record? taskId = some record ∧ checkpoint ∈ record.checkpoints := by
  obtain ⟨record, hrec, hnew⟩ := Option.bind_eq_some_iff.mp h
  exact ⟨record, hrec, (List.mem_filter.mp (Rows.newest_mem hnew)).1⟩

theorem interrupt_admitted (hkept : WellKept record) (hsources : SourcesKnown store)
    (hmem : record ∈ store.tables.records) (hrun : run ∈ record.runs) (hnamed : run.runId ≠ "")
    (hs : Supplies env store) :
    Admitted store.tables (interruptCommit env record.aggregate run input
      (store.getLatestCheckpoint record.taskId)) := by
  have hrow : run ∈ store.tables.runs := List.mem_flatMap.mpr ⟨record, hmem, hrun⟩
  have hrec : store.tables.record? record.task.taskId = some record :=
    record?_of_mem hmem
  refine
    { events_ne := rfl
      runtime_task := hkept.runtime_task
      cursor := fun i hi => interruptedCursor_fits hkept hnamed hi
      run_task := ?_
      event_task := ?_
      event_run := ?_
      evidence := fun h => by cases h
      checkpoint_owner := ?_
      checkpoint_event := ?_
      task := ?_
      run := ?_
      current := fun _ h => by cases h
      checkpoint_fresh := ?_
      checkpoint_parent := ?_
      events_distinct := ?_
      events_fresh := ?_
      events_run := ?_ }
  · rintro w hw
    cases hw
    exact store.constraints.run_task record hmem run hrun
  · intro event he
    simp only [interruptCommit, List.mem_cons, List.not_mem_nil, or_false] at he
    rcases he with rfl | rfl | rfl <;> rfl
  · intro event he id hid w hw
    cases hw
    simp only [interruptCommit, List.mem_cons, List.not_mem_nil, or_false] at he
    have hid := (truthy_eq_some.mp hid).1
    rcases he with rfl | rfl | rfl <;> exact (Option.some.inj hid).symm
  · rintro checkpoint hc
    cases hc
    refine ⟨rfl, fun w hw => ?_⟩
    cases hw
    rfl
  · rintro checkpoint hc
    cases hc
    exact ⟨_, List.mem_cons_of_mem _ (List.mem_cons_of_mem _ (List.mem_singleton_self _)),
      rfl, rfl⟩
  · unfold TaskAdmitted
    rw [show (interruptCommit env record.aggregate run input
      (store.getLatestCheckpoint record.taskId)).task.taskId = record.task.taskId from rfl, hrec]
    exact ⟨rfl, rfl⟩
  · rintro w hw
    cases hw
    refine ⟨fun h => (by cases h), ?_, ?_⟩
    · have hl := store.constraints.runs_distinct.lookup_of_mem hrow
      simp only [hl]
      trivial
    · exact fun source hsource => .inr (hsources run hrow source hsource)
  · rintro checkpoint hc
    cases hc
    exact fun other hother => hs.checkpoint_fresh 0 other hother
  · rintro checkpoint hc parent hparent
    cases hc
    obtain ⟨hparent, _⟩ := truthy_eq_some.mp hparent
    obtain ⟨inherited, hinherited, rfl⟩ := Option.map_eq_some_iff.mp hparent
    have hlatest : store.getLatestCheckpoint record.taskId = some inherited := by
      split at hinherited
      · exact hinherited
      · cases hinherited
    obtain ⟨owner, howner, hc⟩ := latest_mem hlatest
    exact .inr ⟨inherited, List.mem_flatMap.mpr
      ⟨owner, record?_mem howner, hc⟩, rfl⟩
  · have h01 := hs.event_injective.ne (show 0 ≠ 1 by decide)
    have h02 := hs.event_injective.ne (show 0 ≠ 2 by decide)
    have h12 := hs.event_injective.ne (show 1 ≠ 2 by decide)
    simp [interruptCommit, createEvent, h01, h02, h12]
  · intro event he old hold
    simp only [interruptCommit, List.mem_cons, List.not_mem_nil, or_false] at he
    rcases he with rfl | rfl | rfl <;> exact hs.event_fresh _ old hold
  · intro event he id hid
    simp only [interruptCommit, List.mem_cons, List.not_mem_nil, or_false] at he
    refine .inr ⟨run, hrow, ?_⟩
    rcases he with rfl | rfl | rfl <;> exact Option.some.inj hid

/-! ## What an interruption leaves -/

def interruptedRecord (env : Env) (store : CoordinationStore) (record : TaskRecord)
    (run : PersistedRunState) (input : InterruptRunInput) : TaskRecord :=
  record.write (interruptCommit env record.aggregate run input
    (store.getLatestCheckpoint record.taskId)) store.tables.lastSequence

def interruptedRun (env : Env) (run : PersistedRunState) : PersistedRunState :=
  readRun
    { run with
      status := .interrupted
      revision := run.revision + 1
      completedAt := some (env.now 0)
      updatedAt := env.now 0 }

theorem mem_interrupted_runs (hmem : record ∈ store.tables.records) {x : PersistedRunState} :
    x ∈ (interruptedRecord env store record run input).runs ↔
      x = interruptedRun env run ∨ (x ∈ record.runs ∧ x.runId ≠ run.runId) :=
  mem_writeRun (store.constraints.record_runs_distinct hmem)

theorem interrupted_idle (env : Env) (input : InterruptRunInput)
    (hmem : record ∈ store.tables.records) (hrun : run ∈ record.runs)
    (hactive : isActiveRun run = true) :
    ∀ x ∈ (interruptedRecord env store record run input).runs, isActiveRun x = false :=
  ends_idle (record?_of_mem hmem) hrun hactive rfl rfl rfl

theorem interrupted_latest (hvalid : ∀ c ∈ record.checkpoints, c.validityStatus = .valid)
    (hlater : ∀ c ∈ record.checkpoints, c.createdAt < env.now 0)
    (hrec : after.record? record.taskId = some (interruptedRecord env store record run input)) :
    after.getLatestCheckpoint record.taskId = some (readCheckpoint
      (interruptCheckpoint env record.aggregate run input
        (store.getLatestCheckpoint record.taskId))) := by
  have hrec : after.tables.record? record.taskId =
      some (interruptedRecord env store record run input) := hrec
  simp only [getLatestCheckpoint, Tables.getLatestCheckpoint, hrec,
    Option.bind_some]
  have hall : (interruptedRecord env store record run input).checkpoints.filter
      (fun checkpoint => checkpoint.validityStatus = .valid) =
      record.checkpoints ++ [readCheckpoint (interruptCheckpoint env record.aggregate run input
        (store.getLatestCheckpoint record.taskId))] := by
    show (record.checkpoints ++ [_]).filter _ = _
    rw [List.filter_append, List.filter_eq_self.mpr fun c hc => by simpa using hvalid c hc]
    rfl
  rw [hall]
  refine Rows.newest_append_of_newer fun c hc => ?_
  simp only [checkpointNewer, decide_eq_true_eq]
  exact .inl (hlater c hc)

theorem interrupted_runEvents {id : String} :
    (interruptedRecord env store record run input).aggregate.runEvents id =
      record.aggregate.runEvents id ++
        (Tables.numberEvents store.tables.lastSequence (interruptCommit env record.aggregate run
          input (store.getLatestCheckpoint record.taskId)).events).filter
            fun event => event.runId = some id :=
  List.filter_append _ _

theorem interrupted_readable (input : InterruptRunInput)
    (hmem : record ∈ store.tables.records) (hrun : run ∈ record.runs)
    (hs : Supplies env store) (h : Readable record.aggregate) :
    Readable (interruptedRecord env store record run input).aggregate := by
  have hnew : ∀ id, ∀ event ∈ (Tables.numberEvents store.tables.lastSequence
      (interruptCommit env record.aggregate run input
        (store.getLatestCheckpoint record.taskId)).events).filter (fun event => event.runId = some id),
      TimelineEvent event ∧ event.eventType ∉ evidenceTypes := by
    intro id event he
    have he := (List.mem_filter.mp he).1
    simp only [interruptCommit, Tables.numberEvents, List.mem_cons, List.not_mem_nil,
      or_false] at he
    rcases he with rfl | rfl | rfl
    · exact ⟨⟨hs.event_ne _, by simp [readEvent, createEvent], hs.clock_ne _⟩,
        by simp [readEvent, createEvent, evidenceTypes]⟩
    · exact ⟨⟨hs.event_ne _, by simp [readEvent, createEvent], hs.clock_ne _⟩,
        by simp [readEvent, createEvent, evidenceTypes]⟩
    · exact ⟨⟨hs.event_ne _, by simp [readEvent, createEvent], hs.clock_ne _⟩,
        by simp [readEvent, createEvent, evidenceTypes]⟩
  refine ⟨h.task_id, h.spec, h.criteria, h.budget, h.created_at, h.error, fun x hx => ?_⟩
  rcases (mem_interrupted_runs hmem).mp hx with rfl | ⟨hx, _⟩
  · exact (h.runs run hrun).extend rfl rfl rfl
      ⟨truthy_ne (some (env.now 0)), truthy_ne run.startedAt⟩ interrupted_runEvents (hnew _)
  · have hr := h.runs x hx
    exact hr.extend rfl rfl rfl hr.times interrupted_runEvents (hnew _)

theorem interrupted_shown (hmem : record ∈ store.tables.records) (hrun : run ∈ record.runs)
    (hactive : isActiveRun run = true) (hs : Supplies env store) (h : Readable record.aggregate)
    (hout : record.task.finalOutput = none)
    (hstore : store.commitState (interruptCommit env record.aggregate run input
      (store.getLatestCheckpoint record.taskId)) = .ok (committed, after)) :
    ∃ snapshot, projectAggregate (interruptedRecord env store record run input).aggregate =
      .ok snapshot := by
  have hafter : interruptedRecord env store record run input ∈ after.tables.records :=
    record?_mem (record?_commit_self hstore
      (record?_of_mem hmem))
  refine projectAggregate_ok (interrupted_readable _ hmem hrun hs h) (hs.clock_ne 0) hout
    (after.constraints.run_task _ hafter) (after.constraints.record_runs_distinct hafter) ?_
  rw [List.filter_eq_nil_iff.mpr fun x hx => by
    simpa using interrupted_idle _ _ hmem hrun hactive x hx]
  exact Nat.zero_le 1

end

end Newide
