import Newide.Interruption

/-!
# Beginning a Run on an idle Task

A `beginRun` on an existing Task that passed its checks is taken by the
store when its ids are new, and a Task whose rows were readable can be
shown with its new Run.
-/

namespace Newide

open Fallible CoordinationStore BeginTaskRunInput

section
variable {store after : CoordinationStore} {env : Env} {record : TaskRecord}
  {request : BeginTaskRunInput} {committed : List PersistedCoordinationEvent}

/-- A request for a new Run of a Task: it brings no events of its own, and the Run it
restarts from is stored. -/
structure BeginsFresh (env : Env) (store : CoordinationStore) (record : TaskRecord)
    (request : BeginTaskRunInput) : Prop where
  task : request.taskId = record.taskId
  own_events : request.runCreatedEvent = none ∧ request.runStartedEvent = none
  named : request.runId ≠ ""
  fresh : ∀ run ∈ store.tables.runs, run.runId ≠ request.runId
  source : ∀ source ∈ request.restartedFromRunId,
    ∃ other ∈ store.tables.runs, other.runId = source
  input : request.initialCursorInput.WellFormed
  supplies : Supplies env store

theorem beginRunCommit_events (h : BeginsFresh env store record request) :
    (beginRunCommit env request (some record.aggregate)).events =
      [createEvent env 1 "run.created" request.runId request.taskId request.runId
        request.runPayload,
       createEvent env 2 "run.started" request.runId request.taskId request.runId
        request.runPayload] := by
  simp [beginRunCommit, events, h.own_events.1, h.own_events.2]

theorem begin_admitted (hmem : record ∈ store.tables.records) (hidle : record.activeRuns = [])
    (h : BeginsFresh env store record request) :
    Admitted store.tables (beginRunCommit env request (some record.aggregate)) := by
  have hrec : store.tables.record? record.task.taskId = some record :=
    record?_of_mem hmem
  have htask : record.task.taskId = request.taskId := h.task.symm
  have hevents := beginRunCommit_events h
  refine
    { events_ne := by rw [hevents]; rfl
      runtime_task := h.task
      cursor := ?_
      run_task := ?_
      event_task := ?_
      event_run := ?_
      evidence := fun hs => by cases hs
      checkpoint_owner := fun _ hc => by cases hc
      checkpoint_event := fun _ hc => by cases hc
      task := ?_
      run := ?_
      current := ?_
      checkpoint_fresh := fun _ hc => by cases hc
      checkpoint_parent := fun _ hc => by cases hc
      events_distinct := ?_
      events_fresh := ?_
      events_run := ?_ }
  · rintro i hi
    cases hi
    exact ⟨h.input, rfl⟩
  · rintro run hrun
    cases hrun
    exact h.task
  · intro event he
    rw [hevents] at he
    simp only [List.mem_cons, List.not_mem_nil, or_false] at he
    rcases he with rfl | rfl <;> exact congrArg some h.task
  · intro event he id hid run hrun
    cases hrun
    rw [hevents] at he
    simp only [List.mem_cons, List.not_mem_nil, or_false] at he
    have hid := (truthy_eq_some.mp hid).1
    rcases he with rfl | rfl <;> exact (Option.some.inj hid).symm
  · unfold TaskAdmitted
    rw [show (beginRunCommit env request (some record.aggregate)).task.taskId =
      record.task.taskId from rfl, hrec]
    exact ⟨rfl, rfl⟩
  · rintro run hrun
    cases hrun
    refine ⟨fun _ other hother htask' hactive => ?_, ?_, fun source hsource => ?_⟩
    · obtain ⟨owner, howner, hin⟩ := List.mem_flatMap.mp hother
      have hid : owner.taskId = record.taskId :=
        (store.constraints.run_task owner howner other hin).symm.trans (htask'.trans h.task)
      have hsame := store.constraints.tasks_distinct.eq_of_key howner hmem hid
      have := activeRuns_eq_nil.mp hidle other (hsame ▸ hin)
      rw [hactive] at this
      cases this
    · have hnone : Rows.lookup PersistedRunState.runId (request.newRun (env.now 0)).runId
          store.tables.runs = none := Rows.lookup_eq_none.mpr h.fresh
      rw [hnone]
      rfl
    · exact .inr (h.source source (truthy_eq_some.mp hsource).1)
  · rintro id hid
    cases hid
    exact .inl ⟨_, rfl, rfl⟩
  · have hne := h.supplies.event_injective.ne (show 1 ≠ 2 by decide)
    simp [hevents, createEvent, hne]
  · intro event he old hold
    rw [hevents] at he
    simp only [List.mem_cons, List.not_mem_nil, or_false] at he
    rcases he with rfl | rfl <;> exact h.supplies.event_fresh _ old hold
  · intro event he id hid
    rw [hevents] at he
    simp only [List.mem_cons, List.not_mem_nil, or_false] at he
    refine .inl ⟨_, rfl, ?_⟩
    rcases he with rfl | rfl <;> exact Option.some.inj hid

/-! ## What a begun Run leaves -/

def begunRecord (env : Env) (store : CoordinationStore) (record : TaskRecord)
    (request : BeginTaskRunInput) : TaskRecord :=
  record.write (beginRunCommit env request (some record.aggregate)) store.tables.lastSequence

theorem mem_begun_runs (hmem : record ∈ store.tables.records) {x : PersistedRunState} :
    x ∈ (begunRecord env store record request).runs ↔
      x = readRun (request.newRun (env.now 0)) ∨ (x ∈ record.runs ∧ x.runId ≠ request.runId) :=
  mem_writeRun (store.constraints.record_runs_distinct hmem)

theorem begun_runEvents {id : String} :
    (begunRecord env store record request).aggregate.runEvents id =
      record.aggregate.runEvents id ++
        (Tables.numberEvents store.tables.lastSequence
          (beginRunCommit env request (some record.aggregate)).events).filter
            fun event => event.runId = some id :=
  List.filter_append _ _

theorem begun_events (h : BeginsFresh env store record request) {last : Nat} :
    ∀ event ∈ Tables.numberEvents last
        (beginRunCommit env request (some record.aggregate)).events,
      TimelineEvent event ∧ event.eventType ∉ evidenceTypes := by
  intro event he
  rw [beginRunCommit_events h] at he
  simp only [Tables.numberEvents, List.mem_cons, List.not_mem_nil, or_false] at he
  rcases he with rfl | rfl
  · exact ⟨⟨h.supplies.event_ne _, by simp [readEvent, createEvent], h.supplies.clock_ne _⟩,
      by simp [readEvent, createEvent, evidenceTypes]⟩
  · exact ⟨⟨h.supplies.event_ne _, by simp [readEvent, createEvent], h.supplies.clock_ne _⟩,
      by simp [readEvent, createEvent, evidenceTypes]⟩

theorem begun_readable (hmem : record ∈ store.tables.records) (hevents : EventsKnown store)
    (h : BeginsFresh env store record request) (hr : Readable record.aggregate) :
    Readable (begunRecord env store record request).aggregate := by
  refine ⟨hr.task_id, hr.spec, hr.criteria, hr.budget, hr.created_at, fun he => (by cases he),
    fun x hx => ?_⟩
  rcases (mem_begun_runs hmem).mp hx with rfl | ⟨hx, _⟩
  · -- the new Run has no events but its own two
    have hnone : record.aggregate.runEvents request.runId = [] := by
      refine List.filter_eq_nil_iff.mpr fun event hevent => ?_
      simp only [decide_eq_true_eq]
      intro hid
      obtain ⟨run, hrun, hid'⟩ := hevents event (List.mem_flatMap.mpr ⟨record, hmem, hevent⟩) _ hid
      exact h.fresh run hrun hid'
    have hown : ∀ event ∈ (begunRecord env store record request).aggregate.runEvents request.runId,
        TimelineEvent event ∧ event.eventType ∉ evidenceTypes := by
      intro event he
      rw [begun_runEvents, hnone, List.nil_append] at he
      exact begun_events h event (List.mem_filter.mp he).1
    have hlast : ∀ eventType ∈ evidenceTypes, lastEvent
        ((begunRecord env store record request).aggregate.runEvents request.runId) eventType =
          lastEvent [] eventType := by
      intro eventType htype
      show lastEvent ([] ++ _) eventType = _
      exact lastEvent_append fun event he heq => (hown event he).2 (heq ▸ htype)
    refine ⟨h.named, ⟨by simp [readRun, newRun],
      by simpa [readRun, newRun] using truthy_ne _⟩,
      by simp [readRun, newRun], fun s hs => (by cases hs),
      fun _ he => (by cases he), fun _ outcome ho => ?_, fun _ event he => (hown event he).1,
      fun _ ref href => ?_⟩
    · rw [show (readRun (request.newRun (env.now 0))).runId = request.runId from rfl, runQuality,
        hlast _ (by decide)] at ho
      cases ho
    · rw [show (readRun (request.newRun (env.now 0))).runId = request.runId from rfl,
        projectRunFinalOutput_congr hlast] at href
      cases href
  · have hrun := hr.runs x hx
    exact hrun.extend rfl rfl rfl hrun.times begun_runEvents fun event he =>
      begun_events h event (List.mem_filter.mp he).1

theorem begun_shown (hmem : record ∈ store.tables.records) (hevents : EventsKnown store)
    (h : BeginsFresh env store record request) (hr : Readable record.aggregate)
    (hstore : store.commitState (beginRunCommit env request (some record.aggregate)) =
      .ok (committed, after)) :
    ∃ snapshot, projectAggregate (begunRecord env store record request).aggregate =
      .ok snapshot := by
  have hafter : begunRecord env store record request ∈ after.tables.records :=
    record?_mem (record?_commit_self hstore
      (record?_of_mem hmem))
  refine projectAggregate_ok (begun_readable hmem hevents h hr) (h.supplies.clock_ne 0) rfl
    (after.constraints.run_task _ hafter) (after.constraints.record_runs_distinct hafter) ?_
  exact (activeRuns_length hafter ((mem_begun_runs hmem).mpr (.inl rfl)) rfl).le

end

theorem planBeginRun_ok {π : Type} {env : Env} {w : World π} {record : TaskRecord}
    {request : BeginTaskRunInput} (hmem : record ∈ w.store.tables.records)
    (hidle : record.activeRuns = []) (hevents : EventsKnown w.store)
    (h : BeginsFresh env w.store record request) (hr : Readable record.aggregate)
    (hplan : planBeginRun (π := π) env request w.store =
      .ok (.commit
        { taskId := request.taskId
          commit := beginRunCommit env request (some record.aggregate) })) :
    ∃ w' result, beginRun env request w = { commits := [w'], result := .ok result } ∧
      w'.store.record? record.taskId = some (begunRecord env w.store record request) ∧
      ∀ taskId, taskId ≠ record.taskId → w'.store.record? taskId = w.store.record? taskId := by
  obtain ⟨committed, after, hstore⟩ :=
    commitState_of_admitted (begin_admitted hmem hidle h)
  obtain ⟨snapshot, hshown⟩ := begun_shown hmem hevents h hr hstore
  have hrec : after.record? record.taskId = some (begunRecord env w.store record request) :=
    record?_commit_self hstore (record?_of_mem hmem)
  have hsnap : getTaskSnapshot after request.taskId = .ok snapshot := by
    simp only [getTaskSnapshot, requireTask, bind_eq_ok, orThrow_eq_ok]
    exact ⟨_, getTaskAggregate_of_record (h.task ▸ hrec), hshown⟩
  refine ⟨{ w with store := after }, ⟨snapshot, committed⟩, ?_, hrec,
    fun taskId hne => record?_commit_ne hstore hne⟩
  simp only [beginRun, perform, hplan, World.commit_storeOnly hstore, hsnap]
  rfl

end Newide
