import Newide.Interruption

/-!
# Startup recovery

Recovery interrupts every Task that has an active Run, one after the
other, and stops at the first refusal.  A Task is refused when its
status cannot become `blocked`, which only a timed-out Task with an
active Run has, or when its rows cannot be shown afterwards.  In every
other state that calls cut at any commit can leave, recovery succeeds
as a whole.
-/

namespace Newide

open Fallible CoordinationStore

variable {π : Type}

/-! ## What recovery promises -/

/-- A Run that was active is interrupted, its Task blocked, with a checkpoint where the
Run stood. -/
structure Recovered (record : TaskRecord) (run : PersistedRunState) (store : CoordinationStore) :
    Prop where
  blocked : ∃ after, store.record? record.taskId = some after ∧ after.task.status = .blocked ∧
    after.activeRuns = [] ∧ ∃ x ∈ after.runs, x.runId = run.runId ∧ x.status = .interrupted
  checkpoint : ∃ checkpoint, store.getLatestCheckpoint record.taskId = some checkpoint ∧
    checkpoint.runId = run.runId ∧ checkpoint.resumeCursor = record.runtimeState.resumeCursor

/-- The whole of what recovery promises in a world. -/
structure RecoverySucceeds (env : Env) (w : World π) : Prop where
  returns : ∃ snapshots, (recoverInterruptedTasks env w).result = .ok snapshots
  idle : ∀ record ∈ ((recoverInterruptedTasks env w).final w).store.tables.records,
    record.activeRuns = []
  recovered : ∀ record ∈ w.store.tables.records, ∀ run ∈ record.activeRuns,
    Recovered record run ((recoverInterruptedTasks env w).final w).store
  others : ∀ taskId, (∀ record, w.store.record? taskId = some record → record.activeRuns = []) →
    ((recoverInterruptedTasks env w).final w).store.record? taskId = w.store.record? taskId
  again : ∀ env', (recoverInterruptedTasks env' ((recoverInterruptedTasks env w).final w)).commits
    = []

/-! ## Stores recovery can start from -/

/-- A Task with an active Run that recovery can interrupt. -/
structure Recoverable (env : Env) (record : TaskRecord) : Prop where
  status : record.task.status = .running ∨ record.task.status = .blocked
  output : record.task.finalOutput = none
  readable : Readable record.aggregate
  later : ∀ c ∈ record.checkpoints, ∀ k, c.createdAt < env.now k

structure Ready (env : Env) (store : CoordinationStore) : Prop where
  kept : Everywhere WellKept store
  sources : SourcesKnown store
  supplies : Supplies env store
  active : ∀ record ∈ store.tables.records, record.activeRuns ≠ [] → Recoverable env record

section
variable {env : Env} {store after : CoordinationStore} {record : TaskRecord}
  {run : PersistedRunState} {input : InterruptRunInput}
  {committed : List PersistedCoordinationEvent} {w : World π}

theorem Supplies.shift (h : Supplies env store) (n : Nat) : Supplies (env.shift n) store where
  event_fresh k := h.event_fresh (n + k)
  event_injective _ _ hab := Nat.add_left_cancel (h.event_injective hab)
  event_ne k := h.event_ne (n + k)
  checkpoint_fresh k := h.checkpoint_fresh (n + k)
  checkpoint_injective _ _ hab := Nat.add_left_cancel (h.checkpoint_injective hab)
  clock_ne k := h.clock_ne (n + k)

theorem Supplies.interrupt (h : Supplies env store) (hmem : record ∈ store.tables.records)
    (hstore : store.commitState (interruptCommit env record.aggregate run input
      (store.getLatestCheckpoint record.taskId)) = .ok (committed, after)) :
    Supplies (env.shift 8) after := by
  have hold := record?_of_mem hmem
  have hevents : ∀ k, ∀ old ∈ after.tables.events, old.eventId ≠ env.createEventId (8 + k) := by
    intro k old hin
    obtain ⟨owner, howner, hin⟩ := List.mem_flatMap.mp hin
    rcases mem_records_after hold hstore howner with rfl | ⟨howner, _⟩
    · rcases List.mem_append.mp hin with hin | hin
      · exact h.event_fresh _ old (List.mem_flatMap.mpr ⟨record, hmem, hin⟩)
      · simp only [interruptCommit, Tables.numberEvents, List.mem_cons, List.not_mem_nil,
          or_false] at hin
        rcases hin with rfl | rfl | rfl <;> exact h.event_injective.ne (by omega)
    · exact h.event_fresh _ old (List.mem_flatMap.mpr ⟨owner, howner, hin⟩)
  have hcheckpoints : ∀ k, ∀ old ∈ after.tables.checkpoints,
      old.checkpointId ≠ env.createCheckpointId (8 + k) := by
    intro k old hin
    obtain ⟨owner, howner, hin⟩ := List.mem_flatMap.mp hin
    rcases mem_records_after hold hstore howner with rfl | ⟨howner, _⟩
    · rcases List.mem_append.mp hin with hin | hin
      · exact h.checkpoint_fresh _ old (List.mem_flatMap.mpr ⟨record, hmem, hin⟩)
      · have hin : old = readCheckpoint _ := List.mem_singleton.mp hin
        rw [hin]
        exact h.checkpoint_injective.ne (by omega)
    · exact h.checkpoint_fresh _ old (List.mem_flatMap.mpr ⟨owner, howner, hin⟩)
  exact { h.shift 8 with event_fresh := hevents, checkpoint_fresh := hcheckpoints }

theorem Ready.next (h : Ready env store) (hmem : record ∈ store.tables.records)
    (hrun : run ∈ record.runs) (hactive : isActiveRun run = true)
    (hcommit : TaskCommit store env .recoverInterruptedTasks (some record)
      (interruptCommit env record.aggregate run input (store.getLatestCheckpoint record.taskId)))
    (hstore : store.commitState (interruptCommit env record.aggregate run input
      (store.getLatestCheckpoint record.taskId)) = .ok (committed, after)) :
    Ready (env.shift 8) after := by
  have hstep : StoreStep .recoverInterruptedTasks env store after :=
    .commit (k := 0) (by rw [Env.shift_zero]; exact hcommit) hstore
  refine ⟨wellKept_step hstep h.kept, sourcesKnown_step hstep h.sources,
    h.supplies.interrupt hmem hstore, fun owner howner hne => ?_⟩
  rcases mem_records_after hcommit.old_eq hstore howner with rfl | ⟨howner, _⟩
  · exact absurd (activeRuns_eq_nil.mpr (interrupted_idle _ _ hmem hrun hactive)) hne
  · have hr := h.active owner howner hne
    exact { hr with later := fun c hc k => hr.later c hc (8 + k) }

theorem planInterrupt_ok (input : InterruptRunInput) (h : Ready env w.store)
    (hmem : record ∈ w.store.tables.records) (hrun : run ∈ record.runs)
    (hactive : isActiveRun run = true) :
    ∃ w' committed result,
      perform w (planInterrupt env record.aggregate run input w.store) =
        { commits := [w'], result := .ok result } ∧
      w.store.commitState (interruptCommit env record.aggregate run input
        (w.store.getLatestCheckpoint record.taskId)) = .ok (committed, w'.store) := by
  have hne : record.activeRuns ≠ [] :=
    List.ne_nil_of_mem (mem_activeRuns.mpr ⟨hrun, hactive⟩)
  have hr := h.active record hmem hne
  have hadm : Admitted w.store.tables (interruptCommit env record.aggregate run input
      (w.store.getLatestCheckpoint record.taskId)) :=
    interrupt_admitted (h.kept record hmem) h.sources hmem hrun (hr.readable.runs run hrun).named
      h.supplies
  obtain ⟨committed, after, hstore⟩ := commitState_of_admitted hadm
  obtain ⟨snapshot, hshown⟩ := interrupted_shown hmem hrun hactive h.supplies hr.readable
    hr.output hstore
  have htrans : CanTransition record.task.status .blocked := by
    rcases hr.status with hs | hs <;> rw [hs] <;> decide
  have hplan : planInterrupt (π := π) env record.aggregate run input w.store =
      .ok (.commit
        { taskId := record.taskId
          commit := interruptCommit env record.aggregate run input
            (w.store.getLatestCheckpoint record.taskId) }) := by
    simp only [planInterrupt, bind_eq_ok, pure_eq_ok, assertTaskStatusTransition_eq_ok]
    exact ⟨(), htrans, trivial⟩
  have hsnap : getTaskSnapshot after record.taskId = .ok snapshot := by
    have hrec := record?_commit_self hstore
      (record?_of_mem hmem)
    simp only [getTaskSnapshot, requireTask, bind_eq_ok, orThrow_eq_ok]
    exact ⟨_, getTaskAggregate_of_record hrec, hshown⟩
  refine ⟨{ w with store := after }, committed, ⟨snapshot, committed⟩, ?_, hstore⟩
  simp only [perform, hplan, World.commit_storeOnly hstore, hsnap]
  rfl

theorem recoverTask_ok (h : Ready env w.store) (hmem : record ∈ w.store.tables.records)
    (hrun : record.aggregate.activeRun? = some run) :
    ∃ w' committed result,
      perform w (planRecoverInterruptedTask env record.aggregate w.store) =
        { commits := [w'], result := .ok result } ∧
      w.store.commitState (interruptCommit env record.aggregate run (processInterrupt run.runId)
        (w.store.getLatestCheckpoint record.taskId)) = .ok (committed, w'.store) := by
  have hrunMem : run ∈ record.runs := List.mem_of_find?_eq_some hrun
  have hactive : isActiveRun run = true := by simpa using List.find?_some hrun
  have hplan : planRecoverInterruptedTask (π := π) env record.aggregate w.store =
      planInterrupt env record.aggregate run (processInterrupt run.runId) w.store := by
    simp only [planRecoverInterruptedTask, hrun]
  rw [hplan]
  exact planInterrupt_ok _ h hmem hrunMem hactive

/-- A store in which a Task's record is what an interruption of its Run left, made during a
call on a store that was ready for it. -/
def LeftInterrupted (env : Env) (record : TaskRecord) (run : PersistedRunState)
    (input : InterruptRunInput) (final : CoordinationStore) : Prop :=
  ∃ k mid, Ready (env.shift k) mid ∧ record ∈ mid.tables.records ∧
    final.record? record.taskId = some (interruptedRecord (env.shift k) mid record run input)

theorem LeftInterrupted.latest (h : LeftInterrupted env record run input after)
    (hrun : run ∈ record.runs) (hactive : isActiveRun run = true) :
    ∃ k mid, Ready (env.shift k) mid ∧ record ∈ mid.tables.records ∧
      after.record? record.taskId = some (interruptedRecord (env.shift k) mid record run input) ∧
      after.getLatestCheckpoint record.taskId = some (readCheckpoint
        (interruptCheckpoint (env.shift k) record.aggregate run input
          (mid.getLatestCheckpoint record.taskId))) := by
  obtain ⟨k, mid, hready, hmem, hrec⟩ := h
  have hne : record.activeRuns ≠ [] :=
    List.ne_nil_of_mem (mem_activeRuns.mpr ⟨hrun, hactive⟩)
  exact ⟨k, mid, hready, hmem, hrec, interrupted_latest (hready.kept record hmem).checkpoint_valid
    (fun c hc => (hready.active record hmem hne).later c hc 0) hrec⟩

theorem LeftInterrupted.recovered (h : LeftInterrupted env record run input after)
    (hrun : run ∈ record.runs) (hactive : isActiveRun run = true) :
    Recovered record run after := by
  obtain ⟨k, mid, hready, hmem, hrec, hlatest⟩ := h.latest hrun hactive
  refine ⟨⟨_, hrec, rfl, activeRuns_eq_nil.mpr (interrupted_idle _ _ hmem hrun hactive),
    interruptedRun _ run, (mem_interrupted_runs hmem).mpr (.inl rfl), rfl, rfl⟩, ?_⟩
  exact ⟨_, hlatest, rfl, rfl⟩

end

/-! ## The recovery loop -/

theorem activeRun?_of_any {aggregate : PersistedTaskAggregate}
    (h : aggregate.runs.any isActiveRun = true) : ∃ run, aggregate.activeRun? = some run := by
  obtain ⟨run, hrun, hactive⟩ := List.any_eq_true.mp h
  exact Option.isSome_iff_exists.mp (List.find?_isSome.mpr ⟨run, hrun, hactive⟩)

/-- From a ready store the loop returns, every listed Task ends up interrupted and every other
Task keeps its record. -/
theorem recoverTasks_ok {aggregates : List PersistedTaskAggregate} :
    ∀ {env : Env} {w : World π}, Ready env w.store → Listed w.store aggregates →
      (∀ a ∈ aggregates, a.runs.any isActiveRun = true) →
      (∃ snapshots, (recoverTasks env aggregates w).result = .ok snapshots) ∧
      (∀ record ∈ w.store.tables.records, record.aggregate ∈ aggregates →
        ∀ run ∈ record.activeRuns, LeftInterrupted env record run (processInterrupt run.runId)
          ((recoverTasks env aggregates w).final w).store) ∧
      ∀ taskId, (∀ a ∈ aggregates, a.task.taskId ≠ taskId) →
        ((recoverTasks env aggregates w).final w).store.record? taskId =
          w.store.record? taskId := by
  induction aggregates with
  | nil =>
      intro env w _ _ _
      exact ⟨⟨[], rfl⟩, fun _ _ h => (by cases h), fun _ _ => rfl⟩
  | cons aggregate rest ih =>
      intro env w hready hlisted hany
      obtain ⟨record, hmem, rfl⟩ := hlisted.stored aggregate (List.mem_cons_self ..)
      obtain ⟨run, hrun⟩ := activeRun?_of_any (hany _ (List.mem_cons_self ..))
      have hrunMem : run ∈ record.runs := List.mem_of_find?_eq_some hrun
      have hactive : isActiveRun run = true := by simpa using List.find?_some hrun
      obtain ⟨w', committed, result, hperform, hstore⟩ := recoverTask_ok hready hmem hrun
      have hcommit : TaskCommit w.store env .recoverInterruptedTasks (some record) _ :=
        .interrupt (.inr ⟨rfl, rfl⟩) ⟨hmem, hrunMem, rfl⟩ hactive (by
          have hr := hready.active record hmem
            (List.ne_nil_of_mem (mem_activeRuns.mpr ⟨hrunMem, hactive⟩))
          rcases hr.status with hs | hs <;> rw [hs] <;> decide)
      have hnext := hready.next hmem hrunMem hactive hcommit hstore
      have hrest : Listed w'.store rest := hlisted.tail_commit rfl hstore
      obtain ⟨⟨snapshots, hok⟩, hrecovered, hothers⟩ :=
        ih hnext hrest fun a ha => hany a (List.mem_cons_of_mem _ ha)
      have hunfold : recoverTasks env (record.aggregate :: rest) w =
          { commits := w' :: (recoverTasks (env.shift 8) rest w').commits
            result := .ok (result.snapshot :: snapshots) } := by
        simp only [recoverTasks, hperform, Outcome.final, List.getLastD_cons, List.getLastD_nil,
          hok]
        rfl
      have hfinal : (recoverTasks env (record.aggregate :: rest) w).final w =
          (recoverTasks (env.shift 8) rest w').final w' := by
        simp only [hunfold, Outcome.final, List.getLastD_cons]
      have hhead : ∀ a ∈ rest, a.task.taskId ≠ record.taskId := fun a ha heq =>
        (List.nodup_cons.mp hlisted.distinct).1 (List.mem_map.mpr ⟨a, ha, heq⟩)
      refine ⟨⟨_, by rw [hunfold]⟩, ?_, ?_⟩
      · intro owner howner hin x hx
        rw [hfinal]
        by_cases hsame : owner = record
        · subst hsame
          have hx := mem_activeRuns.mp hx
          have hxrun : x = run := active_unique howner hx.1 hrunMem hx.2 hactive
          subst hxrun
          refine ⟨0, w.store, (Env.shift_zero env).symm ▸ hready, howner, ?_⟩
          rw [hothers _ hhead, Env.shift_zero]
          exact record?_commit_self hstore
            (record?_of_mem howner)
        · have hid : owner.taskId ≠ record.taskId := fun heq =>
            hsame (w.store.constraints.tasks_distinct.eq_of_key howner hmem heq)
          have hkeep := record?_commit_ne hstore hid
          have howner' : owner ∈ w'.store.tables.records :=
            record?_mem (hkeep.trans (record?_of_mem howner))
          rcases List.mem_cons.mp hin with heq | hin
          · exact absurd (congrArg (fun a => a.task.taskId) heq) hid
          · obtain ⟨k, mid, hmid⟩ := hrecovered owner howner' hin x hx
            rw [Env.shift_shift] at hmid
            exact ⟨8 + k, mid, hmid⟩
      · intro taskId hne
        rw [hfinal, hothers taskId fun a ha => hne a (List.mem_cons_of_mem _ ha)]
        exact record?_commit_ne hstore
          (Ne.symm (hne _ (List.mem_cons_self ..)))

theorem Ready.interrupts {env : Env} {w : World π} (h : Ready env w.store) :
    (∃ snapshots, (recoverInterruptedTasks env w).result = .ok snapshots) ∧
    (∀ record ∈ w.store.tables.records, ∀ run ∈ record.activeRuns,
      LeftInterrupted env record run (processInterrupt run.runId)
        ((recoverInterruptedTasks env w).final w).store) ∧
    ∀ taskId, (∀ record, w.store.record? taskId = some record → record.activeRuns = []) →
      ((recoverInterruptedTasks env w).final w).store.record? taskId =
        w.store.record? taskId := by
  have hlisted := (Listed.all w.store).filter fun aggregate => aggregate.runs.any isActiveRun
  obtain ⟨hok, hrecovered, hothers⟩ := recoverTasks_ok h hlisted fun a ha =>
    (List.mem_filter.mp ha).2
  have hlist : ∀ record ∈ w.store.tables.records, record.activeRuns ≠ [] →
      record.aggregate ∈ w.store.listTaskAggregates.filter fun aggregate =>
        aggregate.runs.any isActiveRun := by
    intro record hmem hne
    obtain ⟨run, hrun⟩ := List.exists_mem_of_ne_nil _ hne
    have hrun := mem_activeRuns.mp hrun
    exact List.mem_filter.mpr ⟨mem_listTaskAggregates.mpr ⟨record, hmem, rfl⟩,
      List.any_eq_true.mpr ⟨run, hrun.1, hrun.2⟩⟩
  refine ⟨hok, fun record hmem run hrun =>
    hrecovered record hmem (hlist record hmem (List.ne_nil_of_mem hrun)) run hrun, ?_⟩
  intro taskId hidle
  refine hothers taskId fun a ha heq => ?_
  obtain ⟨ha, hany⟩ := List.mem_filter.mp ha
  obtain ⟨record, hmem, rfl⟩ := mem_listTaskAggregates.mp ha
  obtain ⟨run, hrun, hactive⟩ := List.any_eq_true.mp hany
  have hnil := hidle record (heq ▸ record?_of_mem hmem)
  have := activeRuns_eq_nil.mp hnil run hrun
  rw [hactive] at this
  cases this

theorem Ready.recovery {env : Env} {w : World π} (h : Ready env w.store) :
    RecoverySucceeds env w := by
  obtain ⟨hok, hinterrupted, hothers⟩ := h.interrupts
  have hrecovered : ∀ record ∈ w.store.tables.records, ∀ run ∈ record.activeRuns,
      Recovered record run ((recoverInterruptedTasks env w).final w).store := by
    intro record hmem run hrun
    have hrun' := mem_activeRuns.mp hrun
    exact (hinterrupted record hmem run hrun).recovered hrun'.1 hrun'.2
  have hidle : ∀ record ∈ ((recoverInterruptedTasks env w).final w).store.tables.records,
      record.activeRuns = [] := by
    intro record hmem
    have hrec := record?_of_mem hmem
    by_cases hex : ∃ before, w.store.record? record.taskId = some before ∧ before.activeRuns ≠ []
    · obtain ⟨before, hbefore, hne⟩ := hex
      obtain ⟨run, hrun⟩ := List.exists_mem_of_ne_nil _ hne
      obtain ⟨after, hafter, _, hnil, _⟩ :=
        (hrecovered before (record?_mem hbefore) run hrun).blocked
      rw [record?_taskId hbefore] at hafter
      exact Option.some.inj (hrec.symm.trans hafter) ▸ hnil
    · have hkept : ∀ before, w.store.record? record.taskId = some before →
          before.activeRuns = [] := fun before hbefore => by
        by_contra hne
        exact hex ⟨before, hbefore, hne⟩
      rw [hothers record.taskId hkept] at hrec
      exact hkept record hrec
  refine ⟨hok, hidle, hrecovered, hothers, fun env' => ?_⟩
  have hnone : ((recoverInterruptedTasks env w).final w).store.listTaskAggregates.filter
      (fun aggregate => aggregate.runs.any isActiveRun) = [] := by
    refine List.filter_eq_nil_iff.mpr fun a ha => ?_
    obtain ⟨record, hmem, rfl⟩ := mem_listTaskAggregates.mp ha
    simpa [List.any_eq_false] using activeRuns_eq_nil.mp (hidle record hmem)
  simp only [recoverInterruptedTasks] at hnone ⊢
  rw [hnone]
  rfl

/-! ## Reachable stores -/

/-- A Task with an active Run can be blocked and has no output. -/
def Interruptible (record : TaskRecord) : Prop :=
  ∀ run ∈ record.runs, isActiveRun run = true →
    (record.task.status = .running ∨ record.task.status = .blocked) ∧
      record.task.finalOutput = none

def Dated (calls : List Call) (store : CoordinationStore) : Prop :=
  ∀ c ∈ store.tables.checkpoints, ∃ call ∈ calls, ∃ k, c.createdAt = call.env.now k

/-- The Task of the exit that fails a Task without looking at its Runs. -/
def Operation.expiry? : Operation → Option String
  | .expireMailboxWait taskId _ => some taskId
  | _ => none

/-- A mailbox wait expires only on a Task no Run of which is active. -/
abbrev ExpiryIdle (call : Call) (store : CoordinationStore) : Prop :=
  ExitIdle Operation.expiry? call store

section
variable {store after : CoordinationStore} {op : Operation} {env : Env}
  {old : Option TaskRecord} {input : CoordinationStateCommit} {last : Nat}

theorem Interruptible.of_effect (heff : RunEffect op old input)
    (hold : store.record? input.task.taskId = old)
    (hexit : ∀ record ∈ old, op.expiry? = some record.taskId → record.activeRuns = [])
    (hI : ∀ record ∈ old, Interruptible record) : Interruptible (recordAfter old input last) := by
  intro x hx hact
  simp only [recordAfter_task, readTask]
  cases heff with
  | @begins _ _ request run hop hidle hrun hid hactive hs hc hout => exact ⟨.inl hs, hout⟩
  | @keeps record _ hs hc hout hrun =>
      rw [hs, hout]
      rcases active_recordAfter hold hx hact with ⟨w, hw, rfl, hactw⟩ | ⟨hxold, _⟩
      · obtain ⟨run, hmem, _, heq⟩ := hrun w hw
        exact hI record rfl run hmem (heq ▸ hactw)
      · exact hI record rfl x hxold hact
  | ends hmem hactive hrun hid hover hne =>
      rw [ends_idle hold hmem hactive hrun hid hover x hx] at hact
      cases hact
  | @blocks record _ reason hop hrun hs hc hout =>
      rcases active_recordAfter hold hx hact with ⟨w, hw, _⟩ | ⟨hxold, _⟩
      · rw [hrun] at hw
        cases hw
      · exact ⟨.inr hs, hout.trans (hI record rfl x hxold hact).2⟩
  | @expires record _ reason hop hrun hs =>
      rcases active_recordAfter hold hx hact with ⟨w, hw, _⟩ | ⟨hxold, _⟩
      · rw [hrun] at hw
        cases hw
      · have hnil := hexit record rfl (hop ▸ rfl)
        rw [activeRuns_eq_nil.mp hnil x hxold] at hact
        cases hact

theorem interruptible_step {call : Call} (h : StoreStep call.op call.env store after)
    (hexit : ExpiryIdle call store) (hI : Everywhere Interruptible store) :
    Everywhere Interruptible after := by
  refine hI.step h (fun k old input hc _ => ?_) fun _ _ hr _ => hr
  have hmem : ∀ record ∈ old, record ∈ store.tables.records := fun record hr =>
    record?_mem (hr ▸ hc.old_eq)
  exact .of_effect hc.effect hc.old_eq (fun r hr => hexit r (hmem r hr)) fun r hr => hI r (hmem r hr)

theorem TaskCommit.checkpoint_time (h : TaskCommit store env op old input)
    {checkpoint : PersistedFullCheckpoint} (hc : input.checkpoint = some checkpoint) :
    checkpoint.createdAt = env.now 0 := by
  cases h with
  | interrupt | safepoint =>
      cases hc
      rfl
  | beginNew | beginExisting | startStage | councilReceipt | advance | fail | override | runEvent
  | mailboxWait | block | expire | finish | restore => cases hc

theorem dated_step {call : Call} {calls : List Call} (h : StoreStep call.op call.env store after)
    (hin : call ∈ calls) (hI : Dated calls store) : Dated calls after := by
  cases h with
  | @commit k old input _ _ hc hstore =>
      intro c hcheckpoint
      obtain ⟨owner, howner, hmem⟩ := List.mem_flatMap.mp hcheckpoint
      rcases mem_records_after hc.old_eq hstore howner with rfl | ⟨howner, _⟩
      · rw [recordAfter_checkpoints, List.mem_append] at hmem
        rcases hmem with hmem | hmem
        · cases old with
          | none => cases hmem
          | some record => exact hI c (List.mem_flatMap.mpr ⟨record, hc.record_mem, hmem⟩)
        · obtain ⟨raw, hraw, rfl⟩ := Option.map_eq_some_iff.mp (Option.mem_toList.mp hmem)
          have htime : raw.createdAt = call.env.now k := hc.checkpoint_time hraw
          exact ⟨call, hin, k, htime⟩
      · exact hI c (List.mem_flatMap.mpr ⟨owner, howner, hmem⟩)
  | delete hop hstore =>
      intro c hcheckpoint
      obtain ⟨owner, howner, hmem⟩ := List.mem_flatMap.mp hcheckpoint
      obtain ⟨kept, hkept, _, rfl⟩ := (mem_records_deleted hstore).mp howner
      exact hI c (List.mem_flatMap.mpr ⟨kept, hkept, hmem⟩)
  | protocol => exact hI

end

/-- The calls of a crash-prone run: cut anywhere, no wait expiring under an active Run. -/
abbrev CrashSteps (bridges : Bridges π) : World π → Call → World π → Prop :=
  Runs.Guarded (fun a c => ExpiryIdle c a.store) (Cut bridges)

variable {bridges : Bridges π} {w w' : World π} {calls : List Call}

theorem crash_invariants (hw : Initial w) (h : Runs.Steps (CrashSteps bridges) w calls w') :
    Everywhere WellKept w'.store ∧ SourcesKnown w'.store ∧ EventsKnown w'.store ∧
      Everywhere Interruptible w'.store :=
  invariant_of_steps ExpiryIdle
    (I := fun s => Everywhere WellKept s ∧ SourcesKnown s ∧ EventsKnown s ∧
      Everywhere Interruptible s)
    (fun _ _ _ hab => hab) ⟨fun _ hm => (by cases hm), fun _ hm => (by cases hm),
      fun _ hm => (by cases hm), fun _ hm => (by cases hm)⟩
    (fun c a b hI hguard hstep => ⟨⟨wellKept_step hstep hI.1, sourcesKnown_step hstep hI.2.1,
      eventsKnown_step hstep hI.2.2.1, interruptible_step hstep hguard hI.2.2.2⟩,
      exitIdle_step (fun _ => rfl) (fun _ => rfl) hstep hguard⟩) hw h

theorem crash_dated (hw : Initial w) (h : Runs.Steps (CrashSteps bridges) w calls w') :
    Dated calls w'.store := by
  refine Runs.Steps.invariant_history (I := fun past (x : World π) => Dated past x.store) ?_ ?_ h
  · rw [hw]
    exact fun _ hm => by cases hm
  · rintro past a c b hI ⟨_, hcut⟩
    have hpast : Dated (past ++ [c]) a.store := fun x hx => by
      obtain ⟨call, hcall, hk⟩ := hI x hx
      exact ⟨call, List.mem_append_left _ hcall, hk⟩
    exact hcut.invariant (fun s t hs hst => dated_step hst (by simp) hs) hpast

/-- In every state that calls cut at any commit leave, unless a wait expired under an
active Run, recovery with new ids and a later clock does all it promises, provided the
rows of the Tasks with an active Run can be shown. -/
theorem recovery_succeeds (bridges : Bridges π) (hw : Initial w)
    (h : Runs.Steps (CrashSteps bridges) w calls w') {env : Env}
    (hsupplies : Supplies env w'.store)
    (hclock : ∀ call ∈ calls, ∀ i j, call.env.now i < env.now j)
    (hreadable : ∀ record ∈ w'.store.tables.records, record.activeRuns ≠ [] →
      Readable record.aggregate) : RecoverySucceeds env w' := by
  obtain ⟨hkept, hsources, _, hinterruptible⟩ := crash_invariants hw h
  have hdated := crash_dated hw h
  refine Ready.recovery ⟨hkept, hsources, hsupplies, fun record hmem hne => ?_⟩
  obtain ⟨run, hrun⟩ := List.exists_mem_of_ne_nil _ hne
  obtain ⟨hrun, hactive⟩ := mem_activeRuns.mp hrun
  obtain ⟨hstatus, hout⟩ := hinterruptible record hmem run hrun hactive
  refine ⟨hstatus, hout, hreadable record hmem hne, fun c hc k => ?_⟩
  obtain ⟨call, hcall, j, hj⟩ := hdated c (List.mem_flatMap.mpr ⟨record, hmem, hc⟩)
  exact hj ▸ hclock call hcall j k

/-- A Task in its first stage is recovered. -/
theorem recovery_succeeds_in_stage : ∃ w' : World Unit,
    (∃ record ∈ w'.store.tables.records, record.activeRuns ≠ []) ∧
      RecoverySucceeds (stoppedEnv '9') w' := by
  obtain ⟨w', h, hactive, hreadable, hevents, hcheckpoints⟩ := exists_guarded_run ExpiryIdle {}
    emptyWorld
    [⟨stoppedEnv '1', .beginRun createRequest⟩,
     ⟨stoppedEnv '2', .startStage
      { runId := "r", expectedCursor := .selectAgent, invocationId := "i" }⟩]
    (P := fun w' => (∃ record ∈ w'.store.tables.records, record.activeRuns ≠ []) ∧
      (∀ record ∈ w'.store.tables.records, record.activeRuns ≠ [] → Readable record.aggregate) ∧
      (∀ old ∈ w'.store.tables.events, old.eventId.toList.head? ≠ some '9') ∧
      ∀ old ∈ w'.store.tables.checkpoints, old.checkpointId.toList.head? ≠ some '9') (by decide)
  refine ⟨w', hactive, recovery_succeeds {} (w := emptyWorld) rfl
    (h.mono fun a c b hab => ⟨hab.1, hab.2.cut⟩) (.stopped hevents hcheckpoints) ?_ hreadable⟩
  intro call hcall i j
  simp only [List.mem_cons, List.not_mem_nil, or_false] at hcall
  rcases hcall with rfl | rfl
  · show String.ofList ['1'] < String.ofList ['9']
    decide
  · show String.ofList ['2'] < String.ofList ['9']
    decide

/-- A wait that expires under an active Run fails the Task, and recovery throws on it at
every start. -/
theorem recovery_fails_after_expiry :
    ∃ w' : World Unit, Runs.Steps (Cut {}) emptyWorld
        [⟨stoppedEnv '1', .beginRun createRequest⟩,
         ⟨stoppedEnv '2', .expireMailboxWait "t" "timeout"⟩] w' ∧
      ¬ RecoverySucceeds (stoppedEnv '9') w' := by
  obtain ⟨w', h, hfails⟩ := exists_run {} emptyWorld
    [⟨stoppedEnv '1', .beginRun createRequest⟩,
     ⟨stoppedEnv '2', .expireMailboxWait "t" "timeout"⟩]
    (P := fun w' => (recoverInterruptedTasks (stoppedEnv '9') w').result.toOption.isNone = true)
    (by decide)
  refine ⟨w', h.mono fun _ _ _ hab => hab.cut, fun hs => ?_⟩
  obtain ⟨snapshots, hok⟩ := hs.returns
  rw [hok] at hfails
  cases hfails

end Newide
