import Newide.Resumption

/-!
# Idle Tasks

A Task is idle while none of its Runs is active.  Only `beginRun` makes
it active again, and only an active Task takes checkpoints: every other
call of the processor leaves an idle Task idle and its latest checkpoint
where it is.  A snapshot that shows no current Run shows an idle Task.
-/

namespace Newide

open Fallible CoordinationStore

def Idle (taskId : String) (store : CoordinationStore) : Prop :=
  ∀ record, store.record? taskId = some record → ∀ run ∈ record.runs, isActiveRun run = false

instance (taskId : String) (store : CoordinationStore) : Decidable (Idle taskId store) :=
  match h : store.record? taskId with
  | none => .isTrue fun record hrec => by rw [h] at hrec; cases hrec
  | some record =>
      if hidle : ∀ run ∈ record.runs, isActiveRun run = false then
        .isTrue fun record' hrec => by rw [h] at hrec; cases hrec; exact hidle
      else .isFalse fun hall => hidle (hall record h)

/-- The Task is idle, and `latest` is its latest checkpoint. -/
def IdleAt (taskId : String) (latest : Option PersistedFullCheckpoint)
    (store : CoordinationStore) : Prop :=
  Idle taskId store ∧ store.getLatestCheckpoint taskId = latest

/-- The call does not begin a Run of the Task, and deletes no Task. -/
structure LeavesIdle (taskId : String) (op : Operation) : Prop where
  begins : ∀ input, op = .beginRun input → input.taskId ≠ taskId
  deletes : ∀ deleted, op ≠ .deleteTask deleted

section
variable {store after : CoordinationStore} {env : Env} {op : Operation} {old : Option TaskRecord}
  {input : CoordinationStateCommit} {taskId : String} {latest : Option PersistedFullCheckpoint}
  {committed : List PersistedCoordinationEvent}

/-! ## One transaction -/

theorem TaskCommit.idle_checkpoint (h : TaskCommit store env op old input)
    (hidle : ∀ run ∈ oldRuns old, isActiveRun run = false)
    (hadvance : ∀ request, op ≠ .advanceStage request) : input.checkpoint = none := by
  cases h with
  | beginNew | beginExisting | startStage | councilReceipt | fail | override | runEvent
  | mailboxWait | block | expire | finish | restore => rfl
  | advance => exact absurd rfl (hadvance _)
  | interrupt hop hacts hactive =>
      rw [hidle _ hacts.run_mem] at hactive
      cases hactive
  | safepoint hop hacts =>
      rcases hop with ⟨_, hactive⟩ | ⟨⟨request, hop, _⟩, _⟩
      · rw [hidle _ hacts.run_mem] at hactive
        cases hactive
      · exact absurd hop (hadvance request)

theorem IdleAt.other (h : IdleAt taskId latest store)
    (hstore : store.commitState input = .ok (committed, after))
    (hne : taskId ≠ input.task.taskId) : IdleAt taskId latest after := by
  have hrec := record?_commit_ne hstore hne
  refine ⟨fun record hrecord => h.1 record (hrec ▸ hrecord), ?_⟩
  rw [← h.2]
  show (after.record? taskId).bind _ = (store.record? taskId).bind _
  rw [hrec]

theorem IdleAt.commit (h : IdleAt taskId latest store) (hc : TaskCommit store env op old input)
    (hstore : store.commitState input = .ok (committed, after))
    (hbegin : ∀ request, op = .beginRun request → request.taskId ≠ taskId)
    (hadvance : ∀ request, op ≠ .advanceStage request) : IdleAt taskId latest after := by
  by_cases hid : taskId = input.task.taskId
  · have hne : ∀ request, op ≠ .beginRun request := by
      rintro request rfl
      exact hbegin request rfl (hid ▸ hc.beginRun_eq.2.symm)
    have hrec := record?_after hc.old_eq hstore
    have hidle : ∀ run ∈ oldRuns old, isActiveRun run = false := by
      cases old with
      | none => intro run hrun; cases hrun
      | some record => exact h.1 record (hid ▸ hc.old_eq)
    refine ⟨fun record hrecord => ?_, ?_⟩
    · rw [hid, hrec] at hrecord
      cases hrecord
      exact idle_of_effect hc.effect hc.old_eq hne hidle
    · rw [← h.2]
      show (after.record? taskId).bind _ = (store.record? taskId).bind _
      rw [hid, hrec, hc.old_eq]
      cases old with
      | none =>
          cases hc with
          | beginNew => exact absurd rfl (hne _)
      | some record =>
          simp only [Option.bind_some, recordAfter_checkpoints,
            hc.idle_checkpoint hidle hadvance, Option.map_none, Option.toList_none,
            List.append_nil, oldCheckpoints]
          rfl
  · exact h.other hstore hid

theorem IdleAt.step (h : IdleAt taskId latest store) (hstep : StoreStep op env store after)
    (hop : LeavesIdle taskId op) (hadvance : ∀ request, op ≠ .advanceStage request) :
    IdleAt taskId latest after := by
  cases hstep with
  | commit hc hstore => exact h.commit hc hstore hop.begins hadvance
  | delete hdel _ => exact absurd hdel (hop.deletes _)
  | protocol => exact h

end

/-! ## One call -/

section
variable {π : Type} {bridges : Bridges π} {env : Env} {w : World π} {op : Operation}
  {taskId : String} {latest : Option PersistedFullCheckpoint}

theorem AdvanceCommits.idleAt {input : AdvanceTaskStageInput} {commits : List (World π)}
    (h : AdvanceCommits env w input commits) (hidle : IdleAt taskId latest w.store) :
    ∀ w' ∈ commits, IdleAt taskId latest w'.store := by
  have other : ∀ {k : Nat} {record : TaskRecord} {run : PersistedRunState} {event : Event}
      {nextInput : TaskCursorInput}, Advances w.store record run input nextInput event →
      taskId ≠ (advanceStageCommit (env.shift k) record.aggregate run input nextInput
        event).task.taskId := by
    intro k record run event nextInput hadv hid
    obtain rfl : taskId = record.taskId := hid.trans (advancedTask_taskId ..)
    have hrec := record?_of_mem hadv.at_stage.record_mem
    have hactive := hadv.at_stage.active
    rw [hidle.1 record hrec run hadv.at_stage.run_mem] at hactive
    cases hactive
  cases h with
  | refused => intro w' hw'; cases hw'
  | advanced hadv hstore =>
      intro w' hw'
      rw [List.mem_singleton] at hw'
      subst hw'
      exact hidle.other hstore (other hadv)
  | @saved k _ _ _ _ _ _ _ _ _ _ _ _ hadv hstore hmoved hacts hsafe =>
      have hfirst := hidle.other hstore (other hadv)
      intro w' hw'
      rcases List.mem_cons.mp hw' with rfl | hw'
      · exact hfirst
      · rw [List.mem_singleton] at hw'
        subst hw'
        refine hfirst.other hsafe fun heq => other (k := k) hadv (heq.trans ?_)
        show TaskRecord.taskId _ = _
        rw [hmoved]
        rfl

theorem exec_idleAt (hop : LeavesIdle taskId op) (h : IdleAt taskId latest w.store) :
    IdleAt taskId latest ((exec bridges env w op).final w).store := by
  have hall : ∀ w' ∈ (exec bridges env w op).commits, IdleAt taskId latest w'.store := by
    by_cases hadvance : ∃ request, op = .advanceStage request
    · obtain ⟨request, rfl⟩ := hadvance
      exact (advanceStage_commits 3).idleAt h
    · have hchain := exec_chain bridges env w op
      intro w' hw'
      exact Runs.chain_invariant (fun a b ha hab => ha.step hab hop fun request hreq =>
        hadvance ⟨request, hreq⟩) h hchain _ (List.mem_map_of_mem hw')
  cases hl : (exec bridges env w op).commits.getLast? with
  | none => rwa [Outcome.final, List.getLastD_eq_getLast?, hl]
  | some last =>
      rw [Outcome.final, List.getLastD_eq_getLast?, hl]
      exact hall last (List.mem_of_getLast? hl)

end

/-! ## What a snapshot shows -/

def listTaskSnapshots (store : CoordinationStore) : Except Thrown (List TaskSnapshot) :=
  store.listTaskAggregates.mapM projectAggregate

section
variable {aggregate : PersistedTaskAggregate} {snapshot : TaskSnapshot}

theorem toRunFact_run {run : PersistedRunState} {fact : TaskRunFact}
    (h : toRunFact aggregate run = .ok fact) : fact.run = run := by
  unfold toRunFact at h
  split at h
  · cases h
    rfl
  · simp only [bind_eq_ok, pure_eq_ok] at h
    obtain ⟨_, _, rfl⟩ := h
    rfl

theorem projectAggregate_taskId (h : projectAggregate aggregate = .ok snapshot) :
    snapshot.taskId = aggregate.task.taskId := by
  simp only [projectAggregate, projectTaskSnapshot, bind_eq_ok, parseTaskSnapshot_eq_ok] at h
  obtain ⟨facts, _, projected, ⟨_, _, _, rfl⟩, _, rfl⟩ := h
  rfl

theorem projectAggregate_idle (h : projectAggregate aggregate = .ok snapshot)
    (hnone : snapshot.currentRun = none) : ∀ run ∈ aggregate.runs, isActiveRun run = false := by
  simp only [projectAggregate, projectTaskSnapshot, bind_eq_ok, parseTaskSnapshot_eq_ok] at h
  obtain ⟨facts, hfacts, projected, ⟨_, _, _, rfl⟩, _, rfl⟩ := h
  intro run hrun
  by_contra hactive
  have hactive : isActiveRun run = true := by simpa using hactive
  obtain ⟨fact, hmem, hfact⟩ := mapM_mem_ok hfacts hrun
  have hrunning : fact.status = .running := by
    have hsame := toRunFact_run hfact
    simp only [isActiveRun, decide_eq_true_eq] at hactive
    simp only [TaskRunFact.status, hsame]
    rcases hactive with hs | hs <;> simp [hs]
  have hfind := List.find?_eq_none.mp (Option.map_eq_none_iff.mp hnone) fact
    ((List.mem_insertionSort _).mpr hmem)
  simp [hrunning] at hfind

variable {store : CoordinationStore} {durable : List TaskSnapshot} {taskId : String}

theorem listTaskSnapshots_idle (h : listTaskSnapshots store = .ok durable)
    (hnone : ∀ snapshot, (durable.find? fun s => s.taskId = taskId) = some snapshot →
      snapshot.currentRun = none) : Idle taskId store := by
  intro record hrec
  have hmem := record?_mem hrec
  obtain ⟨shown, hshown, hproject⟩ := mapM_mem_ok h
    (mem_listTaskAggregates.mpr ⟨record, hmem, rfl⟩)
  have hid : shown.taskId = taskId :=
    (projectAggregate_taskId hproject).trans (record?_taskId hrec)
  cases hfind : durable.find? fun s => s.taskId = taskId with
  | none =>
      have := List.find?_eq_none.mp hfind shown hshown
      simp [hid] at this
  | some snapshot =>
      obtain ⟨aggregate, hagg, hfirst⟩ := mem_mapM_ok h (List.mem_of_find?_eq_some hfind)
      obtain ⟨other, hother, rfl⟩ := mem_listTaskAggregates.mp hagg
      have hsame : other.taskId = taskId := by
        have hid := List.find?_some hfind
        exact (projectAggregate_taskId hfirst).symm.trans (by simpa using hid)
      have hrec' := record?_of_mem hother
      rw [hsame, hrec] at hrec'
      cases hrec'
      exact projectAggregate_idle hfirst (hnone snapshot hfind)

end

end Newide
