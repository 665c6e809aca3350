import Newide.RunLife
import Newide.SnapshotChecks

/-!
# Task and Run agreement

A Task is `running` exactly while one of its Runs is active, and its
runtime state then names that Run.  The two mailbox exits change a
Task's status without looking at its Runs, so the agreement holds along
every run of calls in which neither is committed on a Task that has an
active Run, and is lost when one is.
-/

namespace Newide

open Fallible CoordinationStore

/-- The Task's status, its active Runs and its current Run agree. -/
def TaskRunAgreement (record : TaskRecord) : Prop :=
  (record.task.status = .running ↔ record.activeRuns.length = 1) ∧
  (record.task.status = .running →
    ∃ run ∈ record.activeRuns, record.runtimeState.currentRunId = some run.runId) ∧
  (record.task.status ≠ .running → record.activeRuns = [])

instance (record : TaskRecord) : Decidable (TaskRunAgreement record) :=
  inferInstanceAs (Decidable (_ ∧ _ ∧ _))

/-- The inductive form of the agreement: it does not count Runs. -/
structure Agreement (record : TaskRecord) : Prop where
  owned : ∀ run ∈ record.runs, isActiveRun run = true →
    record.task.status = .running ∧ record.runtimeState.currentRunId = some run.runId
  held : record.task.status = .running → ∃ run ∈ record.runs, isActiveRun run = true

theorem Agreement.agrees {store : CoordinationStore} {record : TaskRecord}
    (hmem : record ∈ store.tables.records) (h : Agreement record) : TaskRunAgreement record := by
  have hidle : record.task.status ≠ .running → record.activeRuns = [] := by
    intro hne
    refine activeRuns_eq_nil.mpr fun run hrun => ?_
    by_contra hact
    exact hne (h.owned run hrun (by simpa using hact)).1
  refine ⟨⟨fun hs => ?_, fun hlen => ?_⟩, fun hs => ?_, hidle⟩
  · obtain ⟨run, hrun, hactive⟩ := h.held hs
    exact activeRuns_length hmem hrun hactive
  · by_contra hne
    rw [hidle hne] at hlen
    cases hlen
  · obtain ⟨run, hrun, hactive⟩ := h.held hs
    exact ⟨run, mem_activeRuns.mpr ⟨hrun, hactive⟩, (h.owned run hrun hactive).2⟩

/-! ## Which calls keep the agreement -/

/-- The Task of the two exits that change a status without looking at Runs. -/
def Operation.mailboxExit? : Operation → Option String
  | .blockMailboxDeadlock taskId _ => some taskId
  | .expireMailboxWait taskId _ => some taskId
  | _ => none

/-- A mailbox exit is called on a Task no Run of which is active. -/
abbrev MailboxExitIdle (call : Call) (store : CoordinationStore) : Prop :=
  ExitIdle Operation.mailboxExit? call store

/-- A Run that is begun has a name. -/
def NamesRun (op : Operation) : Prop :=
  ∀ request, op = .beginRun request → request.runId ≠ ""

section
variable {store after : CoordinationStore} {op : Operation} {old : Option TaskRecord}
  {input : CoordinationStateCommit} {last : Nat}

theorem Agreement.of_effect (heff : RunEffect op old input)
    (hold : store.record? input.task.taskId = old) (hkept : ∀ record ∈ old, WellKept record)
    (hnamed : NamesRun op) (hexit : ∀ record ∈ old, op.mailboxExit? = some record.taskId →
      record.activeRuns = []) (hI : ∀ record ∈ old, Agreement record) :
    Agreement (recordAfter old input last) := by
  have hstatus : (recordAfter old input last).task.status = input.task.status := by simp [readTask]
  have hcurrent : (recordAfter old input last).runtimeState.currentRunId =
      truthy input.runtimeState.currentRunId := by simp [readRuntimeState]
  -- a commit that writes no Run on a Task without an active one
  have idle : ∀ record, old = some record → input.run = none → record.activeRuns = [] →
      input.task.status ≠ .running → Agreement (recordAfter old input last) := by
    intro record hrec hnone hnil hne
    refine ⟨fun x hx hact => ?_, fun hs => absurd (hstatus ▸ hs) hne⟩
    rcases active_recordAfter hold hx hact with ⟨run, hrun, _⟩ | ⟨hx, _⟩
    · rw [hnone] at hrun
      cases hrun
    · rw [hrec] at hx
      have := activeRuns_eq_nil.mp hnil x hx
      rw [hact] at this
      cases this
  cases heff with
  | @begins _ _ request run hop hidle hrun hid hactive hs hc hout =>
      refine ⟨fun x hx hact => ?_, fun _ => ?_⟩
      · rcases active_recordAfter hold hx hact with ⟨run', hrun', rfl, _⟩ | ⟨hxold, _⟩
        · rw [hrun] at hrun'
          cases hrun'
          refine ⟨hstatus.trans hs, hcurrent.trans ?_⟩
          rw [hc]
          exact truthy_of_ne (hid ▸ hnamed request hop)
        · rw [hidle x hxold] at hact
          cases hact
      · exact ⟨readRun run, (mem_recordAfter_runs hold).mpr (.inl ⟨run, hrun, rfl⟩), hactive⟩
  | @keeps record _ hs hc hout hrun =>
      have hrec := hI record rfl
      have hcur : truthy input.runtimeState.currentRunId = record.runtimeState.currentRunId := by
        rw [hc]
        cases hcr : record.runtimeState.currentRunId with
        | none => rfl
        | some id =>
            exact truthy_of_ne fun he => (hkept record rfl).current_ne (he ▸ hcr)
      refine ⟨fun x hx hact => ?_, fun hs' => ?_⟩
      · rw [hstatus, hcurrent, hs, hcur]
        rcases active_recordAfter hold hx hact with ⟨w, hw, rfl, hactw⟩ | ⟨hxold, _⟩
        · obtain ⟨run, hmem, hid, heq⟩ := hrun w hw
          have howned := hrec.owned run hmem (heq ▸ hactw)
          exact ⟨howned.1, hid ▸ howned.2⟩
        · exact hrec.owned x hxold hact
      · obtain ⟨run, hmem, hact⟩ := hrec.held (hs ▸ hstatus ▸ hs')
        by_cases hex : ∃ w, input.run = some w ∧ w.runId = run.runId
        · obtain ⟨w, hw, hid⟩ := hex
          obtain ⟨run', hmem', hid', heq⟩ := hrun w hw
          have hsame : run' = run :=
            (store.constraints.record_runs_distinct (record?_mem hold)).eq_of_key
              hmem' hmem (hid'.trans hid)
          refine ⟨readRun w, (mem_recordAfter_runs hold).mpr (.inl ⟨w, hw, rfl⟩), ?_⟩
          exact heq.trans (hsame ▸ hact)
        · refine ⟨run, (mem_recordAfter_runs hold).mpr (.inr ⟨hmem, fun w hw heq => ?_⟩), hact⟩
          exact hex ⟨w, hw, heq.symm⟩
  | ends hmem hactive hrun hid hover hne =>
      refine ⟨fun x hx hact => ?_, fun hs => absurd (hstatus ▸ hs) hne⟩
      rw [ends_idle hold hmem hactive hrun hid hover x hx] at hact
      cases hact
  | @blocks record _ reason hop hrun hs hc hout =>
      exact idle record rfl hrun (hexit record rfl (hop ▸ rfl)) (by simp [hs])
  | @expires record _ reason hop hrun hs =>
      exact idle record rfl hrun (hexit record rfl (hop ▸ rfl)) (by simp [hs])

theorem agreement_step {call : Call} (h : StoreStep call.op call.env store after)
    (hkept : Everywhere WellKept store) (hnamed : NamesRun call.op)
    (hexit : MailboxExitIdle call store) (hI : Everywhere Agreement store) :
    Everywhere Agreement after := by
  refine hI.step h (fun k old input hc _ => ?_) (fun record gone hr hgone => ?_)
  · have hmem : ∀ record ∈ old, record ∈ store.tables.records := fun record hr =>
      record?_mem (hr ▸ hc.old_eq)
    exact .of_effect hc.effect hc.old_eq (fun r hr => hkept r (hmem r hr)) hnamed
      (fun r hr => hexit r (hmem r hr)) fun r hr => hI r (hmem r hr)
  · refine ⟨fun run hrun hact => ?_, hr.held⟩
    have howned := hr.owned run hrun hact
    refine ⟨howned.1, ?_⟩
    show record.runtimeState.currentRunId.filter _ = _
    rw [howned.2]
    simpa [Option.filter] using hgone run hrun

end

/-! ## Runs of calls -/

section
variable {π : Type}

theorem Returns.namesRun {bridges : Bridges π} {w w' : World π} {call : Call}
    (h : Returns bridges w call w') : NamesRun call.op := by
  intro request hop
  have hok := h.ok
  rw [hop] at hok
  simp only [exec, Outcome.void, beginRun, perform] at hok
  split at hok
  · cases hok
  · next hplan =>
      simp only [planBeginRun, bind_eq_ok, pure_eq_ok] at hplan
      obtain ⟨_, _, _, _, _, _, hplan⟩ := hplan
      cases hplan
  · next plan hplan =>
      obtain ⟨⟨old, hcommit⟩, htask⟩ := planBeginRun_commit hplan
      obtain ⟨heq, hid⟩ := hcommit.beginRun_eq
      split at hok
      · cases hok
      · next committed w'' hw =>
          have hafter := record?_after hcommit.old_eq (World.commit_store hw)
          rw [hid, ← htask] at hafter
          have hshown : getTaskSnapshot w''.store plan.taskId = projectAggregate
              (recordAfter old plan.commit w.store.tables.lastSequence).aggregate := by
            simp only [getTaskSnapshot, requireTask,
              getTaskAggregate_of_record hafter]
            rfl
          rw [hshown] at hok
          cases hs : projectAggregate
              (recordAfter old plan.commit w.store.tables.lastSequence).aggregate with
          | error e =>
              rw [hs] at hok
              cases hok
          | ok snapshot =>
              have hrun : readRun (request.newRun (call.env.now 0)) ∈
                  (recordAfter old plan.commit w.store.tables.lastSequence).runs :=
                (mem_recordAfter_runs hcommit.old_eq).mpr (.inl ⟨_, by rw [heq]; rfl, rfl⟩)
              exact projectAggregate_runId_ne hs hrun rfl

/-- In every run of calls that returned, whatever their arguments, every Task and its Runs
agree, provided no mailbox exit was made on a Task with an active Run. -/
theorem task_run_agreement (bridges : Bridges π) {w w' : World π} {calls : List Call}
    (hw : Initial w)
    (h : Runs.Steps (GuardedReturns MailboxExitIdle bridges) w calls w') :
    ∀ record ∈ w'.store.tables.records, TaskRunAgreement record := by
  have hrun : Runs.Steps (Runs.Guarded
      (fun a c => MailboxExitIdle c a.store ∧ NamesRun c.op) (Returns bridges)) w calls w' :=
    h.mono fun a c b hab => ⟨⟨hab.1, hab.2.namesRun⟩, hab.2⟩
  have hinv := invariant_of_steps (fun c s => MailboxExitIdle c s ∧ NamesRun c.op)
    (I := fun s => Everywhere WellKept s ∧ Everywhere Agreement s)
    (fun a c b hab => hab.cut) ⟨fun _ hm => (by cases hm), fun _ hm => (by cases hm)⟩
    (fun c a b hI hguard hstep => ⟨⟨wellKept_step hstep hI.1,
      agreement_step hstep hI.1 hguard.2 hguard.1 hI.2⟩,
      exitIdle_step (fun _ => rfl) (fun _ => rfl) hstep hguard.1, hguard.2⟩) hw hrun
  exact fun record hmem => (hinv.2 record hmem).agrees hmem

/-- A deadlock on a Task whose Run was interrupted before meets the guard. -/
theorem task_run_agreement_deadlock :
    ∃ w' : World Unit, w'.store.tables.records ≠ [] ∧
      ∀ record ∈ w'.store.tables.records, TaskRunAgreement record := by
  obtain ⟨w', h, hne⟩ := exists_guarded_run MailboxExitIdle {} emptyWorld
    [⟨stoppedEnv '1', .beginRun createRequest⟩,
     ⟨stoppedEnv '2', .interruptRun "r" { reason := "stop", source := .user }⟩,
     ⟨stoppedEnv '3', .blockMailboxDeadlock "t" "deadlock"⟩]
    (P := fun w' => w'.store.tables.records ≠ []) (by decide)
  exact ⟨w', hne, task_run_agreement {} (w := emptyWorld) rfl h⟩

/-- A deadlock reported on a Task whose Run is executing blocks the Task and leaves the Run
active. -/
theorem task_run_agreement_lost :
    ∃ w', Runs.Steps (Returns {}) emptyWorld
        [⟨stoppedEnv '1', .beginRun createRequest⟩,
         ⟨stoppedEnv '2', .blockMailboxDeadlock "t" "deadlock"⟩] w' ∧
      ∃ record ∈ w'.store.tables.records, ¬ TaskRunAgreement record :=
  exists_run {} emptyWorld _ (by decide)

end

end Newide
