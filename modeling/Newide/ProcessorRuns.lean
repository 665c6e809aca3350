import Newide.OperationSteps

/-!
# Runs of the processor

A run is a sequence of calls on a fresh database.  A call counts when it
returned; for the crash properties it may also be cut at any of its
commits.  Either way it is a chain of `StoreStep`s, so an invariant
needs one lemma about a single transaction, and an invariant of single
records needs one about the record that transaction writes.
-/

namespace Newide

open Fallible CoordinationStore

/-! ## The record a commit leaves -/

/-- The record of the committed Task, from the one it had. -/
def recordAfter (old : Option TaskRecord) (input : CoordinationStateCommit) (last : Nat) :
    TaskRecord :=
  match old with
  | none => writeRecord [] [] [] input last
  | some record => record.write input last

def Everywhere (I : TaskRecord → Prop) (store : CoordinationStore) : Prop :=
  ∀ record ∈ store.tables.records, I record

section
variable {store after : CoordinationStore} {env : Env} {op : Operation}
  {old : Option TaskRecord} {input : CoordinationStateCommit}
  {committed : List PersistedCoordinationEvent} {I : TaskRecord → Prop}

theorem TaskCommit.old_eq (h : TaskCommit store env op old input) :
    store.record? input.task.taskId = old := by
  cases h with
  | beginNew hnone => exact hnone
  | beginExisting hrec =>
      exact record?_of_mem (record?_mem hrec)
  | startStage hat => exact record?_of_mem hat.record_mem
  | councilReceipt hop hacts => exact record?_of_mem hacts.record_mem
  | advance hadv =>
      have h := record?_of_mem hadv.at_stage.record_mem
      simpa [advanceStageCommit] using h
  | fail hat => exact record?_of_mem hat.record_mem
  | override howns => exact record?_of_mem howns.record_mem
  | runEvent hacts => exact record?_of_mem hacts.record_mem
  | mailboxWait howns => exact record?_of_mem howns.record_mem
  | block hrec => exact record?_of_mem (record?_mem hrec)
  | expire hrec => exact record?_of_mem (record?_mem hrec)
  | interrupt hop hacts => exact record?_of_mem hacts.record_mem
  | finish hacts => exact record?_of_mem hacts.record_mem
  | safepoint hop hacts => exact record?_of_mem hacts.record_mem
  | restore hrec => exact record?_of_mem (record?_mem hrec)

theorem TaskCommit.record_mem {record : TaskRecord}
    (h : TaskCommit store env op (some record) input) : record ∈ store.tables.records :=
  record?_mem h.old_eq

theorem record?_after (hold : store.record? input.task.taskId = old)
    (hstore : store.commitState input = .ok (committed, after)) :
    after.record? input.task.taskId =
      some (recordAfter old input store.tables.lastSequence) := by
  cases old with
  | none => exact record?_commit_new hstore hold
  | some record => exact record?_commit_self hstore hold

theorem mem_records_after (hold : store.record? input.task.taskId = old)
    (hstore : store.commitState input = .ok (committed, after)) {record : TaskRecord}
    (hmem : record ∈ after.tables.records) :
    record = recordAfter old input store.tables.lastSequence ∨
      (record ∈ store.tables.records ∧ record.taskId ≠ input.task.taskId) := by
  have hrec := record?_of_mem hmem
  by_cases hid : record.taskId = input.task.taskId
  · rw [hid, record?_after hold hstore] at hrec
    exact .inl (Option.some.inj hrec).symm
  · rw [record?_commit_ne hstore hid] at hrec
    exact .inr ⟨record?_mem hrec, hid⟩

theorem Everywhere.commit (hI : Everywhere I store)
    (hold : store.record? input.task.taskId = old)
    (hstore : store.commitState input = .ok (committed, after))
    (hnext : I (recordAfter old input store.tables.lastSequence)) : Everywhere I after := by
  intro record hmem
  rcases mem_records_after hold hstore hmem with rfl | ⟨hmem, _⟩
  · exact hnext
  · exact hI record hmem

def goneRuns (store : CoordinationStore) (taskId : String) : List String :=
  ((store.tables.record? taskId).elim [] (·.runs)).map (·.runId)

theorem deleteTask_ok {taskId : String} (h : store.deleteTask taskId = .ok after) :
    after.tables.records = (store.tables.records.filter fun record => record.taskId ≠ taskId).map
        (Tables.forgetRuns (goneRuns store taskId)) ∧
      (∀ record ∈ store.tables.records, record.taskId ≠ taskId → ∀ run ∈ record.runs,
        ∀ source ∈ run.restartedFromRunId, source ∉ goneRuns store taskId) ∧
      ∀ record ∈ store.tables.records, record.taskId ≠ taskId → ∀ event ∈ record.events,
        ∀ runId ∈ event.runId, runId ∉ goneRuns store taskId := by
  unfold CoordinationStore.deleteTask at h
  split at h
  · cases h
  · next tables htables =>
      cases h
      simp only [Tables.deleteTask, bind_eq_ok, ensure_eq_ok, pure_eq_ok] at htables
      obtain ⟨_, hsource, _, hevent, rfl⟩ := htables
      have hkept : ∀ record ∈ store.tables.records, record.taskId ≠ taskId →
          record ∈ store.tables.records.filter fun record => record.taskId ≠ taskId :=
        fun record hmem hne => List.mem_filter.mpr ⟨hmem, by simpa using hne⟩
      exact ⟨rfl, fun record hmem hne => hsource record (hkept record hmem hne),
        fun record hmem hne => hevent record (hkept record hmem hne)⟩

theorem not_mem_goneRuns {taskId : String} {record : TaskRecord}
    (hmem : record ∈ store.tables.records) (hne : record.taskId ≠ taskId) :
    ∀ run ∈ record.runs, run.runId ∉ goneRuns store taskId := by
  intro run hrun hgone
  unfold goneRuns at hgone
  cases hrec : store.tables.record? taskId with
  | none => simp [hrec] at hgone
  | some deleted =>
      simp only [hrec, Option.elim_some, List.mem_map] at hgone
      obtain ⟨other, hother, hid⟩ := hgone
      have heq := store.constraints.record_eq_of_run hmem (Rows.lookup_mem hrec) hrun hother
        hid.symm
      exact hne (heq ▸ Rows.lookup_key hrec)

theorem mem_records_deleted {taskId : String} (h : store.deleteTask taskId = .ok after)
    {record : TaskRecord} : record ∈ after.tables.records ↔ ∃ kept ∈ store.tables.records,
      kept.taskId ≠ taskId ∧ Tables.forgetRuns (goneRuns store taskId) kept = record := by
  rw [(deleteTask_ok h).1]
  simp [List.mem_map, List.mem_filter, and_assoc]

theorem Everywhere.delete (hI : Everywhere I store) {taskId : String}
    (hstore : store.deleteTask taskId = .ok after)
    (hforget : ∀ record gone, I record → (∀ run ∈ record.runs, run.runId ∉ gone) →
      I (Tables.forgetRuns gone record)) : Everywhere I after := by
  intro record hmem
  obtain ⟨kept, hkept, hne, rfl⟩ := (mem_records_deleted hstore).mp hmem
  exact hforget kept _ (hI kept hkept) (not_mem_goneRuns hkept hne)

theorem Everywhere.step (hI : Everywhere I store) (h : StoreStep op env store after)
    (hcommit : ∀ k old input, TaskCommit store (env.shift k) op old input →
      Admitted store.tables input → I (recordAfter old input store.tables.lastSequence))
    (hforget : ∀ record gone, I record → (∀ run ∈ record.runs, run.runId ∉ gone) →
      I (Tables.forgetRuns gone record)) : Everywhere I after := by
  cases h with
  | commit hc hstore =>
      exact hI.commit hc.old_eq hstore
        (hcommit _ _ _ hc (commitState_eq_ok.mp hstore).1)
  | delete hop hstore => exact hI.delete hstore hforget
  | protocol => exact hI

end

/-! ## Calls -/

/-- One call, with the answers its options give during it. -/
structure Call where
  env : Env
  op : Operation

section
variable {π : Type}

structure Returns (bridges : Bridges π) (w : World π) (call : Call) (w' : World π) : Prop where
  ok : (exec bridges call.env w call.op).result = .ok ()
  final : w' = (exec bridges call.env w call.op).final w

/-- A call cut at one of its commits, by a throw or by the end of the process. -/
def Cut (bridges : Bridges π) (w : World π) (call : Call) (w' : World π) : Prop :=
  w' = w ∨ w' ∈ (exec bridges call.env w call.op).commits

variable {bridges : Bridges π} {w w' : World π} {call : Call}

theorem Returns.cut (h : Returns bridges w call w') : Cut bridges w call w' := by
  rw [h.final, Outcome.final]
  cases hl : (exec bridges call.env w call.op).commits.getLast? with
  | none => exact .inl (by rw [List.getLastD_eq_getLast?, hl]; rfl)
  | some last =>
      rw [List.getLastD_eq_getLast?, hl]
      exact .inr (List.mem_of_getLast? hl)

theorem Cut.invariant {I : CoordinationStore → Prop}
    (hstep : ∀ a b, I a → StoreStep call.op call.env a b → I b) (hw : I w.store)
    (h : Cut bridges w call w') : I w'.store := by
  rcases h with rfl | hmem
  · exact hw
  · exact Runs.chain_invariant hstep hw (exec_chain bridges call.env w call.op) _
      (List.mem_map_of_mem hmem)

/-- A call that returned, or was cut after one of its commits.  One that was cut before its
first commit changed nothing and is left out of a run. -/
def TakesEffect (bridges : Bridges π) (w : World π) (call : Call) (w' : World π) : Prop :=
  Returns bridges w call w' ∨ w' ∈ (exec bridges call.env w call.op).commits

theorem TakesEffect.cut (h : TakesEffect bridges w call w') : Cut bridges w call w' := by
  rcases h with hreturned | hmem
  · exact hreturned.cut
  · exact .inr hmem

theorem TakesEffect.performed {planned : Except Thrown (Planned π)}
    (h : TakesEffect bridges w call w')
    (hexec : exec bridges call.env w call.op = (perform w planned).void) :
    (∃ taskId, planned = .ok (.unchanged taskId) ∧ w' = w) ∨
      ∃ plan committed, planned = .ok (.commit plan) ∧
        w.store.commitState plan.commit = .ok (committed, w'.store) := by
  have hcommits : (perform w planned).void.commits = (perform w planned).commits := rfl
  rcases h with hreturned | hmem
  · obtain ⟨hok, hfinal⟩ := hreturned
    rw [hexec] at hok hfinal
    rw [Outcome.final, hcommits] at hfinal
    obtain ⟨result, hresult⟩ := Outcome.void_ok hok
    rcases perform_returned hresult with ⟨taskId, hplan, hnil⟩ |
        ⟨plan, w1, committed, hplan, hone, hstore⟩
    · rw [hnil] at hfinal
      exact .inl ⟨taskId, hplan, hfinal⟩
    · rw [hone] at hfinal
      cases hfinal
      exact .inr ⟨plan, committed, hplan, hstore⟩
  · rw [hexec, hcommits] at hmem
    rcases perform_commits with hnil | ⟨plan, w1, committed, hplan, hone, hstore⟩
    · rw [hnil] at hmem
      cases hmem
    · rw [hone, List.mem_singleton] at hmem
      subst hmem
      exact .inr ⟨plan, committed, hplan, hstore⟩

/-- The worlds a processor can start in: no coordination rows yet. -/
def Initial (w : World π) : Prop :=
  w.store = .empty

/-- An invariant of all transactions that meet `guard` holds in every state of every run
whose calls, cut or not, meet it. -/
theorem invariant_of_steps (guard : Call → CoordinationStore → Prop)
    {I : CoordinationStore → Prop} {step : World π → Call → World π → Prop}
    (hcut : ∀ a c b, step a c b → Cut bridges a c b)
    (hempty : I .empty)
    (hstep : ∀ (c : Call) a b, I a → guard c a → StoreStep c.op c.env a b → I b ∧ guard c b)
    {calls : List Call} (hw : Initial w)
    (h : Runs.Steps (Runs.Guarded (fun a c => guard c a.store) step) w calls w') : I w'.store := by
  refine Runs.Steps.invariant (I := fun x : World π => I x.store) (hw ▸ hempty) ?_ h
  rintro a c b hI ⟨hguard, hab⟩
  exact ((hcut a c b hab).invariant (I := fun s => I s ∧ guard c s)
    (fun s t hs hst => hstep c s t hs.1 hs.2 hst) ⟨hI, hguard⟩).1

/-! ## Running calls -/

abbrev GuardedReturns (guard : Call → CoordinationStore → Prop) (bridges : Bridges π) :
    World π → Call → World π → Prop :=
  Runs.Guarded (fun a c => guard c a.store) (Returns bridges)

variable (guard : Call → CoordinationStore → Prop) [∀ c s, Decidable (guard c s)]

def nextWorld (bridges : Bridges π) (w : World π) (call : Call) : Option (World π) :=
  match (exec bridges call.env w call.op).result with
  | .error _ => none
  | .ok _ =>
      if guard call w.store then some ((exec bridges call.env w call.op).final w) else none

theorem nextWorld_step {w w' : World π} {call : Call}
    (h : nextWorld guard bridges w call = some w') :
    GuardedReturns guard bridges w call w' := by
  unfold nextWorld at h
  split at h
  · cases h
  · next hok =>
      split at h
      · next hguard =>
          cases h
          exact ⟨hguard, hok, rfl⟩
      · cases h

/-- A decidable property of the world the calls lead to is a property of a run. -/
theorem exists_guarded_run (bridges : Bridges π) (w : World π) (calls : List Call)
    {P : World π → Prop} [DecidablePred P]
    (h : (Runs.exec (nextWorld guard bridges) w calls).any (fun w' => P w') = true) :
    ∃ w', Runs.Steps (GuardedReturns guard bridges) w calls w' ∧ P w' :=
  Runs.exists_steps (nextWorld guard bridges) (fun _ _ _ hab => nextWorld_step guard hab) w calls h

theorem exists_run (bridges : Bridges π) (w : World π) (calls : List Call) {P : World π → Prop}
    [DecidablePred P]
    (h : (Runs.exec (nextWorld (fun _ _ => True) bridges) w calls).any (fun w' => P w') = true) :
    ∃ w', Runs.Steps (Returns bridges) w calls w' ∧ P w' := by
  obtain ⟨w', hrun, hP⟩ := exists_guarded_run _ bridges w calls h
  exact ⟨w', hrun.mono fun _ _ _ hab => hab.2, hP⟩

/-- A process whose clock stands still at `time` during a call, and whose ids begin with
the time they were made at. -/
def stoppedEnv (time : Char) : Env where
  now _ := String.ofList [time]
  createEventId k := String.ofList (time :: 'e' :: List.replicate k '+')
  createCheckpointId k := String.ofList (time :: 'c' :: List.replicate k '+')
  captureFileAnchor workspacePath _ :=
    { baseCommit := "head"
      worktreePath := workspacePath
      branch := "main"
      modifiedFiles := []
      recoverable := true }

/-- A new Task `t` with its first Run `r`. -/
def createRequest : BeginTaskRunInput where
  taskId := "t"
  runId := "r"
  taskRequest := { spec := "spec", completionCriteria := [] }
  workspacePath := "/w"
  mode := .singleAgent

def startCall (time : Char) (runId : String) (cursor : TaskResumeCursor) : Call :=
  ⟨stoppedEnv time, .startStage { runId, expectedCursor := cursor, invocationId := "i" }⟩

def advanceCall (time : Char) (runId : String) (cursor : TaskResumeCursor)
    (nextInput : TaskCursorInput) (finalOutput : Option PersistedTaskFinalOutput) : Call :=
  ⟨stoppedEnv time, .advanceStage
    { runId
      expectedCursor := cursor
      invocationId := "i"
      evidenceRef := { uri := "e", sha256 := zeroSha256 }
      nextInput
      finalOutput }⟩

/-- A database with no rows and no protocol tables. -/
def emptyWorld : World Unit where
  store := .empty
  protocol := ()

end

end Newide
