import Newide.Foundation.Runs
import Newide.IdleTasks

/-!
# Workspace restores and the Runs under them

`resumeTask` of the backend service gives way twice before it touches
the workspace: while `getTask` lists the Tasks, and while the request of
the interrupted Run is loaded.  The state holds the calls that wait
there, and one step is the code between two awaits.  Every other method
of the service, and every execution loop, acts on a Task through calls
of the processor, and any sequence of those may fall between the
segments of a resume.
-/

namespace Newide

open Fallible

variable {π : Type}

/-! ## The segments of a resume -/

inductive RestoreStatus where
  | restored | skipped
deriving DecidableEq

def RestoreStatus.text : RestoreStatus → String
  | .restored => "restored"
  | .skipped => "skipped"

structure RestoreFileAnchorResult where
  status : RestoreStatus
  reason : Option String := none
  restoredFiles : List String := []
  extraFiles : List String := []

/-- Where an in-flight `resumeTask` waits. -/
inductive ResumePoint where
  /-- In `getTask`, which has already listed the durable Tasks. -/
  | gettingTask (durable : List TaskSnapshot)
  /-- In `requestStore.load`, with the package and the context of the resume. -/
  | loadingRequest (resumePackage : ResumePackage) (resume : TaskResumeContext)
  | settled

structure ResumeCall where
  taskId : String
  point : ResumePoint

/-- What the last segment of a resume is answered by git, the file system and the
options of the service. -/
structure ResumeAnswers where
  restoreFileAnchor : FileAnchor → RestoreFileAnchorResult
  auditEnv : Env
  closing : Bool := false
  normalizeWorkspacePath : String → Except Thrown String := .ok
  freezeDriverConfig : Except Thrown Unit := .ok ()
  runId : String
  beginEnv : Env

/-- `getTask` after its awaits.  A Task of the Run history is listed only when it is not
durable. -/
def getTask (taskId : String) (durable : List TaskSnapshot)
    (legacyTasks : Except Thrown (List TaskSnapshot)) : Except Thrown TaskSnapshot := do
  let legacyTasks ← legacyTasks
  orThrow ((durable.find? fun task => task.taskId = taskId) <|>
    (legacyTasks.find? fun task => task.taskId = taskId)) (.taskNotFound taskId)

/-- The segment of `resumeTask` after `getTask`: its checks, and what it then reads. -/
def resumeTaskRead (taskId : String) (task : Except Thrown TaskSnapshot) (env : Env)
    (store : CoordinationStore) : Except Thrown (ResumePackage × TaskResumeContext) := do
  let task ← task
  ensure (task.currentRun.isNone = true) (.error ("Task " ++ taskId ++ " is already running"))
  ensure (task.status = .blocked) (.error ("Task " ++ taskId ++ " is not blocked"))
  let resumePackage ← buildResumePackage env store taskId
  let resume ← getTaskResumeContext env store taskId
  return (resumePackage, resume)

/-- The payload of `checkpoint.workspace_restored`. -/
def restoreOutcome (anchor : FileAnchor) (result : RestoreFileAnchorResult) : Payload :=
  ("status", .str result.status.text) :: optionalField "reason" (truthy result.reason) ++
    ("workspace_path", .str anchor.worktreePath) ::
      optionalField "snapshot_commit" (truthy anchor.snapshotCommit) ++
    [("restored_file_count", .num result.restoredFiles.length),
     ("extra_files", .arr (result.extraFiles.map .str))]

section
variable (bridges : Bridges π)

/-- `restoreResumeWorkspace`: the restore, and its audit. -/
def restoreResumeWorkspace (answers : ResumeAnswers) (taskId : String)
    (resumePackage : ResumePackage) (w : World π) : RestoreFileAnchorResult × World π :=
  let anchor := resumePackage.fileAnchor
  let result :=
    if anchor.recoverable then answers.restoreFileAnchor anchor
    else { status := .skipped, reason := some "anchor_not_recoverable" }
  (result, (exec bridges answers.auditEnv w
    (.recordWorkspaceRestore taskId resumePackage.checkpointId resumePackage.interruptedRunId
      (restoreOutcome anchor result))).final w)

/-- How `startTaskLoopRun` begins a Run: one that cannot be begun is finished as failed. -/
def beginTaskLoopRun (env : Env) (input : BeginTaskRunInput) (w : World π) : World π :=
  let begun := exec bridges env w (.beginRun input)
  match begun.result with
  | .ok _ => begun.final w
  | .error error =>
      (exec bridges (env.shift 8) (begun.final w) (.finishRun
        { runId := input.runId
          status := .failed
          error := some { code := "RUN_START_FAILED", message := error.message } })).final
        (begun.final w)

/-- The request the last segment of a resume begins a Run with, unless it throws before. -/
def ResumeAnswers.request (answers : ResumeAnswers) (taskId : String)
    (result : RestoreFileAnchorResult) (resume : TaskResumeContext) : Option BeginTaskRunInput :=
  if result.status ≠ .restored ∨ answers.closing = true then none
  else
    match answers.normalizeWorkspacePath resume.workspacePath, answers.freezeDriverConfig with
    | .ok workspacePath, .ok _ => some (resumeRequest resume taskId answers.runId workspacePath)
    | _, _ => none

/-- The last segment of `resumeTask`, up to the next await of `startTaskLoopRun`. -/
def resumeTaskRun (answers : ResumeAnswers) (taskId : String) (resumePackage : ResumePackage)
    (resume : TaskResumeContext) (w : World π) : World π :=
  let restored := restoreResumeWorkspace bridges answers taskId resumePackage w
  match answers.request taskId restored.1 resume with
  | none => restored.2
  | some request => beginTaskLoopRun bridges answers.beginEnv request restored.2

end

/-! ## The interleaving -/

/-- A call of the processor by any other method or loop.  None of them deletes a Task. -/
structure OtherCall extends Call where
  keeps : ∀ taskId, op ≠ .deleteTask taskId

inductive ResumeLabel where
  | processor (call : OtherCall)
  | resumeTask (taskId : String)
  | gotTask (index : Nat) (legacyTasks : Except Thrown (List TaskSnapshot)) (env : Env)
  | loaded (index : Nat) (answers : ResumeAnswers)

/-- The database and the `resumeTask` calls made so far. -/
structure ResumeState (π : Type) where
  world : World π
  calls : List ResumeCall := []

open ResumeState

namespace ResumeState

def moveTo (s : ResumeState π) (index : Nat) (call : ResumeCall) (point : ResumePoint) :
    ResumeState π :=
  { s with calls := s.calls.set index { call with point } }

/-- One segment.  A label that fits no waiting call does nothing. -/
def step (bridges : Bridges π) (s : ResumeState π) : ResumeLabel → ResumeState π
  | .processor call =>
      { s with world := (exec bridges call.env s.world call.op).final s.world }
  | .resumeTask taskId =>
      match listTaskSnapshots s.world.store with
      | .error _ => { s with calls := s.calls ++ [{ taskId, point := .settled }] }
      | .ok durable => { s with calls := s.calls ++ [{ taskId, point := .gettingTask durable }] }
  | .gotTask index legacyTasks env =>
      match s.calls[index]? with
      | some call =>
          match call.point with
          | .gettingTask durable =>
              match resumeTaskRead call.taskId (getTask call.taskId durable legacyTasks) env
                  s.world.store with
              | .error _ => s.moveTo index call .settled
              | .ok (resumePackage, resume) =>
                  s.moveTo index call (.loadingRequest resumePackage resume)
          | _ => s
      | none => s
  | .loaded index answers =>
      match s.calls[index]? with
      | some call =>
          match call.point with
          | .loadingRequest resumePackage resume =>
              { s.moveTo index call .settled with
                world := resumeTaskRun bridges answers call.taskId resumePackage resume s.world }
          | _ => s
      | none => s

/-- The Task and the package whose anchor `restoreFileAnchor` is applied to in a step. -/
def restores? (s : ResumeState π) : ResumeLabel → Option (String × ResumePackage)
  | .loaded index _ => do
      let call ← s.calls[index]?
      match call.point with
      | .loadingRequest resumePackage _ =>
          if resumePackage.fileAnchor.recoverable then some (call.taskId, resumePackage) else none
      | _ => none
  | _ => none

end ResumeState

structure RestoresFrom (resumePackage : ResumePackage) (checkpoint : PersistedFullCheckpoint) :
    Prop where
  checkpointId : resumePackage.checkpointId = checkpoint.checkpointId
  snapshotCommit : resumePackage.fileAnchor.snapshotCommit =
    truthy checkpoint.mechanicalSnapshot.snapshotCommit
  worktreePath : resumePackage.fileAnchor.worktreePath = checkpoint.mechanicalSnapshot.worktreePath

instance (resumePackage : ResumePackage) (checkpoint : PersistedFullCheckpoint) :
    Decidable (RestoresFrom resumePackage checkpoint) :=
  decidable_of_iff (resumePackage.checkpointId = checkpoint.checkpointId ∧
    resumePackage.fileAnchor.snapshotCommit =
      truthy checkpoint.mechanicalSnapshot.snapshotCommit ∧
    resumePackage.fileAnchor.worktreePath = checkpoint.mechanicalSnapshot.worktreePath)
    ⟨fun h => ⟨h.1, h.2.1, h.2.2⟩, fun h => ⟨h.1, h.2, h.3⟩⟩

/-- No Run of the Task is active, and its latest checkpoint is the one restored. -/
def SafeRestore (store : CoordinationStore) (restore : String × ResumePackage) : Prop :=
  Idle restore.1 store ∧
    ∃ checkpoint ∈ store.getLatestCheckpoint restore.1, RestoresFrom restore.2 checkpoint

instance (store : CoordinationStore) (restore : String × ResumePackage) :
    Decidable (SafeRestore store restore) :=
  inferInstanceAs (Decidable (_ ∧ _))

/-- A step restores a workspace when it must not. -/
def RestoresUnderRun (s : ResumeState π) (label : ResumeLabel) (_ : ResumeState π) : Prop :=
  ∃ restore ∈ s.restores? label, ¬ SafeRestore s.world.store restore

/-! ## When a Run is begun under a resume -/

/-- The call has found its Task blocked and idle and has not restored yet. -/
def ResumePoint.Between (taskId : String) : ResumePoint → Prop
  | .gettingTask durable => ∀ task ∈ durable.find? fun task => task.taskId = taskId,
      task.currentRun.isNone = true ∧ task.status = .blocked
  | .loadingRequest _ _ => True
  | .settled => False

instance (taskId : String) : (point : ResumePoint) → Decidable (point.Between taskId)
  | .gettingTask durable => inferInstanceAs
      (Decidable (∀ task ∈ durable.find? fun task => task.taskId = taskId,
        task.currentRun.isNone = true ∧ task.status = .blocked))
  | .loadingRequest _ _ => .isTrue trivial
  | .settled => .isFalse id

abbrev ResumeCall.Between (call : ResumeCall) : Prop :=
  call.point.Between call.taskId

def ResumeState.begins (s : ResumeState π) : ResumeLabel → Option (String × Option Nat)
  | .processor call =>
      match call.op with
      | .beginRun input => some (input.taskId, none)
      | _ => none
  | .loaded index answers => do
      let call ← s.calls[index]?
      match call.point with
      | .loadingRequest resumePackage resume =>
          let result :=
            if resumePackage.fileAnchor.recoverable then
              answers.restoreFileAnchor resumePackage.fileAnchor
            else { status := .skipped, reason := some "anchor_not_recoverable" }
          (answers.request call.taskId result resume).map fun _ => (call.taskId, some index)
      | _ => none
  | _ => none

/-- A step begins a Run of a Task while another resume of the Task is between its reading
and its restore. -/
def BeginsUnderResume (s : ResumeState π) (label : ResumeLabel) (_ : ResumeState π) : Prop :=
  ∃ begun ∈ s.begins label, ∃ entry ∈ s.calls.zipIdx,
    begun.2 ≠ some entry.2 ∧ entry.1.taskId = begun.1 ∧ entry.1.Between

instance (s t : ResumeState π) (label : ResumeLabel) : Decidable (BeginsUnderResume s label t) :=
  inferInstanceAs (Decidable (∃ begun ∈ s.begins label, _))

/-! ## What a waiting resume can rely on -/

/-- A call that is between its reading and its restore still has an idle Task, and the
package it has read is that of the latest checkpoint. -/
def CallKept (store : CoordinationStore) (call : ResumeCall) : Prop :=
  match call.point with
  | .gettingTask _ => call.Between → Idle call.taskId store
  | .loadingRequest resumePackage _ => SafeRestore store (call.taskId, resumePackage)
  | .settled => True

variable {label : ResumeLabel} {resume : TaskResumeContext}

section
variable {bridges : Bridges π} {s : ResumeState π} {store after : CoordinationStore} {env : Env}
  {call : ResumeCall} {taskId : String} {resumePackage : ResumePackage}

theorem buildResumePackage_restores (h : buildResumePackage env store taskId = .ok resumePackage) :
    ∃ checkpoint ∈ store.getLatestCheckpoint taskId, RestoresFrom resumePackage checkpoint := by
  simp only [buildResumePackage, buildResumePackageFrom, bind_eq_ok, orThrow_eq_ok,
    pure_eq_ok] at h
  obtain ⟨_, _, checkpoint, hlatest, _, _, _, _, _, _, _, _, rfl⟩ := h
  exact ⟨checkpoint, hlatest, rfl, rfl, rfl⟩

theorem resumeTaskRead_ok {task : Except Thrown TaskSnapshot}
    (h : resumeTaskRead taskId task env store = .ok (resumePackage, resume)) :
    (∃ shown, task = .ok shown ∧ shown.currentRun.isNone = true ∧ shown.status = .blocked) ∧
      buildResumePackage env store taskId = .ok resumePackage := by
  simp only [resumeTaskRead, bind_eq_ok, ensure_eq_ok, pure_eq_ok] at h
  obtain ⟨shown, hshown, _, hnone, _, hblocked, _, hpackage, _, _, hpair⟩ := h
  cases hpair
  exact ⟨⟨shown, hshown, hnone, hblocked⟩, hpackage⟩

theorem CallKept.mono (h : CallKept store call)
    (hidle : call.Between → ∀ latest, IdleAt call.taskId latest store →
      IdleAt call.taskId latest after) : CallKept after call := by
  unfold CallKept at h ⊢
  cases hpoint : call.point with
  | gettingTask durable =>
      simp only [hpoint] at h ⊢
      exact fun hbetween => (hidle hbetween _ ⟨h hbetween, rfl⟩).1
  | loadingRequest resumePackage resume =>
      simp only [hpoint] at h ⊢
      obtain ⟨hidleT, checkpoint, hlatest, hrestores⟩ := h
      have hbetween : call.Between := by simp [ResumeCall.Between, ResumePoint.Between, hpoint]
      have hafter := hidle hbetween _ ⟨hidleT, rfl⟩
      exact ⟨hafter.1, checkpoint, hafter.2 ▸ hlatest, hrestores⟩
  | settled => trivial

theorem resumeTaskRun_idleAt {answers : ResumeAnswers} {w : World π} {own : String}
    {latest : Option PersistedFullCheckpoint} (hown : ∀ request, answers.request own
      (restoreResumeWorkspace bridges answers own resumePackage w).1 resume = some request →
      own ≠ taskId) (h : IdleAt taskId latest w.store) :
    IdleAt taskId latest (resumeTaskRun bridges answers own resumePackage resume w).store := by
  have haudit : IdleAt taskId latest
      (restoreResumeWorkspace bridges answers own resumePackage w).2.store :=
    exec_idleAt ⟨fun _ hop => (by cases hop), fun _ hop => (by cases hop)⟩ h
  simp only [resumeTaskRun]
  split
  · exact haudit
  · next request hrequest =>
      have hid : request.taskId = own := by
        unfold ResumeAnswers.request at hrequest
        split at hrequest
        · cases hrequest
        · split at hrequest
          · cases hrequest
            rfl
          · cases hrequest
      have hbegun : IdleAt taskId latest
          ((exec bridges answers.beginEnv _ (.beginRun request)).final _).store :=
        exec_idleAt ⟨fun input hop => by cases hop; exact hid ▸ hown request hrequest,
          fun _ hop => (by cases hop)⟩ haudit
      simp only [beginTaskLoopRun]
      split
      · exact hbegun
      · exact exec_idleAt ⟨fun _ hop => (by cases hop), fun _ hop => (by cases hop)⟩ hbegun

/-! ## One segment -/

/-- Every call made so far can rely on its part. -/
def CallsKept (s : ResumeState π) : Prop :=
  ∀ (index : Nat) (call : ResumeCall), s.calls[index]? = some call → CallKept s.world.store call

theorem CallsKept.moveTo {index : Nat} {point : ResumePoint} (h : CallsKept s)
    (hcall : s.calls[index]? = some call) (hkept : CallKept s.world.store { call with point }) :
    CallsKept (s.moveTo index call point) := by
  intro j other hother
  have hlt : index < s.calls.length := (List.getElem?_eq_some_iff.mp hcall).1
  by_cases hj : index = j
  · subst hj
    rw [ResumeState.moveTo, List.getElem?_set_self hlt] at hother
    cases hother
    exact hkept
  · rw [ResumeState.moveTo, List.getElem?_set_ne hj] at hother
    exact h j other hother

theorem callsKept_step (h : CallsKept s)
    (hbegins : ¬ BeginsUnderResume s label (s.step bridges label)) :
    CallsKept (s.step bridges label) := by
  cases label with
  | processor other =>
      intro index call hcall
      refine (h index call hcall).mono fun hbetween latest => exec_idleAt ⟨?_, other.keeps⟩
      intro input hop hid
      exact hbegins ⟨(input.taskId, none), by simp [begins, hop], (call, index),
        List.mem_zipIdx_iff_getElem?.mpr hcall, by simp, hid.symm, hbetween⟩
  | resumeTask taskId =>
      have snoc : ∀ point, CallKept s.world.store { taskId, point } →
          CallsKept { s with calls := s.calls ++ [{ taskId, point }] } := by
        intro point hpoint index call hcall
        rw [List.getElem?_append] at hcall
        split at hcall
        · exact h index call hcall
        · rw [List.getElem?_singleton] at hcall
          split at hcall
          · cases hcall
            exact hpoint
          · cases hcall
      simp only [step]
      split
      · exact snoc .settled trivial
      · next durable hlist =>
          refine snoc (.gettingTask durable) fun hbetween => ?_
          exact listTaskSnapshots_idle hlist fun task hfind =>
            Option.isNone_iff_eq_none.mp (hbetween task hfind).1
  | gotTask index history env =>
      simp only [step]
      split
      · next call hcall =>
          split
          · next durable hpoint =>
              split
              · exact h.moveTo hcall trivial
              · next resumePackage resume hread =>
                  obtain ⟨⟨shown, hshown, hnone, hblocked⟩, hpackage⟩ := resumeTaskRead_ok hread
                  have hkept := h index call hcall
                  simp only [CallKept, hpoint] at hkept
                  have hbetween : call.Between := by
                    simp only [ResumeCall.Between, ResumePoint.Between, hpoint]
                    intro task hfind
                    simp only [getTask, bind_eq_ok, orThrow_eq_ok, Option.mem_def.mp hfind,
                      Option.orElse_eq_orElse, Option.orElse_eq_or, Option.some_or,
                      Option.some.injEq] at hshown
                    obtain ⟨_, _, rfl⟩ := hshown
                    exact ⟨hnone, hblocked⟩
                  exact h.moveTo hcall ⟨hkept hbetween, buildResumePackage_restores hpackage⟩
          · exact h
      · exact h
  | loaded index answers =>
      simp only [step]
      split
      · next call hcall =>
          split
          · next resumePackage resume hpoint =>
              intro j other hother
              by_cases hj : index = j
              · subst hj
                have hlt : index < s.calls.length := (List.getElem?_eq_some_iff.mp hcall).1
                simp only [ResumeState.moveTo] at hother
                rw [List.getElem?_set_self hlt] at hother
                cases hother
                trivial
              · simp only [ResumeState.moveTo] at hother
                rw [List.getElem?_set_ne hj] at hother
                refine (h j other hother).mono fun hbetween latest => resumeTaskRun_idleAt ?_
                intro request hrequest hid
                refine hbegins ⟨(call.taskId, some index), ?_, (other, j),
                  List.mem_zipIdx_iff_getElem?.mpr hother, by simpa using hj, hid.symm, hbetween⟩
                simp only [begins, hcall, Option.bind_eq_bind, Option.bind_some, hpoint]
                exact Option.map_eq_some_iff.mpr ⟨request, hrequest, rfl⟩
          · exact h
      · exact h

theorem CallsKept.safeRestore {restore : String × ResumePackage} (h : CallsKept s)
    (hrestore : s.restores? label = some restore) :
    SafeRestore s.world.store restore := by
  unfold restores? at hrestore
  split at hrestore
  · next index answers =>
      obtain ⟨call, hcall, hrestore⟩ := Option.bind_eq_some_iff.mp hrestore
      split at hrestore
      · next resumePackage resume hpoint =>
          split at hrestore
          · cases hrestore
            have hkept := h index call hcall
            simpa only [CallKept, hpoint] using hkept
          · cases hrestore
      · cases hrestore
  · cases hrestore

end

/-! ## Whole runs -/

/-- A service with no `resumeTask` call yet. -/
def ResumeState.start (w : World π) : ResumeState π where
  world := w

/-- In every interleaving in which no Run of a Task is begun while a resume of it is between
its reading and its restore, every restore finds the Task idle and at the checkpoint it
restores. -/
theorem restores_idle_workspace (bridges : Bridges π) (w : World π) (labels : List ResumeLabel)
    (h : ¬ Runs.Happened (step bridges) (.start w) labels BeginsUnderResume) :
    ¬ Runs.Happened (step bridges) (.start w) labels RestoresUnderRun := by
  refine Runs.not_happened (I := CallsKept) (fun s label hs hquiet => callsKept_step hs hquiet)
    ?_ ?_ h
  · rintro s label hs _ ⟨restore, hrestore, hunsafe⟩
    exact hunsafe (hs.safeRestore hrestore)
  · intro index call hcall
    cases hcall

def anchoredEnv (time : Char) : Env :=
  { stoppedEnv time with
    captureFileAnchor := fun workspacePath _ =>
      { baseCommit := "head"
        snapshotCommit := some "snapshot"
        worktreePath := workspacePath
        branch := "main"
        modifiedFiles := []
        recoverable := true } }

def restoreAnswers (time : Char) (runId : String) : ResumeAnswers where
  restoreFileAnchor _ := { status := .restored }
  auditEnv := anchoredEnv time
  runId
  beginEnv := anchoredEnv (Char.ofNat (time.toNat + 1))

/-- A single resume of an interrupted Task meets the condition, and restores. -/
theorem restores_idle_workspace_single :
    let labels : List ResumeLabel :=
      [.processor { env := anchoredEnv '1', op := .beginRun createRequest, keeps := by simp },
       .processor
        { env := anchoredEnv '2'
          op := .interruptRun "r" { reason := "stop", source := .user }
          keeps := by simp },
       .resumeTask "t", .gotTask 0 (.ok []) (anchoredEnv '3'), .loaded 0 (restoreAnswers '4' "r2")]
    Runs.Happened (step {}) (.start emptyWorld) labels
        (fun s label _ => (s.restores? label).isSome = true) ∧
      ¬ Runs.Happened (step {}) (.start emptyWorld) labels RestoresUnderRun :=
  ⟨by decide, restores_idle_workspace {} emptyWorld _ (by decide)⟩

/-! ## Two resumes of one Task -/

/-- A Task is begun and interrupted, and two resumes of it pass their checks before one of
them begins its Run. -/
def overlappingResumes : List ResumeLabel :=
  [.processor { env := anchoredEnv '1', op := .beginRun createRequest, keeps := by simp },
   .processor
    { env := anchoredEnv '2'
      op := .interruptRun "r" { reason := "stop", source := .user }
      keeps := by simp },
   .resumeTask "t", .resumeTask "t",
   .gotTask 0 (.ok []) (anchoredEnv '3'), .gotTask 1 (.ok []) (anchoredEnv '3'),
   .loaded 0 (restoreAnswers '4' "r2")]

instance (s t : ResumeState π) (label : ResumeLabel) : Decidable (RestoresUnderRun s label t) :=
  inferInstanceAs (Decidable (∃ restore ∈ s.restores? label, _))

/-- The other one then restores the workspace under that Run. -/
theorem restore_under_run :
    Runs.Happened (step {}) (.start emptyWorld)
      (overlappingResumes ++ [.loaded 1 (restoreAnswers '6' "r3")]) RestoresUnderRun :=
  .last (by decide)

end Newide
