import Mathlib.Data.List.Infix
import Newide.Core
import Newide.Foundation.Collation
import Newide.Foundation.Records
import Newide.Foundation.Runs

/-!
# Maintenance runs

`src/memory/services/maintenance-run-lifecycle.ts` and the two stores over
it.  A record of the store of files reads back as it was written; a call of
it is a few file operations, between which other calls and crashes fall.
-/

namespace Newide.Memory

open Fallible Collation Runs

/-! ## The lifecycle -/

inductive MaintenanceRunStatus where
  | running | completed | failed
deriving DecidableEq

/-- `COUNT_KEYS` -/
inductive CountKey where
  | claimed | completed | retried | deadLetter | skipped | failure
deriving DecidableEq

abbrev MaintenanceRunCounts := CountKey → Nat

def emptyMaintenanceRunCounts : MaintenanceRunCounts := fun _ => 0

abbrev MaintenanceRunAudit := Record String Json

structure MaintenanceRun where
  runId : String
  jobType : String
  status : MaintenanceRunStatus
  workerId : String
  startedAt : Timestamp
  finishedAt : Option Timestamp := none
  counts : MaintenanceRunCounts
  audit : Option MaintenanceRunAudit
  lastError : Option String := none

/-- The fields of an audit that is reported; one may be there and `undefined`. -/
abbrev AuditPatch := Record String (Option Json)

structure StartMaintenanceRunInput where
  runId : Option String := none
  jobType : String
  workerId : String
  audit : Option AuditPatch := none

structure FinishMaintenanceRunInput where
  counts : CountKey → Option Nat := fun _ => none
  lastError : Option String := none
  audit : Option AuditPatch := none

structure MaintenanceFailure where
  code : String
  message : String

def mergeMaintenanceRunCounts (base : MaintenanceRunCounts) (patch : CountKey → Option Nat) :
    MaintenanceRunCounts :=
  fun key => (patch key).getD (base key)

def mergeMaintenanceRunAudit (base : Option MaintenanceRunAudit) (patch : Option AuditPatch) :
    Option MaintenanceRunAudit :=
  let merged := ((base.getD []).mapValues fun _ => some).spread (patch.getD [])
  let present := merged.filterMap fun field => field.2.map (field.1, ·)
  if present.isEmpty then none else some present

/-- `createMaintenanceRun`; `newId` is what `createMaintenanceRunId` would return. -/
def createMaintenanceRun (newId : String) (input : StartMaintenanceRunInput) (now : Timestamp) :
    Except String MaintenanceRun := do
  ensure (input.workerId ≠ "") "Maintenance run requires a non-empty worker_id."
  return {
    runId := input.runId.getD newId
    jobType := input.jobType
    status := .running
    workerId := input.workerId
    startedAt := now
    counts := emptyMaintenanceRunCounts
    audit := mergeMaintenanceRunAudit none input.audit }

def isMaintenanceRunTerminal (status : MaintenanceRunStatus) : Bool := status ≠ .running

def settle (run : MaintenanceRun) (status : MaintenanceRunStatus)
    (result : FinishMaintenanceRunInput) (now : Timestamp) (lastError : Option String) :
    Option MaintenanceRun :=
  if isMaintenanceRunTerminal run.status then none
  else some {
    runId := run.runId
    jobType := run.jobType
    workerId := run.workerId
    startedAt := run.startedAt
    counts := mergeMaintenanceRunCounts run.counts result.counts
    audit := mergeMaintenanceRunAudit run.audit result.audit
    status
    finishedAt := some now
    lastError }

def completeMaintenanceRun (run : MaintenanceRun) (result : FinishMaintenanceRunInput)
    (now : Timestamp) : Option MaintenanceRun :=
  settle run .completed result now result.lastError

def failMaintenanceRun (run : MaintenanceRun) (error : MaintenanceFailure)
    (result : FinishMaintenanceRunInput) (now : Timestamp) : Option MaintenanceRun :=
  settle run .failed result now (some (error.code ++ ": " ++ error.message))

/-- How a run is concluded: by `finish`, or by `fail` with an error. -/
structure Settlement where
  error : Option MaintenanceFailure := none
  result : FinishMaintenanceRunInput := {}
  now : Timestamp

def Settlement.apply (settlement : Settlement) (run : MaintenanceRun) : Option MaintenanceRun :=
  match settlement.error with
  | none => completeMaintenanceRun run settlement.result settlement.now
  | some error => failMaintenanceRun run error settlement.result settlement.now

/-- What `next` keeps of the run it concludes, and what the conclusion reports. -/
structure Settles (settlement : Settlement) (run next : MaintenanceRun) : Prop where
  was : run.status = .running
  status : next.status = if settlement.error.isSome then .failed else .completed
  same : next.runId = run.runId ∧ next.jobType = run.jobType ∧ next.workerId = run.workerId ∧
    next.startedAt = run.startedAt
  finishedAt : next.finishedAt = some settlement.now
  counts : ∀ key, next.counts key = (settlement.result.counts key).getD (run.counts key)
  audit : next.audit = mergeMaintenanceRunAudit run.audit settlement.result.audit

theorem settle_eq_some {run next : MaintenanceRun} {status : MaintenanceRunStatus}
    {result : FinishMaintenanceRunInput} {now : Timestamp} {lastError : Option String}
    (h : settle run status result now lastError = some next) :
    run.status = .running ∧ next = { run with
      counts := mergeMaintenanceRunCounts run.counts result.counts
      audit := mergeMaintenanceRunAudit run.audit result.audit
      status
      finishedAt := some now
      lastError } := by
  unfold settle isMaintenanceRunTerminal at h
  split at h
  · cases h
  · rename_i hstatus
    exact ⟨by simpa using hstatus, (Option.some.inj h).symm⟩

theorem Settlement.apply_settles {settlement : Settlement} {run next : MaintenanceRun}
    (h : settlement.apply run = some next) : Settles settlement run next := by
  obtain ⟨error, result, now⟩ := settlement
  cases error with
  | none =>
      obtain ⟨hwas, rfl⟩ := settle_eq_some h
      exact ⟨hwas, rfl, ⟨rfl, rfl, rfl, rfl⟩, rfl, fun _ => rfl, rfl⟩
  | some error =>
      obtain ⟨hwas, rfl⟩ := settle_eq_some h
      exact ⟨hwas, rfl, ⟨rfl, rfl, rfl, rfl⟩, rfl, fun _ => rfl, rfl⟩

theorem Settles.terminal {settlement : Settlement} {run next : MaintenanceRun}
    (h : Settles settlement run next) : next.status ≠ .running := by
  rw [h.status]
  split <;> simp

/-! ## The store of files -/

def isSafeRunId (runId : String) : Bool :=
  runId ≠ "" ∧ '/' ∉ runId.toList ∧ '\\' ∉ runId.toList ∧ ¬ ['.', '.'] <:+: runId.toList

/-- `FileMaintenanceRunStore`, and what its calls are in the middle of. -/
structure MaintenanceFiles where
  /-- The file of an id; one that does not read as a run holds none. -/
  file : String → Option (Option MaintenanceRun) := fun _ => none
  /-- The file is created and not yet written. -/
  opening : String → Option MaintenanceRun := fun _ => none
  /-- The process that settles the id holds its lock; what is about to be written. -/
  settling : String → Option MaintenanceRun := fun _ => none

inductive FileStep where
  /-- `open(path, 'wx')` -/
  | opens (newId : String) (input : StartMaintenanceRunInput) (now : Timestamp)
  | writes (runId : String)
  | reads (runId : String) (settlement : Settlement)
  /-- `rename(tmpPath, filePath)` -/
  | replaces (runId : String)
  /-- The rename throws and the file is unlinked for another one. -/
  | renameFails (runId : String)
  /-- The process in the middle of the id is gone. -/
  | crashes (runId : String)

/-- The step that concludes a run: `finish` and `fail` answer with a run only after it. -/
def FileStep.concludes (id : String) : FileStep → Bool
  | .replaces runId => runId = id
  | _ => false

namespace MaintenanceFiles

variable {files after : MaintenanceFiles} {runId id : String} {step : FileStep}

/-- `readRun` -/
def run? (files : MaintenanceFiles) (runId : String) : Option MaintenanceRun :=
  (files.file runId).join

/-- One file operation of a call, if it comes to it. -/
def next (files : MaintenanceFiles) : FileStep → Option MaintenanceFiles
  | .opens newId input now =>
      match createMaintenanceRun newId input now with
      | .ok run =>
          if isSafeRunId run.runId ∧ (files.file run.runId).isNone then
            some { files with
              file := Function.update files.file run.runId (some none)
              opening := Function.update files.opening run.runId (some run) }
          else none
      | .error _ => none
  | .writes runId => (files.opening runId).map fun run => { files with
      file := Function.update files.file runId (some (some run))
      opening := Function.update files.opening runId none }
  | .reads runId settlement =>
      if isSafeRunId runId ∧ (files.settling runId).isNone then
        ((files.run? runId).bind settlement.apply).map fun next => { files with
          settling := Function.update files.settling runId (some next) }
      else none
  | .replaces runId => (files.settling runId).map fun next => { files with
      file := Function.update files.file runId (some (some next))
      settling := Function.update files.settling runId none }
  | .renameFails runId => (files.settling runId).map fun _ => { files with
      file := Function.update files.file runId none }
  | .crashes runId => some { files with
      opening := Function.update files.opening runId none
      settling := Function.update files.settling runId none }

/-- The steps of any calls, of any number of processes, one after the other. -/
abbrev Run (files : MaintenanceFiles) (steps : List FileStep) (after : MaintenanceFiles) : Prop :=
  Steps (fun files step after => files.next step = some after) files steps after

structure Idle (files : MaintenanceFiles) : Prop where
  opening : ∀ runId, files.opening runId = none
  settling : ∀ runId, files.settling runId = none

/-- What a call in the middle of an id relies on. -/
structure Sound (files : MaintenanceFiles) (id : String) : Prop where
  opening : ∀ run, files.opening id = some run → files.file id = some none
  settling : ∀ next, files.settling id = some next → ∃ run settlement,
    files.file id = some (some run) ∧ Settles settlement run next

/-- What one step does to the file of an id. -/
inductive Moves : Option (Option MaintenanceRun) → Option (Option MaintenanceRun) → Prop where
  | stays (file) : Moves file file
  | opens : Moves none (some none)
  | writes (run) : Moves (some none) (some (some run))
  | settles {run next settlement} (h : Settles settlement run next) :
      Moves (some (some run)) (some (some next))

theorem Idle.sound (h : files.Idle) (id : String) : files.Sound id where
  opening run hrun := by
    rw [h.opening] at hrun
    cases hrun
  settling run hrun := by
    rw [h.settling] at hrun
    cases hrun

theorem Sound.of_same (h : files.Sound id) (hfile : after.file id = files.file id)
    (hopening : after.opening id = files.opening id)
    (hsettling : after.settling id = files.settling id) :
    after.Sound id ∧ Moves (files.file id) (after.file id) := by
  rw [hfile]
  refine ⟨⟨fun run hrun => ?_, fun next hnext => ?_⟩, .stays _⟩
  · rw [hfile]
    exact h.opening run (hopening ▸ hrun)
  · rw [hfile]
    exact h.settling next (hsettling ▸ hnext)

theorem next_moves (h : files.Sound id) (hnext : files.next step = some after)
    (hkept : step ≠ .renameFails id) :
    after.Sound id ∧ Moves (files.file id) (after.file id) := by
  cases step with
  | opens newId input now =>
      simp only [next] at hnext
      split at hnext
      · rename_i run _
        split at hnext
        · rename_i hfree
          obtain rfl := Option.some.inj hnext
          by_cases hid : id = run.runId
          · subst hid
            have hnone : files.file run.runId = none := Option.isNone_iff_eq_none.mp hfree.2
            refine ⟨⟨fun _ _ => by simp, fun next hsettling => ?_⟩, ?_⟩
            · obtain ⟨_, _, hfile, _⟩ := h.settling next hsettling
              rw [hnone] at hfile
              cases hfile
            · rw [hnone]
              simpa using Moves.opens
          · exact h.of_same (by simp [hid]) (by simp [hid]) rfl
        · cases hnext
      · cases hnext
  | writes runId =>
      obtain ⟨run, hopening, rfl⟩ := Option.map_eq_some_iff.mp hnext
      by_cases hid : id = runId
      · subst hid
        have hfile := h.opening run hopening
        refine ⟨⟨fun _ hrun => ?_, fun next hsettling => ?_⟩, ?_⟩
        · simp at hrun
        · obtain ⟨_, _, hother, _⟩ := h.settling next hsettling
          rw [hfile] at hother
          cases hother
        · rw [hfile]
          simpa using Moves.writes run
      · exact h.of_same (by simp [hid]) (by simp [hid]) rfl
  | reads runId settlement =>
      simp only [next] at hnext
      split at hnext
      · obtain ⟨next, happly, rfl⟩ := Option.map_eq_some_iff.mp hnext
        by_cases hid : id = runId
        · subst hid
          obtain ⟨run, hrun, hsettles⟩ := Option.bind_eq_some_iff.mp happly
          refine ⟨⟨h.opening, fun other hother => ?_⟩, .stays _⟩
          obtain rfl : next = other := by simpa using hother
          exact ⟨run, settlement, Option.join_eq_some_iff.mp hrun,
            settlement.apply_settles hsettles⟩
        · exact h.of_same rfl rfl (by simp [hid])
      · cases hnext
  | replaces runId =>
      obtain ⟨next, hsettling, rfl⟩ := Option.map_eq_some_iff.mp hnext
      by_cases hid : id = runId
      · subst hid
        obtain ⟨run, settlement, hfile, hsettles⟩ := h.settling next hsettling
        refine ⟨⟨fun run' hrun => ?_, fun other hother => ?_⟩, ?_⟩
        · have hopen := h.opening run' hrun
          rw [hfile] at hopen
          cases hopen
        · simp at hother
        · rw [hfile]
          simpa using Moves.settles hsettles
      · exact h.of_same (by simp [hid]) rfl (by simp [hid])
  | renameFails runId =>
      obtain ⟨next, hsettling, rfl⟩ := Option.map_eq_some_iff.mp hnext
      have hid : id ≠ runId := fun hid => hkept (hid ▸ rfl)
      exact h.of_same (by simp [hid]) rfl rfl
  | crashes runId =>
      obtain rfl := Option.some.inj hnext
      by_cases hid : id = runId
      · subst hid
        exact ⟨⟨by simp, by simp⟩, .stays _⟩
      · exact h.of_same rfl (by simp [hid]) (by simp [hid])

theorem Moves.run? {f f' : Option (Option MaintenanceRun)} {run : MaintenanceRun} (h : Moves f f')
    (hrun : f.join = some run) :
    f'.join = some run ∨ ∃ settlement next, f'.join = some next ∧ Settles settlement run next := by
  cases h with
  | stays => exact .inl hrun
  | opens => cases hrun
  | writes => cases hrun
  | settles hsettles =>
      obtain rfl := Option.some.inj hrun
      exact .inr ⟨_, _, rfl, hsettles⟩

theorem concludes_settles (h : files.Sound id) (hnext : files.next step = some after)
    (hstep : step.concludes id = true) :
    ∃ run settlement next, files.run? id = some run ∧ after.run? id = some next ∧
      Settles settlement run next := by
  cases step with
  | replaces runId =>
      obtain rfl : runId = id := by simpa [FileStep.concludes] using hstep
      obtain ⟨next, hsettling, rfl⟩ := Option.map_eq_some_iff.mp hnext
      obtain ⟨run, settlement, hfile, hsettles⟩ := h.settling next hsettling
      exact ⟨run, settlement, next, by simp [MaintenanceFiles.run?, hfile],
        by simp [MaintenanceFiles.run?], hsettles⟩
  | _ => cases hstep

/-- What holds of an id after the steps so far: it is concluded once, and then for good. -/
structure Concluded (id : String) (steps : List FileStep) (files : MaintenanceFiles) : Prop where
  sound : files.Sound id
  once : steps.countP (FileStep.concludes id) ≤ 1
  terminal : steps.countP (FileStep.concludes id) ≠ 0 →
    ∃ run, files.run? id = some run ∧ run.status ≠ .running

theorem concluded_run {steps : List FileStep} (h : files.Run steps after) (hsound : files.Sound id)
    (hkept : .renameFails id ∉ steps) : Concluded id steps after := by
  revert hkept
  refine Steps.invariant_history (I := fun steps after =>
    .renameFails id ∉ steps → Concluded id steps after) (fun _ => ⟨hsound, by simp, by simp⟩)
    (fun past s step t ih hnext hkept => ?_) h
  obtain ⟨hpast, hstep⟩ : .renameFails id ∉ past ∧ step ≠ .renameFails id := by
    simpa [eq_comm] using hkept
  obtain ⟨hs, honce, hterminal⟩ := ih hpast
  obtain ⟨ht, hmoves⟩ := next_moves hs hnext hstep
  by_cases hconcludes : step.concludes id = true
  · obtain ⟨run, settlement, next, hrun, hafter, hsettles⟩ := concludes_settles hs hnext hconcludes
    have hzero : past.countP (FileStep.concludes id) = 0 := by
      by_contra hne
      obtain ⟨other, hother, hstatus⟩ := hterminal hne
      obtain rfl := Option.some.inj (hrun.symm.trans hother)
      exact hstatus hsettles.was
    exact ⟨ht, by simp [List.countP_append, hzero, hconcludes],
      fun _ => ⟨next, hafter, hsettles.terminal⟩⟩
  · have hcount : (past ++ [step]).countP (FileStep.concludes id) =
        past.countP (FileStep.concludes id) := by
      simp [List.countP_append, hconcludes]
    refine ⟨ht, hcount ▸ honce, fun hne => ?_⟩
    obtain ⟨run, hrun, hstatus⟩ := hterminal (hcount ▸ hne)
    rcases hmoves.run? hrun with hsame | ⟨_, _, _, hsettles⟩
    · exact ⟨run, hsame, hstatus⟩
    · exact absurd hsettles.was hstatus

theorem kept_run {steps : List FileStep} {run : MaintenanceRun} (h : files.Run steps after)
    (hsound : files.Sound id) (hkept : .renameFails id ∉ steps) (hrun : files.run? id = some run) :
    after.run? id = some run ∨
      ∃ settlement next, after.run? id = some next ∧ Settles settlement run next := by
  revert hkept
  refine (Steps.invariant_history (I := fun steps after => .renameFails id ∉ steps →
    after.Sound id ∧ (after.run? id = some run ∨
      ∃ settlement next, after.run? id = some next ∧ Settles settlement run next))
    (fun _ => ⟨hsound, .inl hrun⟩) (fun past s step t ih hnext hkept => ?_) h · |>.2)
  obtain ⟨hpast, hstep⟩ : .renameFails id ∉ past ∧ step ≠ .renameFails id := by
    simpa [eq_comm] using hkept
  obtain ⟨hs, hcase⟩ := ih hpast
  obtain ⟨ht, hmoves⟩ := next_moves hs hnext hstep
  refine ⟨ht, ?_⟩
  rcases hcase with hsame | ⟨settlement, next, hafter, hsettles⟩
  · exact hmoves.run? hsame
  · rcases hmoves.run? hafter with hstays | ⟨_, _, _, hagain⟩
    · exact .inr ⟨settlement, next, hstays, hsettles⟩
    · exact absurd hagain.was hsettles.terminal

/-- The steps of a start, and those of a `finish` that a crash follows. -/
def startSteps : List FileStep := [.opens "" ⟨some "run", "job", "worker", none⟩ "0", .writes "run"]

def finishSteps : List FileStep := [.reads "run" { now := "1" }, .replaces "run", .crashes "run"]

end MaintenanceFiles

/-! ## Both stores -/

inductive MaintenanceCall where
  | start (newId : String) (input : StartMaintenanceRunInput) (now : Timestamp)
  | settle (runId : String) (settlement : Settlement)
  | get (runId : String)

def MaintenanceCall.runId : MaintenanceCall → String
  | .start newId input _ => input.runId.getD newId
  | .settle runId _ => runId
  | .get runId => runId

/-- What a call answers, when it does not throw. -/
abbrev MaintenanceAnswer := Except String (Option MaintenanceRun)

/-- `InMemoryMaintenanceRunStore.runs` -/
abbrev MemoryRuns := Record String MaintenanceRun

/-- A call of `InMemoryMaintenanceRunStore`. -/
def MemoryRuns.call (runs : MemoryRuns) : MaintenanceCall → MaintenanceAnswer × MemoryRuns
  | .start newId input now =>
      match createMaintenanceRun newId input now with
      | .error e => (.error e, runs)
      | .ok run =>
          if (runs.get run.runId).isSome then
            (.error ("Maintenance run already exists: " ++ run.runId), runs)
          else (.ok (some run), runs.set run.runId run)
  | .settle runId settlement =>
      match (runs.get runId).bind settlement.apply with
      | none => (.ok none, runs)
      | some next => (.ok (some next), runs.set runId next)
  | .get runId => (.ok (runs.get runId), runs)

/-- A call of `FileMaintenanceRunStore` that nothing comes in between of. -/
def MaintenanceFiles.call (files : MaintenanceFiles) (call : MaintenanceCall) :
    MaintenanceAnswer × MaintenanceFiles :=
  let invalid := .error ("Invalid maintenance run id: " ++ call.runId)
  match call with
  | .start newId input now =>
      match createMaintenanceRun newId input now with
      | .error e => (.error e, files)
      | .ok run =>
          if isSafeRunId run.runId then
            match exec MaintenanceFiles.next files [.opens newId input now, .writes run.runId] with
            | some after => (.ok (some run), after)
            | none => (.error ("Maintenance run already exists: " ++ run.runId), files)
          else (invalid, files)
  | .settle runId settlement =>
      if isSafeRunId runId then
        match exec MaintenanceFiles.next files [.reads runId settlement, .replaces runId] with
        | some after => (.ok (after.run? runId), after)
        | none => (.ok none, files)
      else (invalid, files)
  | .get runId => if isSafeRunId runId then (.ok (files.run? runId), files) else (invalid, files)

/-- Both stores hold the same runs, and no call is under way. -/
structure SameRuns (runs : MemoryRuns) (files : MaintenanceFiles) : Prop where
  distinct : runs.Distinct
  file : ∀ runId, files.file runId = (runs.get runId).map some
  own : ∀ runId run, runs.get runId = some run → run.runId = runId
  idle : files.Idle

theorem SameRuns.empty : SameRuns [] {} where
  distinct := List.nodup_nil
  file _ := rfl
  own _ _ h := by cases h
  idle := ⟨fun _ => rfl, fun _ => rfl⟩

variable {runs : MemoryRuns} {files : MaintenanceFiles}

theorem createMaintenanceRun_runId {newId : String} {input : StartMaintenanceRunInput}
    {now : Timestamp} {run : MaintenanceRun} (h : createMaintenanceRun newId input now = .ok run) :
    run.runId = input.runId.getD newId := by
  unfold createMaintenanceRun at h
  obtain ⟨_, _, h⟩ := bind_eq_ok.mp h
  cases h
  rfl

theorem SameRuns.run? (h : SameRuns runs files) (runId : String) :
    files.run? runId = runs.get runId := by
  unfold MaintenanceFiles.run?
  rw [h.file]
  cases runs.get runId <;> rfl

theorem SameRuns.set (h : SameRuns runs files) {run : MaintenanceRun} {after : MaintenanceFiles}
    (hfile : after.file = Function.update files.file run.runId (some (some run)))
    (hidle : after.Idle) : SameRuns (runs.set run.runId run) after where
  distinct := h.distinct.set _ _
  file runId := by
    rw [hfile, Record.get_set h.distinct]
    by_cases hid : runId = run.runId
    · subst hid
      simp
    · rw [Function.update_of_ne hid, h.file, if_neg hid]
  own runId other hother := by
    rw [Record.get_set h.distinct] at hother
    split at hother
    · rename_i hid
      obtain rfl := Option.some.inj hother
      exact hid.symm
    · exact h.own runId other hother
  idle := hidle

theorem SameRuns.call {call : MaintenanceCall} (h : SameRuns runs files)
    (hsafe : isSafeRunId call.runId = true) :
    (files.call call).1 = (runs.call call).1 ∧ SameRuns (runs.call call).2 (files.call call).2 := by
  cases call with
  | start newId input now =>
      simp only [MemoryRuns.call, MaintenanceFiles.call]
      cases hcreate : createMaintenanceRun newId input now with
      | error e => exact ⟨rfl, h⟩
      | ok run =>
          have hrun : isSafeRunId run.runId = true := createMaintenanceRun_runId hcreate ▸ hsafe
          simp only [exec, MaintenanceFiles.next, hcreate, hrun, h.file]
          cases hget : runs.get run.runId with
          | some other => simpa using h
          | none =>
              simp only [Option.map_none, Option.isNone_none, and_self, if_true, Option.bind_some,
                Function.update_self, Option.map_some, Option.isSome_none, Bool.false_eq_true,
                if_false, true_and]
              exact h.set (by simp) ⟨fun id => by
                by_cases hid : id = run.runId <;> simp [hid, h.idle.opening], h.idle.settling⟩
  | settle runId settlement =>
      have hrun : isSafeRunId runId = true := hsafe
      simp only [MemoryRuns.call, MaintenanceFiles.call, exec, MaintenanceFiles.next, hrun,
        h.idle.settling, h.run?, Option.isNone_none, and_self, if_true]
      cases happly : (runs.get runId).bind settlement.apply with
      | none => exact ⟨rfl, h⟩
      | some next =>
          obtain ⟨run, hget, hsettles⟩ := Option.bind_eq_some_iff.mp happly
          obtain rfl : next.runId = runId :=
            (settlement.apply_settles hsettles).same.1.trans (h.own _ _ hget)
          simp only [Option.map_some, Option.bind_some, Function.update_self,
            MaintenanceFiles.run?, Option.join_some, true_and]
          exact h.set (by simp) ⟨h.idle.opening, fun id => by
            by_cases hid : id = next.runId <;> simp [hid, h.idle.settling]⟩
  | get runId =>
      have hrun : isSafeRunId runId = true := hsafe
      simp only [MemoryRuns.call, MaintenanceFiles.call, hrun, if_true, h.run?, true_and]
      exact h

/-! ## Listing -/

structure MaintenanceRunQuery where
  jobType : Option String := none
  status : Option MaintenanceRunStatus := none
  workerId : Option String := none
  limit : Option Rat := none

def MaintenanceRunQuery.admits (query : MaintenanceRunQuery) (run : MaintenanceRun) : Bool :=
  (∀ jobType ∈ query.jobType, run.jobType = jobType) ∧
    (∀ status ∈ query.status, run.status = status) ∧
    ∀ workerId ∈ query.workerId, run.workerId = workerId

def compareMaintenanceRuns (localeCompare : String → String → Ordering) :
    MaintenanceRun → MaintenanceRun → Ordering :=
  compareLex (compareOn MaintenanceRun.startedAt) fun a b => localeCompare a.runId b.runId

def applyMaintenanceRunLimit (runs : List MaintenanceRun) (limit : Option Rat) :
    Except String (List MaintenanceRun) :=
  match limit with
  | none => .ok runs
  | some limit =>
      if limit.isInt ∧ 0 ≤ limit then .ok (runs.drop (runs.length - limit.num.toNat))
      else .error "Maintenance run query limit must be a non-negative integer."

def selectMaintenanceRuns (localeCompare : String → String → Ordering)
    (runs : List MaintenanceRun) (query : MaintenanceRunQuery) :
    Except String (List MaintenanceRun) :=
  applyMaintenanceRunLimit
    (sortOn (compareMaintenanceRuns localeCompare) id (runs.filter query.admits)) query.limit

/-- `readdir(root)` lists the ids that have a file, in some order. -/
structure Lists (files : MaintenanceFiles) (entries : List String) : Prop where
  nodup : entries.Nodup
  mem : ∀ runId, runId ∈ entries ↔ (files.file runId).isSome

def MemoryRuns.list (localeCompare : String → String → Ordering) (runs : MemoryRuns) :
    MaintenanceRunQuery → Except String (List MaintenanceRun) :=
  selectMaintenanceRuns localeCompare (runs.map Prod.snd)

/-- `list` over the entries that `readdir` has answered, sorted. -/
def MaintenanceFiles.list (localeCompare : String → String → Ordering) (files : MaintenanceFiles)
    (entries : List String) : MaintenanceRunQuery → Except String (List MaintenanceRun) :=
  selectMaintenanceRuns localeCompare (entries.filterMap files.run?)

variable {localeCompare : String → String → Ordering}

theorem SameRuns.perm (h : SameRuns runs files) {entries : List String}
    (hlists : Lists files entries) : (entries.filterMap files.run?).Perm (runs.map Prod.snd) := by
  have hmem (runId : String) (run : MaintenanceRun) :
      files.run? runId = some run ↔ (runId, run) ∈ runs := by
    rw [h.run?]
    exact ⟨Record.get_eq_some_mem, h.distinct.get_of_mem⟩
  refine (List.perm_ext_iff_of_nodup ?_ ?_).mpr fun run => ?_
  · refine hlists.nodup.filterMap fun a b run ha hb => ?_
    rw [h.run?] at ha hb
    exact (h.own a run ha).symm.trans (h.own b run hb)
  · refine List.Nodup.map_on (fun a ha b hb heq => ?_) (List.Nodup.of_map _ h.distinct)
    refine Prod.ext ?_ heq
    rw [← h.own a.1 a.2 (h.distinct.get_of_mem ha), heq, h.own b.1 b.2 (h.distinct.get_of_mem hb)]
  · rw [List.mem_filterMap, List.mem_map]
    constructor
    · rintro ⟨runId, _, hrun⟩
      exact ⟨(runId, run), (hmem _ _).mp hrun, rfl⟩
    · rintro ⟨⟨runId, _⟩, hmem', rfl⟩
      refine ⟨runId, (hlists.mem runId).mpr ?_, (hmem _ _).mpr hmem'⟩
      rw [h.file, h.distinct.get_of_mem hmem']
      rfl

theorem SameRuns.list [Std.TransCmp localeCompare] (h : SameRuns runs files)
    {entries : List String} (hlists : Lists files entries)
    (hapart : ∀ a ∈ runs, ∀ b ∈ runs, localeCompare a.1 b.1 = .eq → a.1 = b.1)
    (query : MaintenanceRunQuery) :
    files.list localeCompare entries query = runs.list localeCompare query := by
  have : Std.TransCmp fun a b : MaintenanceRun => localeCompare a.runId b.runId :=
    { eq_swap := Std.OrientedCmp.eq_swap, isLE_trans := Std.TransCmp.isLE_trans }
  have : Std.TransCmp (compareMaintenanceRuns localeCompare) :=
    inferInstanceAs (Std.TransCmp (compareLex _ _))
  have hperm := h.perm hlists
  unfold MaintenanceFiles.list MemoryRuns.list selectMaintenanceRuns
  have hsorted : sortOn (compareMaintenanceRuns localeCompare) id
      ((entries.filterMap files.run?).filter query.admits) =
        sortOn (compareMaintenanceRuns localeCompare) id
          ((runs.map Prod.snd).filter query.admits) :=
    sortOn_congr (fun a ha b hb heq => ?_) (hperm.filter _)
  · rw [hsorted]
  obtain ⟨⟨i, _⟩, hi, rfl⟩ := List.mem_map.mp (hperm.mem_iff.mp (List.mem_of_mem_filter ha))
  obtain ⟨⟨j, _⟩, hj, rfl⟩ := List.mem_map.mp (hperm.mem_iff.mp (List.mem_of_mem_filter hb))
  have higet := h.distinct.get_of_mem hi
  have hjget := h.distinct.get_of_mem hj
  have hids : localeCompare i j = .eq := by
    simpa only [id, h.own i _ higet, h.own j _ hjget] using (Ordering.then_eq_eq.mp heq).2
  obtain rfl : i = j := hapart _ hi _ hj hids
  exact Option.some.inj (higet.symm.trans hjget)

/-- What a store answers to calls made one after the other, and where they leave it. -/
def answers {σ : Type} (call : σ → MaintenanceCall → MaintenanceAnswer × σ) (s : σ) :
    List MaintenanceCall → List MaintenanceAnswer × σ
  | [] => ([], s)
  | first :: calls =>
      let (answer, t) := call s first
      let (rest, u) := answers call t calls
      (answer :: rest, u)

def concludedTwice : List MaintenanceCall :=
  [.start "" ⟨some "run", "job", "worker", none⟩ "0",
    .settle "run" { now := "1" }, .settle "run" { now := "2" }]

end Newide.Memory
