import Newide.CoordinationState
import Newide.Foundation.Rows

/-!
# The coordination store

`src/persistence/sqlite-coordination-store.ts` over the tables `tasks`,
`runs`, `task_runtime_states`, `events` and `checkpoints`.  The rows of
one Task are kept together in a record, as its readers return them.

`commitState` is one transaction: every check of the code and every
constraint of the schema that can refuse it comes first, and what is
left is the total function `write`.  The constraints it keeps (primary
keys, `one_active_run_per_task`, unique event ids) are a field of
`CoordinationStore`, so every store has them.
-/

namespace Newide

open Fallible Rows

structure TaskRecord extends PersistedTaskAggregate where
  checkpoints : List PersistedFullCheckpoint

abbrev TaskRecord.aggregate (record : TaskRecord) : PersistedTaskAggregate :=
  record.toPersistedTaskAggregate

abbrev TaskRecord.taskId (record : TaskRecord) : String :=
  record.task.taskId

/-- The tables, and the last `events.sequence` handed out. -/
structure Tables where
  records : List TaskRecord := []
  lastSequence : Nat := 0

/-! ## Readers

A row written with an empty optional text column reads back without the
field; a checkpoint input that does not parse reads back absent. -/

def readTask (task : PersistedTaskState) : PersistedTaskState :=
  { task with
    parentId := truthy task.parentId
    ownerAgentId := truthy task.ownerAgentId
    roleId := truthy task.roleId }

def readRun (run : PersistedRunState) : PersistedRunState :=
  { run with
    sessionId := truthy run.sessionId
    restartedFromRunId := truthy run.restartedFromRunId
    startedAt := truthy run.startedAt
    completedAt := truthy run.completedAt }

def readRuntimeState (state : PersistedTaskRuntimeState) : PersistedTaskRuntimeState :=
  { state with currentRunId := truthy state.currentRunId }

def readEvent (event : Event) (sequence : Nat) : PersistedCoordinationEvent :=
  { event with runId := truthy event.runId, sequence }

def readCheckpoint (checkpoint : PersistedFullCheckpoint) : PersistedFullCheckpoint :=
  { checkpoint with
    parentCheckpointId := truthy checkpoint.parentCheckpointId
    sessionId := truthy checkpoint.sessionId
    councilStateRef := truthy checkpoint.councilStateRef
    cursorInput := checkpoint.cursorInput.bind fun input => swallow (parseTaskCursorInput input) }

/-- `ORDER BY created_at DESC, run_id DESC`: `a` may stand before `b`. -/
def runBefore (a b : PersistedRunState) : Prop :=
  b.createdAt < a.createdAt ∨ (a.createdAt = b.createdAt ∧ ¬ a.runId < b.runId)

instance : DecidableRel runBefore := fun _ _ => inferInstanceAs (Decidable (_ ∨ _))

/-- `ORDER BY updated_at DESC, task_id DESC`. -/
def taskBefore (a b : TaskRecord) : Prop :=
  b.task.updatedAt < a.task.updatedAt ∨
    (a.task.updatedAt = b.task.updatedAt ∧ ¬ a.task.taskId < b.task.taskId)

instance : DecidableRel taskBefore := fun _ _ => inferInstanceAs (Decidable (_ ∨ _))

/-- `ORDER BY created_at DESC, checkpoint_id DESC`: `a` is found before `b`. -/
def checkpointNewer (a b : PersistedFullCheckpoint) : Bool :=
  b.createdAt < a.createdAt ∨ (a.createdAt = b.createdAt ∧ b.checkpointId < a.checkpointId)

namespace Tables

def record? (tables : Tables) (taskId : String) : Option TaskRecord :=
  lookup TaskRecord.taskId taskId tables.records

def getTaskAggregate (tables : Tables) (taskId : String) : Option PersistedTaskAggregate :=
  (tables.record? taskId).map (·.aggregate)

def listTaskAggregates (tables : Tables) : List PersistedTaskAggregate :=
  (tables.records.insertionSort taskBefore).map (·.aggregate)

def getLatestCheckpoint (tables : Tables) (taskId : String) : Option PersistedFullCheckpoint :=
  (tables.record? taskId).bind fun record =>
    newest checkpointNewer
      (record.checkpoints.filter fun checkpoint => checkpoint.validityStatus = .valid)

/-- The `runs` table. -/
def runs (tables : Tables) : List PersistedRunState :=
  tables.records.flatMap (·.runs)

/-- The `events` table. -/
def events (tables : Tables) : List PersistedCoordinationEvent :=
  tables.records.flatMap (·.events)

/-- The `checkpoints` table. -/
def checkpoints (tables : Tables) : List PersistedFullCheckpoint :=
  tables.records.flatMap (·.checkpoints)

end Tables

/-! ## What may refuse a commit -/

def validateCursorInput (state : PersistedTaskRuntimeState) : Except Thrown Unit :=
  match state.cursorInput with
  | none => .ok ()
  | some input => do
      let cursorInput ← parseTaskCursorInput input
      ensure (cursorInput.cursor = state.resumeCursor)
        (.error "Runtime cursor input does not match resume cursor")

def validateEvent (input : CoordinationStateCommit) (event : Event) : Except Thrown Unit := do
  ensure (event.taskId = some input.task.taskId) (.error "Event belongs to another task")
  ensure (∀ runId ∈ truthy event.runId, ∀ run ∈ input.run, runId = run.runId)
    (.error "Event belongs to another run")

/-- The final artifact evidence a completed Task must carry. -/
def HasFinalEvidence (output : Option PersistedTaskFinalOutput) : Prop :=
  ∃ o ∈ output, o.artifactRef ≠ "" ∧ o.workspacePath ≠ "" ∧ isSha256 o.sha256 = true

instance (output : Option PersistedTaskFinalOutput) : Decidable (HasFinalEvidence output) :=
  inferInstanceAs (Decidable (∃ o ∈ output, _))

def validateCheckpoint (input : CoordinationStateCommit) : Except Thrown Unit :=
  match input.checkpoint with
  | none => .ok ()
  | some checkpoint => do
      ensure (checkpoint.taskId = input.task.taskId ∧
          ∀ run ∈ input.run, checkpoint.runId = run.runId)
        (.error "Checkpoint belongs to another task or run")
      ensure (∃ event ∈ input.events,
          event.eventType = "checkpoint.saved" ∧ event.subjectId = checkpoint.checkpointId)
        (.error "Checkpoint state commit requires checkpoint.saved event")

def validateCommit (input : CoordinationStateCommit) : Except Thrown Unit := do
  ensure (input.events.isEmpty = false) (.error "State commit requires at least one event")
  ensure (input.runtimeState.taskId = input.task.taskId)
    (.error "Runtime state belongs to another task")
  validateCursorInput input.runtimeState
  ensure (∀ run ∈ input.run, run.taskId = input.task.taskId) (.error "Run belongs to another task")
  input.events.forM (validateEvent input)
  ensure (input.task.status = .completed → HasFinalEvidence input.task.finalOutput)
    (.error "Completed task requires verifiable final artifact evidence")
  validateCheckpoint input

namespace Tables

/-- The refusals of `writeTask`. -/
def checkTask (tables : Tables) (input : CoordinationStateCommit) : Except Thrown Unit :=
  match tables.record? input.task.taskId with
  | none => do
      ensure (input.expectedTaskRevision = none)
        (.error ("Task " ++ input.task.taskId ++ " does not exist"))
      ensure (input.task.revision = 1)
        (.error ("New task " ++ input.task.taskId ++ " must start at revision 1"))
  | some current => do
      ensure (input.expectedTaskRevision = some current.task.revision)
        (.error ("Task " ++ input.task.taskId ++ " revision conflict: expected " ++
          (input.expectedTaskRevision.elim "undefined" toString) ++ ", current " ++
          toString current.task.revision))
      ensure (input.task.revision = current.task.revision + 1)
        (.error ("Task " ++ input.task.taskId ++ " revision must advance by one"))

/-- A new row starts at revision 1, an old one stays with its Task and moves on by one. -/
def checkRunRow (tables : Tables) (run : PersistedRunState) : Except Thrown Unit :=
  match lookup PersistedRunState.runId run.runId tables.runs with
  | none =>
      ensure (run.revision = 1) (.error ("New run " ++ run.runId ++ " must start at revision 1"))
  | some current => do
      ensure (current.taskId = run.taskId)
        (.error ("Run " ++ run.runId ++ " cannot change task ownership"))
      ensure (run.revision = current.revision + 1)
        (.error ("Run " ++ run.runId ++ " revision must advance by one"))

/-- The refusals of `writeRun`, with the foreign key of `restarted_from_run_id`. -/
def checkRun (tables : Tables) (run : PersistedRunState) : Except Thrown Unit := do
  ensure (isActiveRun run = true → ∀ other ∈ tables.runs,
      other.taskId = run.taskId → isActiveRun other = true → other.runId = run.runId)
    (.error ("Task " ++ run.taskId ++ " already has active run"))
  tables.checkRunRow run
  ensure (∀ source ∈ run.restartedFromRunId,
      source = run.runId ∨ ∃ other ∈ tables.runs, other.runId = source)
    (.error "FOREIGN KEY constraint failed")

def KnownRun (tables : Tables) (input : CoordinationStateCommit) (runId : String) : Prop :=
  (∃ run ∈ input.run, run.runId = runId) ∨ ∃ run ∈ tables.runs, run.runId = runId

instance (tables : Tables) (input : CoordinationStateCommit) (runId : String) :
    Decidable (tables.KnownRun input runId) :=
  inferInstanceAs (Decidable (_ ∨ _))

def checkCheckpoint (tables : Tables) (checkpoint : PersistedFullCheckpoint) :
    Except Thrown Unit := do
  ensure (∀ other ∈ tables.checkpoints, other.checkpointId ≠ checkpoint.checkpointId)
    (.error "UNIQUE constraint failed: checkpoints.checkpoint_id")
  ensure (∀ parent ∈ checkpoint.parentCheckpointId, parent = checkpoint.checkpointId ∨
      ∃ other ∈ tables.checkpoints, other.checkpointId = parent)
    (.error "FOREIGN KEY constraint failed")

def checkEvents (tables : Tables) (input : CoordinationStateCommit) : Except Thrown Unit := do
  ensure ((input.events.map (·.eventId)).Nodup ∧
      ∀ event ∈ input.events, ∀ old ∈ tables.events, old.eventId ≠ event.eventId)
    (.error "UNIQUE constraint failed: events.event_id")
  ensure (∀ event ∈ input.events, ∀ runId ∈ event.runId, tables.KnownRun input runId)
    (.error "FOREIGN KEY constraint failed")

/-! ## What a commit writes -/

/-- `events.sequence` is `AUTOINCREMENT`. -/
def numberEvents : Nat → List Event → List PersistedCoordinationEvent
  | _, [] => []
  | last, event :: rest => readEvent event (last + 1) :: numberEvents (last + 1) rest

end Tables

/-- Insert or update a row of `runs`, in the order the Task's Runs are read back. -/
def writeRun (runs : List PersistedRunState) (run : PersistedRunState) : List PersistedRunState :=
  let rows :=
    match lookup PersistedRunState.runId run.runId runs with
    | none => run :: runs
    | some _ => replace PersistedRunState.runId run runs
  rows.insertionSort runBefore

/-- The record after a commit to a Task that has the runs, events and checkpoints given. -/
def writeRecord (runs : List PersistedRunState) (events : List PersistedCoordinationEvent)
    (checkpoints : List PersistedFullCheckpoint) (input : CoordinationStateCommit)
    (lastSequence : Nat) : TaskRecord where
  task := readTask input.task
  runs :=
    match input.run with
    | none => runs
    | some run => writeRun runs (readRun run)
  runtimeState := readRuntimeState input.runtimeState
  events := events ++ Tables.numberEvents lastSequence input.events
  checkpoints := checkpoints ++ (input.checkpoint.map readCheckpoint).toList

def TaskRecord.write (record : TaskRecord) (input : CoordinationStateCommit)
    (lastSequence : Nat) : TaskRecord :=
  writeRecord record.runs record.events record.checkpoints input lastSequence

namespace Tables

def write (tables : Tables) (input : CoordinationStateCommit) : Tables where
  records :=
    match tables.record? input.task.taskId with
    | none => tables.records ++ [writeRecord [] [] [] input tables.lastSequence]
    | some record =>
        replace TaskRecord.taskId (record.write input tables.lastSequence) tables.records
  lastSequence := tables.lastSequence + input.events.length

/-- Everything that may refuse `input`. -/
def check (tables : Tables) (input : CoordinationStateCommit) : Except Thrown Unit := do
  validateCommit input
  tables.checkTask input
  input.run.toList.forM tables.checkRun
  ensure (∀ runId ∈ input.runtimeState.currentRunId, tables.KnownRun input runId)
    (.error "FOREIGN KEY constraint failed")
  input.checkpoint.toList.forM tables.checkCheckpoint
  tables.checkEvents input

/-! ## Deleting a Task -/

/-- `current_run_id … ON DELETE SET NULL`. -/
def forgetRuns (gone : List String) (record : TaskRecord) : TaskRecord :=
  { record with runtimeState :=
      { record.runtimeState with
        currentRunId := record.runtimeState.currentRunId.filter fun runId => runId ∉ gone } }

/-- `deleteTask` on these tables.  Deleting a Task that does not exist is silent; the
foreign keys `runs.restarted_from_run_id` and `events.run_id` have no `ON DELETE`
action, so a reference from another Task's row refuses the whole transaction. -/
def deleteTask (tables : Tables) (taskId : String) : Except Thrown Tables := do
  let gone := ((tables.record? taskId).elim [] (·.runs)).map (·.runId)
  let kept := tables.records.filter fun record => record.taskId ≠ taskId
  ensure (∀ record ∈ kept, ∀ run ∈ record.runs, ∀ source ∈ run.restartedFromRunId, source ∉ gone)
    (.error "FOREIGN KEY constraint failed")
  ensure (∀ record ∈ kept, ∀ event ∈ record.events, ∀ runId ∈ event.runId, runId ∉ gone)
    (.error "FOREIGN KEY constraint failed")
  return { tables with records := kept.map (forgetRuns gone) }

end Tables

end Newide
