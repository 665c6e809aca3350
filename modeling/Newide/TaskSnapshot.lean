import Mathlib.Data.List.Sort
import Newide.Checkpoint

/-!
# Projecting a Task to its snapshot

Every operation ends by reading the Task back through
`projectAggregate`, which parses what it built with two zod schemas and
so can throw after the commit.  The model builds the parts of a snapshot
that carry task, run, error and output facts, and makes every check of
the two schemas that a stored row can fail; market evidence, timelines
and the other display fields always pass and are left out.  Run
timestamps are ISO-8601 text, for which `localeCompare` is the code
point order.
-/

namespace Newide

open Fallible Json

/-! ## Evidence read from events -/

def Json.get? (value : Json) (key : String) : Option Json :=
  match value with
  | .obj fields => Payload.get? fields key
  | _ => none

/-- `z.array(z.string())`. -/
def Json.isStringArray : Json → Bool
  | .arr items => items.all fun item => item.string?.isSome
  | _ => false

/-- `z.array(z.string().min(1))`. -/
def Json.isNonEmptyStringArray : Json → Bool
  | .arr items => items.all fun item => item.nonEmptyString?.isSome
  | _ => false

/-- A strict zod object has no key outside `keys`. -/
def Json.hasOnly (value : Json) (keys : List String) : Bool :=
  match value with
  | .obj fields => fields.all fun field => field.1 ∈ keys
  | _ => false

/-- `asRecord`. -/
def Json.record? : Json → Option Payload
  | .obj fields => some fields
  | _ => none

def asRecords : Option Json → List Payload
  | some (.arr items) => items.filterMap record?
  | _ => []

def stringArray : Option Json → List String
  | some (.arr items) => items.filterMap string?
  | _ => []

def lastEvent (events : List PersistedCoordinationEvent) (eventType : String) :
    Option PersistedCoordinationEvent :=
  events.reverse.find? fun event => event.eventType = eventType

def runOutcomeStatuses : List String :=
  ["completed", "verified", "best_effort", "failed", "blocked", "cancelled"]

/-- The outcome record that `asRunOutcome` lets through. -/
def asRunOutcome (value : Option Json) : Option Json :=
  value.filter fun outcome =>
    ((outcome.get? "status").bind string?).any (· ∈ runOutcomeStatuses) &&
      ((outcome.get? "reason").bind string?).isSome &&
      ["criteria", "gate_result_refs", "artifact_refs"].all fun key =>
        match outcome.get? key with
        | some (.arr _) => true
        | _ => false

def isOutcomeCriterion (criterion : Json) : Bool :=
  criterion.hasOnly ["criterion_id", "description", "status", "gate_result_refs", "audit_refs"] &&
    ((criterion.get? "criterion_id").bind nonEmptyString?).isSome &&
    ((criterion.get? "description").bind nonEmptyString?).isSome &&
    ((criterion.get? "status").bind string?).any
      (· ∈ ["satisfied", "failed", "unverified"]) &&
    (criterion.get? "gate_result_refs").any isStringArray &&
    (criterion.get? "audit_refs").any isStringArray

/-- `runOutcomeSchema` on what `asRunOutcome` let through. -/
def isRunOutcome (outcome : Json) : Bool :=
  outcome.hasOnly ["status", "reason", "criteria", "gate_result_refs", "artifact_refs"] &&
    ((outcome.get? "status").bind string?).any (· ∈ runOutcomeStatuses) &&
    ((outcome.get? "reason").bind nonEmptyString?).isSome &&
    (match outcome.get? "criteria" with
    | some (.arr criteria) => criteria.all isOutcomeCriterion
    | _ => false) &&
    (outcome.get? "gate_result_refs").any isStringArray &&
    (outcome.get? "artifact_refs").any isStringArray

structure CouncilResultEvidence where
  finalArtifactRef : String
  finalArtifactSha256 : String
  warnings : List String

/-- The checks of `councilResultEvidenceSchema` apart from the fields that are kept. -/
def isCouncilResult (result : Json) : Bool :=
  result.hasOnly ["role_failure_count", "fallback_used", "quality", "final_artifact_ref",
    "final_artifact_sha256", "warnings", "unmet_criteria", "verification_refs",
    "decision_record_ref"] &&
  (match result.get? "role_failure_count" with
  | none => true
  | some (.num count) => 0 ≤ count
  | some _ => false) &&
  (match result.get? "fallback_used" with
  | none => true
  | some (.bool _) => true
  | some _ => false) &&
  ((result.get? "quality").bind string?).any (· ∈ ["verified", "best_effort"]) &&
  (result.get? "unmet_criteria").any isStringArray &&
  (result.get? "verification_refs").any isNonEmptyStringArray &&
  ((result.get? "decision_record_ref").bind nonEmptyString?).isSome

/-- `councilResultEvidenceSchema.safeParse`. -/
def parseCouncilResult (value : Option Json) : Option CouncilResultEvidence := do
  let result ← value
  let finalArtifactRef ← (result.get? "final_artifact_ref").bind nonEmptyString?
  let finalArtifactSha256 ← (result.get? "final_artifact_sha256").bind string?
  let warnings ← result.get? "warnings"
  if isCouncilResult result ∧ isSha256 finalArtifactSha256 ∧ warnings.isStringArray then
    some { finalArtifactRef, finalArtifactSha256, warnings := stringArray (some warnings) }
  else none

/-! ## The snapshot of one Run -/

/-- What `runSnapshotSchema` asks of an event in the timeline. -/
def TimelineEvent (event : PersistedCoordinationEvent) : Prop :=
  event.eventId ≠ "" ∧ event.eventType ≠ "" ∧ event.createdAt ≠ ""

instance (event : PersistedCoordinationEvent) : Decidable (TimelineEvent event) :=
  inferInstanceAs (Decidable (_ ∧ _))

def PersistedTaskAggregate.runEvents (aggregate : PersistedTaskAggregate) (runId : String) :
    List PersistedCoordinationEvent :=
  aggregate.events.filter fun event => event.runId = some runId

def projectRunFinalOutput (events : List PersistedCoordinationEvent) : RunFinalOutput :=
  let payloadOf (eventType : String) : Payload := (lastEvent events eventType).elim [] (·.payload)
  let deliveredFiles := asRecords ((payloadOf "artifact.delivered").get? "files")
  let deliveredRefs := deliveredFiles.filterMap fun file =>
    (Payload.get? file "artifact_ref").bind string?
  let councilRefs := stringArray ((payloadOf "council.completed").get? "selected_artifact_refs")
  let agentRefs := stringArray ((payloadOf "agent.execution_completed").get? "artifact_refs")
  { artifactRefs := appendUnique []
      (if deliveredRefs ≠ [] then deliveredRefs
        else if councilRefs ≠ [] then councilRefs else agentRefs)
    filesWritten := deliveredFiles.filterMap fun file =>
      (Payload.get? file "file_path").bind string? }

/-- The checks of `runSnapshotSchema` that a stored row can fail. -/
def checkRunSnapshot (aggregate : PersistedTaskAggregate) (run : PersistedRunState) :
    Except Thrown Unit := do
  let events := aggregate.runEvents run.runId
  let quality := asRunOutcome
    ((lastEvent events "completion.evaluated").bind fun event => event.payload.get? "outcome")
  ensure (run.runId ≠ "") (.schema "run_id")
  ensure (run.taskId ≠ "") (.schema "task_id")
  ensure (∀ outcome ∈ quality, isRunOutcome outcome = true) (.schema "quality")
  ensure (aggregate.task.spec ≠ "") (.schema "task.spec")
  ensure (∀ criterion ∈ aggregate.task.completionCriteria, criterion ≠ "")
    (.schema "task.completion_criteria")
  ensure (aggregate.task.createdAt ≠ "") (.schema "task.created_at")
  ensure (aggregate.task.updatedAt ≠ "") (.schema "task.updated_at")
  ensure (∀ event ∈ events, TimelineEvent event) (.schema "timeline")
  ensure ((run.error.map (·.code)) ≠ some "") (.schema "errors.code")
  ensure ((run.error.map (·.message)) ≠ some "") (.schema "errors.message")

/-- What `projectPersistedRunSnapshot` shows of a Run. -/
def shownRunSnapshot (aggregate : PersistedTaskAggregate) (run : PersistedRunState) :
    RunSnapshot :=
  let events := aggregate.runEvents run.runId
  let ended := run.status ≠ .created ∧ run.status ≠ .running ∧ run.status ≠ .interrupted
  { runSessionId := run.sessionId
    councilResult :=
      if run.mode = .council then
        ((lastEvent events "council.completed").bind fun event => event.payload.get? "result").bind
          fun result => result.record?.map .obj
      else none
    errors := run.error.toList
    finalOutput := if ended then some (projectRunFinalOutput events) else none }

def projectPersistedRunSnapshot (aggregate : PersistedTaskAggregate) (run : PersistedRunState) :
    Except Thrown RunSnapshot := do
  checkRunSnapshot aggregate run
  return shownRunSnapshot aggregate run

/-! ## The snapshot of a Task -/

structure TaskRunSummary where
  runId : String
  taskId : String
  /-- `created` is shown as `running`. -/
  status : RunStatus
  mode : RunMode
  restartable : Bool
  sessionId : Option String
  startedAt : Option Timestamp
  completedAt : Option Timestamp
  error : Option PersistedTaskError

structure TaskFinalOutput where
  artifactRefs : List String
  filesWritten : List String
  sha256 : Option String

structure TaskSnapshot where
  revision : Nat
  taskId : String
  parentId : Option String
  status : TaskStatus
  roleId : Option String
  riskLevel : RiskLevel
  spec : String
  completionCriteria : List String
  affectedPaths : List String
  budget : Option TaskBudget
  allowAgentCouncil : Bool
  createdAt : Timestamp
  updatedAt : Timestamp
  currentRun : Option TaskRunSummary
  runHistory : List TaskRunSummary
  councilResult : Option CouncilResultEvidence
  waitingReason : Option String
  warnings : List String
  error : Option PersistedTaskError
  finalOutput : Option TaskFinalOutput

def isWaitingStatus (status : TaskStatus) : Bool :=
  status ∈ [.waitingHelp, .waitingInput, .pendingGate, .pendingCouncil, .blocked]

/-- `z.number().int().positive()` on the three known keys, nothing else. -/
def BudgetOk (budget : TaskBudget) : Prop :=
  ∀ entry ∈ budget,
    entry.1 ∈ ["max_tokens", "max_wall_clock_seconds", "max_tool_calls"] ∧ 0 < entry.2

instance (budget : TaskBudget) : Decidable (BudgetOk budget) :=
  inferInstanceAs (Decidable (∀ _ ∈ budget, _))

/-- `taskSnapshotSchema.parse`. -/
def parseTaskSnapshot (snapshot : TaskSnapshot) : Except Thrown TaskSnapshot := do
  let runs := snapshot.runHistory ++ snapshot.currentRun.toList
  ensure (snapshot.taskId ≠ "") (.schema "task.task_id")
  ensure (snapshot.spec ≠ "") (.schema "task.spec")
  ensure (∀ criterion ∈ snapshot.completionCriteria, criterion ≠ "")
    (.schema "task.completion_criteria")
  ensure (∀ budget ∈ snapshot.budget, BudgetOk budget) (.schema "task.budget")
  ensure (snapshot.createdAt ≠ "") (.schema "task.created_at")
  ensure (snapshot.updatedAt ≠ "") (.schema "task.updated_at")
  ensure (∀ run ∈ runs, run.runId ≠ "" ∧ (run.error.map (·.code)) ≠ some "")
    (.schema "run_history")
  ensure ((snapshot.error.map (·.code)) ≠ some "") (.schema "error.code")
  ensure (∀ output ∈ snapshot.finalOutput, (∀ ref ∈ output.artifactRefs, ref ≠ "") ∧
      ∀ sha256 ∈ output.sha256, isSha256 sha256 = true)
    (.schema "final_output")
  ensure (isWaitingStatus snapshot.status = true → snapshot.waitingReason.isSome = true)
    (.schema "waiting_reason")
  ensure (∀ result ∈ snapshot.councilResult, ∀ warning ∈ result.warnings,
      warning ∈ snapshot.warnings)
    (.schema "warnings")
  ensure (∀ result ∈ snapshot.councilResult, ∀ output ∈ snapshot.finalOutput,
      result.finalArtifactRef ∈ output.artifactRefs)
    (.schema "final_output.artifact_refs")
  return snapshot

/-- `toRunFact` with its snapshot. -/
structure TaskRunFact where
  run : PersistedRunState
  snapshot : RunSnapshot

namespace TaskRunFact

def status (fact : TaskRunFact) : RunStatus :=
  if fact.run.status = .created then .running else fact.run.status

/-- `runTimestamp`. -/
def timestamp (fact : TaskRunFact) : Option Timestamp :=
  fact.run.completedAt <|> fact.run.startedAt

def toRunSummary (fact : TaskRunFact) : TaskRunSummary where
  runId := fact.run.runId
  taskId := fact.run.taskId
  status := fact.status
  mode := fact.run.mode
  restartable := ¬ isActiveRun fact.run
  sessionId := truthy fact.run.sessionId
  startedAt := truthy fact.run.startedAt
  completedAt := truthy fact.run.completedAt
  error := fact.run.error

/-- `compareNewestFirst`: `a` may stand before `b`. -/
def before (a b : TaskRunFact) : Prop :=
  b.timestamp.getD "" < a.timestamp.getD "" ∨
    (a.timestamp.getD "" = b.timestamp.getD "" ∧ ¬ a.run.runId < b.run.runId)

instance : DecidableRel before := fun _ _ => inferInstanceAs (Decidable (_ ∨ _))

end TaskRunFact

def assertRunFacts (taskId : String) (facts : List TaskRunFact) : Except Thrown Unit := do
  ensure (∀ fact ∈ facts, fact.run.taskId = taskId) (.error "Run belongs to another task")
  ensure (facts.map fun fact => fact.run.runId).Nodup (.error "Duplicate run fact")
  ensure ((facts.filter fun fact => fact.status = .running).length ≤ 1)
    (.error ("Task " ++ taskId ++ " has multiple current runs"))

def projectFinalOutput (evidence : Option RunSnapshot)
    (councilResult : Option CouncilResultEvidence) : Option TaskFinalOutput :=
  (evidence.bind (·.finalOutput)).map fun output =>
    { artifactRefs := output.artifactRefs ++
        ((councilResult.map (·.finalArtifactRef)).filter fun ref =>
          ref ∉ output.artifactRefs).toList
      filesWritten := output.filesWritten
      sha256 := councilResult.map (·.finalArtifactSha256) }

/-- `projectTaskStatus`: the status a Task shows for its latest Run. -/
def projectTaskStatus : Option RunStatus → TaskStatus
  | none => .created
  | some .created => .running
  | some .running => .running
  | some .interrupted => .blocked
  | some .completed => .completed
  | some .failed => .failed
  | some .cancelled => .cancelled

/-- What `projectTaskSnapshot` builds for the Task's Runs, newest first. -/
def projectedSnapshot (aggregate : PersistedTaskAggregate) (runs : List TaskRunFact) :
    TaskSnapshot :=
  let current := runs.find? fun fact => fact.status = .running
  let latest := current <|> runs.head?
  let evidence := latest.map (·.snapshot)
  let councilResult := parseCouncilResult (evidence.bind (·.councilResult))
  let status := projectTaskStatus (latest.map (·.status))
  { revision := runs.foldl (fun total fact => total + fact.run.revision + 1) 0
    taskId := aggregate.task.taskId
    parentId := truthy aggregate.task.parentId
    status
    roleId := truthy aggregate.task.roleId
    riskLevel := aggregate.task.riskLevel
    spec := aggregate.task.spec
    completionCriteria := aggregate.task.completionCriteria
    affectedPaths := aggregate.task.affectedPaths
    budget := aggregate.task.budget
    allowAgentCouncil := aggregate.runtimeState.diagnostics.allowAgentCouncil
    createdAt := aggregate.task.createdAt
    updatedAt := (latest.bind (·.timestamp)).getD aggregate.task.createdAt
    currentRun := current.map (·.toRunSummary)
    runHistory := (runs.filter fun fact => fact.status ≠ .running).map (·.toRunSummary)
    councilResult
    waitingReason :=
      if status = .blocked then
        some "The previous backend process ended before a terminal result was saved."
      else none
    warnings := councilResult.elim [] (·.warnings)
    error := (latest.bind (·.run.error)) <|> (evidence.bind (·.errors.head?))
    finalOutput := projectFinalOutput evidence councilResult }

def projectTaskSnapshot (aggregate : PersistedTaskAggregate) (facts : List TaskRunFact) :
    Except Thrown TaskSnapshot := do
  assertRunFacts aggregate.task.taskId facts
  parseTaskSnapshot (projectedSnapshot aggregate (facts.insertionSort TaskRunFact.before))

def readWaitingReason (aggregate : PersistedTaskAggregate) : Option String :=
  if isWaitingStatus aggregate.task.status then
    some ((truthy (aggregate.runtimeState.interruptState.map (·.reason))).getD
      "Task is waiting for a persisted runtime condition.")
  else none

def shownSnapshot (aggregate : PersistedTaskAggregate) (projected : TaskSnapshot) :
    TaskSnapshot :=
  let replacement := aggregate.task.finalOutput.filter fun _ =>
    projected.finalOutput.all fun output => output.artifactRefs = [] ∧ output.filesWritten = []
  { projected with
    revision := aggregate.task.revision
    status := aggregate.task.status
    updatedAt := aggregate.task.updatedAt
    waitingReason := readWaitingReason aggregate <|> projected.waitingReason
    warnings := appendUnique projected.warnings aggregate.task.warnings
    error := aggregate.task.error <|> projected.error
    finalOutput := (replacement.map fun output =>
        { artifactRefs := [output.artifactRef]
          filesWritten := [output.workspacePath]
          sha256 := some output.sha256 }) <|> projected.finalOutput }

/-- `toRunFact`: a Run with its stored snapshot, or the one projected from its events. -/
def toRunFact (aggregate : PersistedTaskAggregate) (run : PersistedRunState) :
    Except Thrown TaskRunFact := do
  match run.snapshot with
  | some snapshot => return { run, snapshot }
  | none => return { run, snapshot := ← projectPersistedRunSnapshot aggregate run }

def projectAggregate (aggregate : PersistedTaskAggregate) : Except Thrown TaskSnapshot := do
  let facts ← aggregate.runs.mapM (toRunFact aggregate)
  let projected ← projectTaskSnapshot aggregate facts
  parseTaskSnapshot (shownSnapshot aggregate projected)

end Newide
