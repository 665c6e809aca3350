import Newide.Mailbox

/-!
# Safepoints and resume packages

`src/checkpoint`: a safepoint freezes the stage boundary a Run stands
at, and a resume package is rebuilt from the latest one.  Both go
through the cursor input: the safepoint stores the input of its cursor,
or reconstructs one when the runtime state has none that matches, and
the package takes the first stored or reconstructed input that fits the
checkpoint's cursor.
-/

namespace Newide

open Fallible

structure FileAnchor where
  baseCommit : String
  snapshotCommit : Option String := none
  worktreePath : String
  branch : String
  modifiedFiles : List String
  recoverable : Bool

/-- `'0'.repeat(64)`. -/
def zeroSha256 : String :=
  String.ofList (List.replicate 64 '0')

/-- `readDiagString` on a diagnostics field. -/
def readDiagString (field : Option String) : Option String :=
  truthy field

/-! ## Reconstructing a cursor input -/

def synthesizeCursorInput (resumeCursor : TaskResumeCursor) (aggregate : PersistedTaskAggregate)
    (runId : String) : Option TaskCursorInput :=
  let diagnostics := aggregate.runtimeState.diagnostics
  let artifactRefs := aggregate.runtimeState.artifactRefs
  match resumeCursor with
  | .selectAgent => some (.selectAgent runId [] none)
  | .executeAgent =>
      let winner := aggregate.task.ownerAgentId
        <|> readDiagString diagnostics.winnerAgentId
        <|> aggregate.readLatestAgentId
      (truthy winner).map fun winner => .executeAgent winner none none
  | .council => some (.council .persistentOverride none none)
  | .gate =>
      let changeset := readDiagString diagnostics.changesetRef
        <|> artifactRefs.getLast? <|> artifactRefs.head?
      let sha := (readDiagString diagnostics.expectedSha256).getD zeroSha256
      (truthy changeset).map fun changeset => .gate changeset "post_primary" changeset sha
  | .deliver =>
      let changeset := readDiagString diagnostics.changesetRef <|> artifactRefs.getLast?
      let sha := (readDiagString diagnostics.expectedSha256).getD zeroSha256
      (truthy changeset).map fun changeset => .deliver changeset sha
  | .mailboxWait => some (.mailboxWait [] "resume_from_checkpoint")
  | .done => some .done

variable {aggregate : PersistedTaskAggregate} {input : TaskCursorInput}

variable {resumeCursor : TaskResumeCursor} {runId : String}

theorem synthesizeCursorInput_cursor
    (h : synthesizeCursorInput resumeCursor aggregate runId = some input) :
    input.cursor = resumeCursor := by
  cases resumeCursor with
  | selectAgent => cases h; rfl
  | council => cases h; rfl
  | mailboxWait => cases h; rfl
  | done => cases h; rfl
  | executeAgent =>
      obtain ⟨winner, _, rfl⟩ := Option.map_eq_some_iff.mp h
      rfl
  | gate =>
      obtain ⟨changeset, _, rfl⟩ := Option.map_eq_some_iff.mp h
      rfl
  | deliver =>
      obtain ⟨changeset, _, rfl⟩ := Option.map_eq_some_iff.mp h
      rfl

/-! ## Safepoints -/

def projectRunEventSource (type : String) : String :=
  if hasPrefix type "agent." then "agent"
  else if hasPrefix type "driver." then "driver"
  else if hasPrefix type "memory." || hasPrefix type "buffer." then "memory"
  else if hasPrefix type "gate." then "gate"
  else if hasPrefix type "council." then "council"
  else "coordinator"

/-- `readString` of the safepoint module: a string that is not blank. -/
def readUnblankString (payload : Payload) (key : String) : Option String :=
  ((payload.get? key).bind Json.string?).filter fun value =>
    value.toList.any fun c => ¬ c.isWhitespace

/-- `map.set(key, value)` on the entries of a `Map` in insertion order. -/
def setEntry (entries : List (String × String)) (key value : String) : List (String × String) :=
  if entries.any fun entry => entry.1 = key then
    entries.map fun entry => if entry.1 = key then (key, value) else entry
  else
    entries ++ [(key, value)]

def collectParticipantSessions (aggregate : PersistedTaskAggregate) :
    List PersistedCheckpointParticipantSession :=
  let fromRuns := aggregate.runs.foldl (fun entries run =>
    match truthy run.sessionId, truthy aggregate.task.roleId with
    | some sessionId, some roleId => setEntry entries roleId sessionId
    | _, _ => entries) []
  let entries := aggregate.events.foldl (fun entries event =>
    let roleId := readUnblankString event.payload "role_id"
      <|> readUnblankString event.payload "agent_id"
    match roleId, readUnblankString event.payload "session_id" with
    | some roleId, some sessionId => setEntry entries roleId sessionId
    | _, _ => entries) fromRuns
  entries.map fun entry => { roleId := entry.1, sessionId := entry.2 }

/-- Keep the first session of each `(role_id, session_id)`. -/
def distinctSessions (sessions : List PersistedCheckpointParticipantSession) :
    List PersistedCheckpointParticipantSession :=
  sessions.foldl (fun kept session =>
    if kept.any fun k => k.roleId = session.roleId ∧ k.sessionId = session.sessionId then kept
    else kept ++ [session]) []

structure BuildSafepointCheckpointInput where
  aggregate : PersistedTaskAggregate
  run : PersistedRunState
  trigger : SafepointTrigger
  parentCheckpointId : Option String := none
  interruptState : Option InterruptState := none
  inheritMechanicalSnapshot : Option MechanicalSnapshot := none
  now : Timestamp
  checkpointId : String
  captureFileAnchor : String → String → FileAnchor
  mailboxStore : Option MailboxView := none
  participantSessions : Option ParticipantSessionRegistry := none

/-- The anchor of a safepoint: an inherited snapshot with a commit wins over capturing. -/
def safepointAnchor (input : BuildSafepointCheckpointInput) : FileAnchor :=
  match input.inheritMechanicalSnapshot.filter fun s => (truthy s.snapshotCommit).isSome with
  | some inherited =>
      { baseCommit := inherited.baseCommit
        snapshotCommit := inherited.snapshotCommit
        worktreePath := inherited.worktreePath
        branch := inherited.branch
        modifiedFiles := inherited.modifiedFiles
        recoverable := (truthy inherited.snapshotCommit).isSome }
  | none => input.captureFileAnchor input.aggregate.task.workspacePath input.checkpointId

/-- The cursor input a safepoint stores: the runtime state's when it fits its cursor. -/
def safepointCursorInput (aggregate : PersistedTaskAggregate) (runId : String) :
    Option TaskCursorInput :=
  (aggregate.runtimeState.cursorInput.filter fun input =>
      input.cursor = aggregate.runtimeState.resumeCursor)
    <|> synthesizeCursorInput aggregate.runtimeState.resumeCursor aggregate runId

def safepointParticipantSessions (input : BuildSafepointCheckpointInput) :
    List PersistedCheckpointParticipantSession :=
  let taskId := input.aggregate.task.taskId
  let registered := input.participantSessions.bind fun registry =>
    (registry.listForTask.map fun listForTask => listForTask taskId)
      <|> (registry.list.map fun list => list taskId input.aggregate.task.workspacePath)
  distinctSessions
    (((registered.getD []).map fun binding =>
        { roleId := binding.roleId
          sessionId := binding.sessionId
          workspacePath := some binding.workspacePath })
      ++ collectParticipantSessions input.aggregate)

/-- `message_thread`: one entry per event, in order. -/
def messageThread (events : List PersistedCoordinationEvent) : List PersistedCheckpointMessage :=
  events.zipIdx.map fun (event, index) =>
    { messageId := event.eventId
      role := projectRunEventSource event.eventType
      content := event.eventType
      turn := index + 1
      artifactRefs := readPayloadStringArray event.payload "artifact_refs"
      createdAt := event.createdAt }

def semanticHandoff (input : BuildSafepointCheckpointInput) (recoverable : Bool) :
    SemanticHandoff :=
  let resumeCursor := input.aggregate.runtimeState.resumeCursor
  let processInterrupted := input.trigger = .blocked ∧
    (input.interruptState.any fun state => state.type = .processInterrupted)
  { done := input.aggregate.events.map (·.eventType)
    inProgress := [resumeCursor.text]
    blockedOn :=
      if processInterrupted then ["backend process interrupted"]
      else if input.trigger = .blocked ∨ input.trigger = .shutdown then [input.trigger.text]
      else []
    assumptions := []
    nextSteps := ["resume " ++ resumeCursor.text]
    knownRisks :=
      if recoverable then
        if processInterrupted then ["unfinished action will be re-executed"] else []
      else ["file anchor unavailable; workspace path only"] }

def buildSafepointCheckpoint (input : BuildSafepointCheckpointInput) : PersistedFullCheckpoint :=
  let aggregate := input.aggregate
  let anchor := safepointAnchor input
  { checkpointId := input.checkpointId
    parentCheckpointId := truthy input.parentCheckpointId
    taskId := aggregate.task.taskId
    runId := input.run.runId
    agentId := (aggregate.readLatestAgentId <|> aggregate.task.ownerAgentId
      <|> aggregate.task.roleId).getD "coordinator"
    sessionId := truthy input.run.sessionId
    trigger := input.trigger
    resumeCursor := aggregate.runtimeState.resumeCursor
    cursorInput := safepointCursorInput aggregate input.run.runId
    participantSessions := safepointParticipantSessions input
    mailboxState := some
      { highWatermark := (input.mailboxStore.bind (·.getMailboxHighWatermark)).bind
          fun getMailboxHighWatermark =>
            getMailboxHighWatermark aggregate.task.taskId aggregate.task.workspacePath
        waitingDeliveryIds :=
          (aggregate.runtimeState.cursorInput.bind TaskCursorInput.deliveryIds?).getD [] }
    messageThread := messageThread aggregate.events
    mechanicalSnapshot :=
      { baseCommit := anchor.baseCommit
        snapshotCommit := truthy anchor.snapshotCommit
        worktreePath := anchor.worktreePath
        branch := anchor.branch
        modifiedFiles := anchor.modifiedFiles }
    semanticHandoff := semanticHandoff input anchor.recoverable
    interruptState := input.interruptState
    artifactRefs := aggregate.runtimeState.artifactRefs
    validityStatus := .valid
    createdAt := input.now }

theorem safepointCursorInput_cursor (h : safepointCursorInput aggregate runId = some input) :
    input.cursor = aggregate.runtimeState.resumeCursor := by
  simp only [safepointCursorInput, Option.orElse_eq_orElse, Option.orElse_eq_or,
    Option.or_eq_some_iff, Option.filter_eq_some_iff, decide_eq_true_eq] at h
  rcases h with ⟨_, hc⟩ | ⟨_, hs⟩
  · exact hc
  · exact synthesizeCursorInput_cursor hs

theorem safepointCursorInput_of_stored (hi : aggregate.runtimeState.cursorInput = some input)
    (hc : input.cursor = aggregate.runtimeState.resumeCursor) :
    safepointCursorInput aggregate runId = some input := by
  simp [safepointCursorInput, hi, hc, Option.filter]

/-! ## Resume packages -/

/-- A candidate for the resumed stage: it parses, has the checkpoint's cursor, and a
mailbox wait among them has a delivery to wait for. -/
def usableCandidate (resumeCursor : TaskResumeCursor) (candidate : TaskCursorInput) :
    Option TaskCursorInput :=
  match parseTaskCursorInput candidate with
  | .error _ => none
  | .ok parsed =>
      if parsed.cursor ≠ resumeCursor then none
      else if parsed.deliveryIds? = some [] then none
      else some parsed

def resolveResumeCursorInput (aggregate : PersistedTaskAggregate)
    (checkpoint : PersistedFullCheckpoint) : Except Thrown TaskCursorInput :=
  let fromMailbox :=
    if checkpoint.resumeCursor = .mailboxWait then
      checkpoint.mailboxState.map fun mailbox =>
        TaskCursorInput.mailboxWait mailbox.waitingDeliveryIds "resume_from_checkpoint"
    else none
  let candidates := [checkpoint.cursorInput, aggregate.runtimeState.cursorInput, fromMailbox,
    synthesizeCursorInput checkpoint.resumeCursor aggregate checkpoint.runId]
  orThrow
    (candidates.findSome? fun candidate =>
      candidate.bind (usableCandidate checkpoint.resumeCursor))
    (.resumePackage ("Cannot rebuild cursor_input for resume at " ++
      checkpoint.resumeCursor.text ++ "; refusing silent restart"))

theorem usableCandidate_eq_some {candidate parsed : TaskCursorInput} :
    usableCandidate resumeCursor candidate = some parsed ↔
      candidate.WellFormed ∧ candidate.cursor = resumeCursor ∧
        candidate.deliveryIds? ≠ some [] ∧ candidate = parsed := by
  unfold usableCandidate
  by_cases hwf : candidate.WellFormed
  · rw [parseTaskCursorInput_of_wellFormed hwf]
    by_cases hc : candidate.cursor = resumeCursor
    · by_cases hd : candidate.deliveryIds? = some []
      · simp [hc, hd]
      · simp [hwf, hc, hd]
    · simp [hc]
  · cases hp : parseTaskCursorInput candidate with
    | error e => simp [hwf]
    | ok p => exact absurd (parseTaskCursorInput_eq_ok.mp hp).1 hwf

theorem resolveResumeCursorInput_of_stored {checkpoint : PersistedFullCheckpoint}
    (hi : checkpoint.cursorInput = some input) (hwf : input.WellFormed)
    (hc : input.cursor = checkpoint.resumeCursor) (hd : input.deliveryIds? ≠ some []) :
    resolveResumeCursorInput aggregate checkpoint = .ok input := by
  have husable : usableCandidate checkpoint.resumeCursor input = some input :=
    usableCandidate_eq_some.mpr ⟨hwf, hc, hd, rfl⟩
  simp [resolveResumeCursorInput, hi, husable, List.findSome?]

def deduplicateDeliveries (envelopes : List PersistedMailboxEnvelope) :
    List PersistedMailboxEnvelope :=
  envelopes.foldl (fun kept envelope =>
    if kept.any fun k => k.delivery.deliveryId = envelope.delivery.deliveryId then kept
    else kept ++ [envelope]) []

structure ResumePackageMailbox where
  pendingDeliveries : List PersistedMailboxDelivery
  waitingDeliveryIds : List String
  highWatermark : Option MailboxWatermark := none

structure ResumePackage where
  taskId : String
  checkpointId : String
  interruptedRunId : String
  mode : RunMode
  resumeCursor : TaskResumeCursor
  cursorInput : TaskCursorInput
  sessionId : Option String := none
  workspacePath : String
  artifactRefs : List String
  messageThread : List PersistedCheckpointMessage
  mailbox : ResumePackageMailbox
  participantSessions : List PersistedCheckpointParticipantSession
  councilStateRef : Option String := none
  fileAnchor : FileAnchor
  interruptState : Option InterruptState := none
  taskRequest : TaskCreateRequest

/-- The participant session a checkpoint names is still the one its role is bound to. -/
def checkParticipant (aggregate : PersistedTaskAggregate)
    (participantSessions : Option ParticipantSessionRegistry)
    (participant : PersistedCheckpointParticipantSession) : Except Thrown Unit :=
  let taskId := aggregate.task.taskId
  let legacyBindings :=
    if (truthy participant.workspacePath).isSome then none
    else (participantSessions.bind (·.listForTask)).map fun listForTask =>
      (listForTask taskId).filter fun binding =>
        binding.roleId = participant.roleId ∧ binding.sessionId = participant.sessionId
  let workspacePath := participant.workspacePath.getD
    (match legacyBindings with
    | some [binding] => binding.workspacePath
    | _ => aggregate.task.workspacePath)
  let bound := participantSessions.bind fun registry =>
    registry.get taskId workspacePath participant.roleId
  ensure (∀ sessionId ∈ bound, sessionId = participant.sessionId)
    (.resumePackage ("Participant Session " ++ participant.roleId ++ "/" ++
      participant.sessionId ++ " is not recoverable"))

def storedTaskRequest (task : PersistedTaskState) : TaskCreateRequest where
  spec := task.spec
  roleId := truthy task.roleId
  parentTaskId := truthy task.parentId
  riskLevel := some task.riskLevel
  affectedPaths := some task.affectedPaths
  completionCriteria := task.completionCriteria
  budget := task.budget

/-- `buildResumePackage` of `src/checkpoint/resume-package.ts`. -/
def buildResumePackageFrom (aggregate : PersistedTaskAggregate)
    (checkpoint : PersistedFullCheckpoint) (mailboxStore : Option MailboxView)
    (participantSessions : Option ParticipantSessionRegistry) : Except Thrown ResumePackage := do
  ensure (checkpoint.taskId = aggregate.task.taskId)
    (.resumePackage ("Checkpoint " ++ checkpoint.checkpointId ++ " does not belong to task " ++
      aggregate.task.taskId))
  let interruptedRun ← orThrow (aggregate.run? checkpoint.runId)
    (.resumePackage ("Checkpoint run " ++ checkpoint.runId ++ " was not found for task " ++
      checkpoint.taskId))
  let cursorInput ← resolveResumeCursorInput aggregate checkpoint
  checkpoint.participantSessions.forM (checkParticipant aggregate participantSessions)
  let taskId := aggregate.task.taskId
  let workspacePath := aggregate.task.workspacePath
  let highWatermark := checkpoint.mailboxState.bind (·.highWatermark)
  let replayAfter := (mailboxStore.bind (·.listMailboxDeliveriesAfter)).map
    fun listMailboxDeliveriesAfter => listMailboxDeliveriesAfter taskId workspacePath highWatermark
  let replayable := (mailboxStore.elim [] fun store =>
    store.listReplayableMailboxDeliveries taskId workspacePath) ++ replayAfter.getD []
  let mechanical := checkpoint.mechanicalSnapshot
  return {
    taskId
    checkpointId := checkpoint.checkpointId
    interruptedRunId := checkpoint.runId
    mode := interruptedRun.mode
    resumeCursor := checkpoint.resumeCursor
    cursorInput
    sessionId := checkpoint.sessionId <|> interruptedRun.sessionId
    workspacePath
    artifactRefs := checkpoint.artifactRefs
    messageThread := checkpoint.messageThread
    mailbox :=
      { pendingDeliveries := (deduplicateDeliveries replayable).map (·.delivery)
        waitingDeliveryIds := checkpoint.mailboxState.elim [] (·.waitingDeliveryIds)
        highWatermark }
    participantSessions := checkpoint.participantSessions
    councilStateRef := truthy checkpoint.councilStateRef
    fileAnchor :=
      { baseCommit := mechanical.baseCommit
        snapshotCommit := truthy mechanical.snapshotCommit
        worktreePath := mechanical.worktreePath
        branch := mechanical.branch
        modifiedFiles := mechanical.modifiedFiles
        recoverable := ¬ hasPrefix mechanical.baseCommit "unavailable:" ∧
          (truthy mechanical.snapshotCommit).isSome }
    interruptState := checkpoint.interruptState
    taskRequest := storedTaskRequest aggregate.task }

end Newide
