import Newide.CoordinationState
import Newide.Foundation.Runs

/-!
# The registry of runs in one process

`InMemoryRunRegistry` of `src/app/run-registry.ts`, for one run: its
events, the exits from `running`, and the listeners.  A listener is a
client by number; what it was handed is a log.

The event ids, the clock and the tokens come from outside; `createId` never
returns a token twice, so a token is the number of the transition it is for.
-/

namespace Newide.App

/-! ## Events -/

/-- `DRIVER_STREAM_CHANNELS`, the types that are `stream_only`. -/
def streamOnlyTypes : List String :=
  ["driver.tool_progress", "driver.agent_message_chunk", "driver.agent_thought_chunk",
    "driver.user_message_chunk", "driver.stderr", "driver.session_update_unknown"]

def isStreamFragment (eventType : String) : Bool :=
  eventType ∈ streamOnlyTypes

inductive RunEventSource where
  | agent | driver | memory | gate | council | coordinator

def projectRunEventSource (type : String) : RunEventSource :=
  if hasPrefix type "agent." then .agent
  else if hasPrefix type "driver." then .driver
  else if hasPrefix type "memory." || hasPrefix type "buffer." then .memory
  else if hasPrefix type "gate." then .gate
  else if hasPrefix type "council." then .council
  else .coordinator

structure AppRunEvent where
  eventId : String
  sequence : Nat
  runId : String
  taskId : String
  type : String
  source : RunEventSource
  createdAt : Timestamp
  payload : Payload

def AppRunEvent.isFragment (event : AppRunEvent) : Bool :=
  isStreamFragment event.type

/-! ## Stages -/

inductive AppRunStatus where
  | running | completed | failed | cancelled | interrupted
deriving DecidableEq

inductive AppRunStage where
  | executing | council | delivery | intervention

def stageForCursor (cursor : TaskResumeCursor) (status : AppRunStatus) : AppRunStage :=
  match status with
  | .failed | .cancelled | .interrupted => .intervention
  | .running | .completed =>
      match cursor with
      | .council => .council
      | .gate | .deliver | .done => .delivery
      | .mailboxWait => .intervention
      | .selectAgent | .executeAgent => .executing

def nodeCodeForCursor (cursor : TaskResumeCursor) (status : AppRunStatus) : String :=
  if status ≠ .running then "N18"
  else
    match cursor with
    | .selectAgent => "N3"
    | .executeAgent => "N8"
    | .council => "N14"
    | .gate => "N13"
    | .deliver | .done => "N18"
    | .mailboxWait => "N16"

def readCursorFromPayload (value : Option Json) : Option TaskResumeCursor :=
  match value with
  | some (.str text) =>
      [TaskResumeCursor.selectAgent, .executeAgent, .council, .gate, .deliver, .mailboxWait,
        .done].find? fun cursor => cursor.text = text
  | _ => none

/-! ## The record of a run -/

structure AppRunCurrent where
  stage : AppRunStage
  activeNodeCode : String
  cursor : Option TaskResumeCursor := none
  invocationId : Option String := none
  stageStartedAt : Option Timestamp := none

structure AppRunError where
  code : String
  message : String
  details : Option Payload := none

/-- What the registry shows of a run; the frontend snapshot is kept as it is. -/
structure AppRunSnapshot where
  revision : Nat := 0
  runId : String
  taskId : String
  status : AppRunStatus := .running
  current : AppRunCurrent :=
    { stage := stageForCursor .selectAgent .running
      activeNodeCode := "N3"
      cursor := some .selectAgent }
  events : List AppRunEvent := []
  snapshot : Option String := none
  error : Option AppRunError := none

abbrev StreamFragments := List (String × List AppRunEvent)

structure MutableRunRecord extends AppRunSnapshot where
  listeners : List Nat := []
  /-- Whether its controller has been told to abort. -/
  aborted : Bool := false
  terminalReservation : Option Nat := none
  streamFragments : StreamFragments := []
  nextSequence : Nat := 0

structure StagedTerminalTransition where
  token : Nat
  event : AppRunEvent
  snapshot : AppRunSnapshot

structure Stamp where
  eventId : String
  now : Timestamp

def retainedFragmentsPerRole : Nat := 32

def retainFragment (event : AppRunEvent) (roleId : String) : StreamFragments → StreamFragments
  | [] => [(roleId, [event])]
  | (role, retained) :: rest =>
      if role = roleId then
        let pushed := retained ++ [event]
        (role, if pushed.length > retainedFragmentsPerRole then pushed.drop 1 else pushed) :: rest
      else (role, retained) :: retainFragment event roleId rest

def retainEvent (record : MutableRunRecord) (event : AppRunEvent) : MutableRunRecord :=
  if isStreamFragment event.type then
    let roleId := ((event.payload.get? "role_id").bind Json.string?).getD ""
    { record with streamFragments := retainFragment event roleId record.streamFragments }
  else { record with events := record.events ++ [event] }

def eventNodeCodes : List (String × String) :=
  [("task.created", "N2"), ("run.started", "N3"), ("memory.context_pack_built", "N5"),
    ("driver.run_result", "N8"), ("artifact.registered", "N9"), ("task.completed", "N10"),
    ("gate.result", "N13"), ("council.started", "N14"), ("council.decision", "N14"),
    ("checkpoint.saved", "N16"), ("run.completed", "N18"), ("run.failed", "N18"),
    ("run.interrupted", "N16")]

def applyEventToCurrent (status : AppRunStatus) (event : AppRunEvent) (current : AppRunCurrent) :
    AppRunCurrent :=
  let startedCursor :=
    if event.type = "handler.started" then readCursorFromPayload (event.payload.get? "cursor")
    else none
  let advancedCursor :=
    if event.type = "handler.completed" then
      readCursorFromPayload (event.payload.get? "next_cursor")
    else none
  let started :=
    match startedCursor, readPayloadString event.payload "invocation_id" with
    | some _, some invocationId =>
        { current with
          invocationId := some invocationId
          stageStartedAt := some event.createdAt }
    | _, _ => current
  let advanced :=
    if advancedCursor.isSome then { started with invocationId := none, stageStartedAt := none }
    else started
  let cursor := startedCursor <|> advancedCursor
  let placed :=
    match cursor with
    | some cursor => { advanced with cursor := some cursor, stage := stageForCursor cursor status }
    | none => advanced
  { placed with
    activeNodeCode :=
      (eventNodeCodes.lookup event.type).getD
        ((cursor.map fun cursor => nodeCodeForCursor cursor status).getD placed.activeNodeCode) }

/-! ## The registry, for one run -/

/-- The record, and what came of it: the transitions handed out, every event appended, and what
each listener was given. -/
structure RegistryState where
  record : MutableRunRecord
  issued : List StagedTerminalTransition := []
  appended : List AppRunEvent := []
  delivered : List (Nat × AppRunEvent) := []

def RegistryState.create (runId taskId : String) : RegistryState where
  record := { runId, taskId }

namespace RegistryState

def buildEvent (s : RegistryState) (stamp : Stamp) (type : String) (payload : Payload) :
    AppRunEvent where
  eventId := stamp.eventId
  sequence := s.record.nextSequence + 1
  runId := s.record.runId
  taskId := s.record.taskId
  type
  source := projectRunEventSource type
  createdAt := stamp.now
  payload

def notify (s : RegistryState) (event : AppRunEvent) : RegistryState :=
  { s with
    appended := s.appended ++ [event]
    delivered := s.delivered ++ s.record.listeners.map fun listener => (listener, event) }

def appendEvent (s : RegistryState) (stamp : Stamp) (type : String) (payload : Payload) :
    RegistryState :=
  let event := s.buildEvent stamp type payload
  let record := retainEvent { s.record with nextSequence := s.record.nextSequence + 1 } event
  notify
    { s with
      record :=
        { record with
          revision := record.revision + 1
          current := applyEventToCurrent record.status event record.current } }
    event

def appendEventOnce (s : RegistryState) (stamp : Stamp) (type : String) (payload : Payload) :
    RegistryState :=
  if s.record.events.any fun event => event.type = type then s
  else s.appendEvent stamp type payload

end RegistryState

structure RunCancellationReason where
  code : String
  message : String
  details : Option Payload := none

inductive TerminalInput where
  | completed (snapshot : String)
  | failed (code message : String) (details : Option Payload) (snapshot : Option String)
  | cancelled (reason : Option RunCancellationReason)

namespace TerminalInput

def status : TerminalInput → AppRunStatus
  | .completed _ => .completed
  | .failed .. => .failed
  | .cancelled _ => .cancelled

def type : TerminalInput → String
  | .completed _ => "run.completed"
  | .failed .. => "run.failed"
  | .cancelled _ => "run.cancelled"

def detailsField (details : Option Payload) : Payload :=
  (details.map fun details => [("details", Json.obj details)]).getD []

def payload : TerminalInput → Payload
  | .completed _ => [("status", .str "completed")]
  | .failed code message details _ =>
      [("code", .str code), ("message", .str message)] ++ detailsField details
  | .cancelled (some reason) =>
      [("status", .str "cancelled"), ("code", .str reason.code), ("message", .str reason.message)]
        ++ detailsField reason.details
  | .cancelled none => [("status", .str "cancelled")]

def snapshot : TerminalInput → Option String
  | .completed snapshot => some snapshot
  | .failed _ _ _ snapshot => snapshot
  | .cancelled _ => none

def error : TerminalInput → Option AppRunError
  | .completed _ => none
  | .failed code message details _ => some { code, message, details }
  | .cancelled reason =>
      reason.map fun reason =>
        { code := reason.code, message := reason.message, details := reason.details }

end TerminalInput

namespace RegistryState

/-- Nothing is staged once the run has left `running`, or while another transition is. -/
def stageTerminal (s : RegistryState) (stamp : Stamp) (input : TerminalInput) :
    Option StagedTerminalTransition × RegistryState :=
  if s.record.status ≠ .running ∨ s.record.terminalReservation.isSome then (none, s)
  else
    let token := s.issued.length
    let event := s.buildEvent stamp input.type input.payload
    let record :=
      { s.record with
        terminalReservation := some token
        nextSequence := s.record.nextSequence + 1
        aborted := s.record.aborted || input.status = .cancelled }
    let snapshot : AppRunSnapshot :=
      { record.toAppRunSnapshot with
        revision := record.revision + 1
        status := input.status
        current :=
          { stage := if input.status = .completed then .delivery else .intervention
            activeNodeCode := "N18"
            cursor := some .done }
        events := record.events ++ [event]
        snapshot := input.snapshot <|> record.snapshot
        error := input.error <|> record.error }
    let staged := { token, event, snapshot }
    (some staged, { s with record, issued := s.issued ++ [staged] })

def commitTerminal (s : RegistryState) (staged : StagedTerminalTransition) : RegistryState :=
  if s.record.terminalReservation ≠ some staged.token ∨ s.record.status ≠ .running then s
  else
    let record :=
      retainEvent
        { s.record with
          status := staged.snapshot.status
          current := staged.snapshot.current
          revision := staged.snapshot.revision }
        staged.event
    notify
      { s with
        record :=
          { record with
            snapshot := staged.snapshot.snapshot <|> record.snapshot
            error := staged.snapshot.error <|> record.error
            terminalReservation := none } }
      staged.event

def abortTerminal (s : RegistryState) (token : Nat) : RegistryState :=
  if s.record.terminalReservation = some token then
    { s with record := { s.record with terminalReservation := none } }
  else s

def finish (s : RegistryState) (stamp : Stamp) (input : TerminalInput) : RegistryState :=
  match s.stageTerminal stamp input with
  | (some staged, next) => next.commitTerminal staged
  | (none, next) => next

/-- Without a snapshot a run that has no `run.completed` yet throws. -/
def complete (s : RegistryState) (stamp : Stamp) (snapshot : Option String) : RegistryState :=
  if s.record.events.any fun event => event.type = "run.completed" then
    { s with
      record :=
        { s.record with
          status := .completed
          current := { stage := .delivery, activeNodeCode := "N18" }
          snapshot := snapshot <|> s.record.snapshot } }
  else
    match snapshot with
    | none => s
    | some snapshot => s.finish stamp (.completed snapshot)

def fail (s : RegistryState) (stamp : Stamp) (code message : String) : RegistryState :=
  if s.record.status = .cancelled then s
  else
    appendEventOnce
      { s with
        record :=
          { s.record with
            status := .failed
            current := { stage := .intervention, activeNodeCode := "N18" }
            error := some { code, message } } }
      stamp "run.failed" [("code", .str code)]

def cancel (s : RegistryState) (stamp : Stamp) (reason : Option RunCancellationReason) :
    RegistryState :=
  if s.record.status ≠ .running then s else s.finish stamp (.cancelled reason)

def interrupt (s : RegistryState) (stamp : Stamp) (reason : RunCancellationReason) :
    RegistryState :=
  if s.record.status ≠ .running then s
  else
    appendEventOnce
      { s with
        record :=
          { s.record with
            status := .interrupted
            current :=
              { stage := .intervention
                activeNodeCode := "N16"
                cursor := s.record.current.cursor }
            error :=
              some
                { code := reason.code
                  message := reason.message
                  details := reason.details } } }
      stamp "run.interrupted"
      ([("status", .str "interrupted"), ("code", .str reason.code),
        ("message", .str reason.message)] ++ TerminalInput.detailsField reason.details)

def received (s : RegistryState) (listener : Nat) : List AppRunEvent :=
  (s.delivered.filter fun entry => entry.1 = listener).map (·.2)

/-- The greatest sequence it has been given, if any. -/
def watermark (s : RegistryState) (listener : Nat) : Option Nat :=
  ((s.received listener).map (·.sequence)).max?

/-- Events after `afterSequence` are given at once, the others as they come. -/
def subscribe (s : RegistryState) (listener : Nat) (afterSequence : Option Nat) : RegistryState :=
  let replayed := s.record.events.filter fun event => afterSequence.all fun n => n < event.sequence
  { s with
    record := { s.record with listeners := s.record.listeners.insert listener }
    delivered := s.delivered ++ replayed.map fun event => (listener, event) }

def unsubscribe (s : RegistryState) (listener : Nat) : RegistryState :=
  { s with record := { s.record with listeners := s.record.listeners.filter (· ≠ listener) } }

end RegistryState

/-! ## Calls -/

inductive SettleCall where
  | stageTerminal (stamp : Stamp) (input : TerminalInput)
  | commitTerminal (token : Nat)
  | abortTerminal (token : Nat)
  | cancel (stamp : Stamp) (reason : Option RunCancellationReason)
  | complete (stamp : Stamp) (snapshot : Option String)
  | fail (stamp : Stamp) (code message : String)
  | interrupt (stamp : Stamp) (reason : RunCancellationReason)

inductive RegistryCall where
  | appendEvent (stamp : Stamp) (type : String) (payload : Payload)
  | settle (call : SettleCall)
  | subscribe (listener : Nat)
  | unsubscribe (listener : Nat)

namespace RegistryState

def settle (s : RegistryState) : SettleCall → RegistryState
  | .stageTerminal stamp input => (s.stageTerminal stamp input).2
  | .commitTerminal token =>
      match s.issued[token]? with
      | some staged => s.commitTerminal staged
      | none => s
  | .abortTerminal token => s.abortTerminal token
  | .cancel stamp reason => s.cancel stamp reason
  | .complete stamp snapshot => s.complete stamp snapshot
  | .fail stamp code message => s.fail stamp code message
  | .interrupt stamp reason => s.interrupt stamp reason

def step (s : RegistryState) : RegistryCall → RegistryState
  | .appendEvent stamp type payload => s.appendEvent stamp type payload
  | .settle call => s.settle call
  | .subscribe listener => s.subscribe listener (s.watermark listener)
  | .unsubscribe listener => s.unsubscribe listener

end RegistryState

/-! ## What the parts of a call do -/

namespace RegistryState

variable {s t : RegistryState} {stamp : Stamp} {type : String} {payload : Payload}

/-- A transition is staged: it has a number and its event the next sequence, and it is the one
that is reserved for. -/
structure Stages (s : RegistryState) (input : TerminalInput) (staged : StagedTerminalTransition)
    (t : RegistryState) : Prop where
  running : s.record.status = .running
  free : s.record.terminalReservation = none
  token : staged.token = s.issued.length
  sequence : staged.event.sequence = s.record.nextSequence + 1
  type : staged.event.type = input.type
  revision : staged.snapshot.revision = s.record.revision + 1
  status : staged.snapshot.status = input.status
  issued : t.issued = s.issued ++ [staged]
  record : ∃ aborted, t.record =
    { s.record with
      terminalReservation := some staged.token
      nextSequence := s.record.nextSequence + 1
      aborted }
  appended : t.appended = s.appended
  delivered : t.delivered = s.delivered

theorem Stages.issued_cases {input : TerminalInput} {staged other : StagedTerminalTransition}
    {token : Nat} (h : s.Stages input staged t) (hother : t.issued[token]? = some other) :
    s.issued[token]? = some other ∨ token = s.issued.length ∧ other = staged := by
  rw [h.issued] at hother
  rcases Nat.lt_trichotomy token s.issued.length with hlt | rfl | hgt
  · rw [List.getElem?_append_left hlt] at hother
    exact .inl hother
  · rw [List.getElem?_concat_length] at hother
    exact .inr ⟨rfl, (Option.some.inj hother).symm⟩
  · rw [List.getElem?_eq_none (by rw [List.length_append]; exact hgt)] at hother
    cases hother

theorem stageTerminal_cases (s : RegistryState) (stamp : Stamp) (input : TerminalInput) :
    s.stageTerminal stamp input = (none, s) ∨
      ∃ staged t, s.stageTerminal stamp input = (some staged, t) ∧ s.Stages input staged t := by
  by_cases hbusy : s.record.status ≠ .running ∨ s.record.terminalReservation.isSome = true
  · exact .inl (if_pos hbusy)
  · refine .inr ⟨_, _, if_neg hbusy, ?_⟩
    rw [not_or, not_not, Bool.not_eq_true, Option.isSome_eq_false_iff,
      Option.isNone_iff_eq_none] at hbusy
    exact
      { running := hbusy.1
        free := hbusy.2
        token := rfl
        sequence := rfl
        type := rfl
        revision := rfl
        status := rfl
        issued := rfl
        record := ⟨_, rfl⟩
        appended := rfl
        delivered := rfl }

structure Appends (s : RegistryState) (event : AppRunEvent) (t : RegistryState) : Prop where
  events : t.record.events =
    if event.isFragment then s.record.events else s.record.events ++ [event]
  appended : t.appended = s.appended ++ [event]
  delivered : t.delivered = s.delivered ++ s.record.listeners.map fun listener => (listener, event)
  listeners : t.record.listeners = s.record.listeners
  issued : t.issued = s.issued

section
variable (record : MutableRunRecord) (event : AppRunEvent)

theorem retainEvent_events : (retainEvent record event).events =
    if event.isFragment then record.events else record.events ++ [event] := by
  unfold retainEvent AppRunEvent.isFragment
  split <;> rfl

theorem retainEvent_eq : ∃ events fragments, retainEvent record event =
    { record with events := events, streamFragments := fragments } := by
  unfold retainEvent
  split
  · exact ⟨_, _, rfl⟩
  · exact ⟨_, _, rfl⟩

end

/-- An event with the next sequence, which leaves the run where it is. -/
structure Logs (s : RegistryState) (event : AppRunEvent) (t : RegistryState) : Prop where
  appends : s.Appends event t
  sequence : event.sequence = s.record.nextSequence + 1
  nextSequence : t.record.nextSequence = s.record.nextSequence + 1
  revision : t.record.revision = s.record.revision + 1
  status : t.record.status = s.record.status
  error : t.record.error = s.record.error
  reservation : t.record.terminalReservation = s.record.terminalReservation

theorem appendEvent_logs :
    s.Logs (s.buildEvent stamp type payload) (s.appendEvent stamp type payload) := by
  obtain ⟨events, fragments, hretain⟩ := retainEvent_eq
    { s.record with nextSequence := s.record.nextSequence + 1 } (s.buildEvent stamp type payload)
  have hrecord : (s.appendEvent stamp type payload).record =
      { s.record with
        nextSequence := s.record.nextSequence + 1
        events
        streamFragments := fragments
        revision := s.record.revision + 1
        current := applyEventToCurrent s.record.status (s.buildEvent stamp type payload)
          s.record.current } := by
    simp only [appendEvent, notify, hretain]
  have hlisteners : (s.appendEvent stamp type payload).record.listeners = s.record.listeners := by
    rw [hrecord]
  refine ⟨⟨retainEvent_events _ _, rfl, ?_, hlisteners, rfl⟩, rfl, ?_, ?_, ?_, ?_, ?_⟩
  · simp only [appendEvent, notify, hretain]
  all_goals rw [hrecord]

theorem appendEventOnce_cases (s : RegistryState) (stamp : Stamp) (type : String)
    (payload : Payload) :
    ((∃ event ∈ s.record.events, event.type = type) ∧ s.appendEventOnce stamp type payload = s) ∨
      ((∀ event ∈ s.record.events, event.type ≠ type) ∧
        s.Logs (s.buildEvent stamp type payload) (s.appendEventOnce stamp type payload)) := by
  unfold appendEventOnce
  by_cases hany : (s.record.events.any fun event => event.type = type) = true
  · rw [if_pos hany]
    simp only [List.any_eq_true, decide_eq_true_iff] at hany
    exact .inl ⟨hany, rfl⟩
  · rw [if_neg hany]
    simp only [List.any_eq_true, decide_eq_true_iff, not_exists, not_and] at hany
    exact .inr ⟨hany, appendEvent_logs⟩

structure Commits (s : RegistryState) (staged : StagedTerminalTransition) (t : RegistryState) :
    Prop where
  reserved : s.record.terminalReservation = some staged.token
  running : s.record.status = .running
  appends : s.Appends staged.event t
  nextSequence : t.record.nextSequence = s.record.nextSequence
  revision : t.record.revision = staged.snapshot.revision
  status : t.record.status = staged.snapshot.status
  released : t.record.terminalReservation = none

theorem commitTerminal_commits {staged : StagedTerminalTransition}
    (hreserved : s.record.terminalReservation = some staged.token)
    (hrunning : s.record.status = .running) : s.Commits staged (s.commitTerminal staged) := by
  obtain ⟨events, fragments, hretain⟩ := retainEvent_eq
    { s.record with
      status := staged.snapshot.status
      current := staged.snapshot.current
      revision := staged.snapshot.revision } staged.event
  have hevents := retainEvent_events
    { s.record with
      status := staged.snapshot.status
      current := staged.snapshot.current
      revision := staged.snapshot.revision } staged.event
  have hcommit : s.commitTerminal staged = _ :=
    if_neg (not_or.mpr ⟨not_not.mpr hreserved, not_not.mpr hrunning⟩)
  rw [hretain] at hcommit hevents
  rw [hcommit]
  exact
    { reserved := hreserved
      running := hrunning
      appends := ⟨hevents, rfl, rfl, rfl, rfl⟩
      nextSequence := rfl
      revision := rfl
      status := rfl
      released := rfl }

theorem commitTerminal_cases (s : RegistryState) (staged : StagedTerminalTransition) :
    s.commitTerminal staged = s ∨ s.Commits staged (s.commitTerminal staged) := by
  by_cases hother : s.record.terminalReservation ≠ some staged.token ∨ s.record.status ≠ .running
  · exact .inl (if_pos hother)
  · rw [not_or, not_not, not_not] at hother
    exact .inr (commitTerminal_commits hother.1 hother.2)

theorem finish_cases (s : RegistryState) (stamp : Stamp) (input : TerminalInput) :
    s.finish stamp input = s ∨ ∃ staged t, s.Stages input staged t ∧
      t.Commits staged (s.finish stamp input) := by
  unfold finish
  rcases s.stageTerminal_cases stamp input with hnone | ⟨staged, t, hstage, hstages⟩
  · rw [hnone]
    exact .inl rfl
  · rw [hstage]
    obtain ⟨aborted, hrecord⟩ := hstages.record
    refine .inr ⟨staged, t, hstages, commitTerminal_commits ?_ ?_⟩
    · rw [hrecord]
    · rw [hrecord]
      exact hstages.running

end RegistryState

end Newide.App
