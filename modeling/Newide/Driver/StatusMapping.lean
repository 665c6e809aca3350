import Newide.ProtocolFrame

/-!
# Statuses of driver invocations

The evidence an invocation leaves behind (`src/driver/adp-invocation-state.ts`)
and the status it is mapped to (`src/driver/adp-status-mapping.ts`), with the
retry policy of `src/driver/adp-retry-policy.ts`.
-/

namespace Newide.Driver

/-! ## Results and errors -/

/-- `ADP_STATUSES`. -/
inductive AdpStatus where
  | succeeded | failed | cancelled | unknown
deriving DecidableEq

def AdpStatus.receipt : AdpStatus → ReceiptStatus
  | .succeeded => .succeeded
  | .failed => .failed
  | .cancelled => .cancelled
  | .unknown => .unknown

inductive DriverRunStatus where
  | succeeded | failed | cancelled | interrupted
deriving DecidableEq

structure DriverError where
  code : String
  message : String
  retryable : Bool

structure DriverRunResult where
  status : DriverRunStatus
  response : Option String := none
  artifacts : List String := []
  toolEvents : List String := []
  error : Option DriverError := none

/-- `DriverExecutionEvidence`. -/
inductive ExecutionEvidence where
  | notExecuted | executionUnconfirmed
deriving DecidableEq

def ExecutionEvidence.text : ExecutionEvidence → String
  | .notExecuted => "not_executed"
  | .executionUnconfirmed => "execution_unconfirmed"

/-- What an executor throws: its message, and the evidence of a `DriverTransportError`. -/
structure DriverThrown where
  message : String
  evidence : Option ExecutionEvidence := none

/-! ## Evidence -/

inductive InvocationPhase where
  | starting | dispatched | returning | settled
deriving DecidableEq

structure InvocationEvidence where
  dispatched : Bool := false
  effectsObserved : Bool := false
  resultReceived : Bool := false
  cancelRequested : Bool := false
  transportEvidence : Option ExecutionEvidence := none

/-- `AdpInvocationState`: one record for all the attempts of an exchange. -/
structure InvocationState where
  current : InvocationPhase := .starting
  facts : InvocationEvidence := {}

namespace InvocationState

variable (state : InvocationState)

def markDispatched : InvocationState where
  current := if state.current = .starting then .dispatched else state.current
  facts := { state.facts with dispatched := true }

def observeEffect : InvocationState :=
  { state with facts := { state.facts with effectsObserved := true } }

def markResultReceived : InvocationState where
  current := if state.current = .settled then .settled else .returning
  facts := { state.facts with resultReceived := true }

def markCancelRequested : InvocationState :=
  { state with facts := { state.facts with cancelRequested := true } }

/-- `not_executed` is kept once it is noted. -/
def noteTransportEvidence (evidence : ExecutionEvidence) : InvocationState :=
  if state.facts.transportEvidence = some .notExecuted then state
  else { state with facts := { state.facts with transportEvidence := some evidence } }

def settle : InvocationState := { state with current := .settled }

end InvocationState

/-! ## The mapping -/

/-- `ADP_UNCONFIRMED_ERROR_CODES`. -/
def unconfirmedErrorCodes : List String :=
  ["DRIVER_OUTCOME_UNKNOWN", "EXTERNAL_DRIVER_TRANSPORT_ERROR", "DRIVER_RUNTIME_INVOKER_ERROR"]

/-- How an attempt ends: with a result, or with an error that is thrown. -/
inductive AttemptEnding where
  | returned (execution : DriverRunResult)
  | threw (error : DriverThrown)

/-- `AdpMappedOutcome`. -/
structure MappedOutcome where
  status : AdpStatus
  error : Option ProtocolError
  summary : String
  notes : List String

namespace InvocationEvidence

variable (evidence : InvocationEvidence)

def hasNotExecutedEvidence : Bool :=
  !evidence.dispatched || evidence.transportEvidence = some .notExecuted

/-- `evidenceNotes`. -/
def notes : List String :=
  ["dispatched=" ++ toString evidence.dispatched] ++
    (evidence.transportEvidence.map fun e => "transport_evidence=" ++ e.text).toList ++
    (if evidence.effectsObserved then ["effects_observed=true"] else []) ++
    (if evidence.cancelRequested then ["cancel_requested=true"] else [])

end InvocationEvidence

def firstLine (text : String) : String :=
  let line := text.takeWhile (· ≠ '\n') |>.toString
  if 200 < line.length then (line.take 197).toString ++ "..." else line

/-- The message, or what stands in for an empty one. -/
def orDefault (message other : String) : String := if message = "" then other else message

def unknownError (message : String) : ProtocolError where
  code := "DRIVER_OUTCOME_UNKNOWN"
  message
  retryable := false

def startFailure (message : String) (notes : List String) : MappedOutcome where
  status := .failed
  error := some
    { code := "DRIVER_START_FAILED"
      message := orDefault message "driver failed to start"
      retryable := true }
  summary := "driver failed to start: " ++ orDefault message "no detail"
  notes := notes ++ ["clear evidence of non-execution → failed (start failure)"]

/-- A result with status `failed`. -/
def mapFailed (execution : DriverRunResult) (notExecuted : Bool) (notes : List String) :
    MappedOutcome :=
  let code := (execution.error.map (·.code)).getD "DRIVER_FAILED"
  let message := execution.error.map (·.message)
  if code = "DRIVER_START_FAILED" then startFailure (message.getD "driver failed to start") notes
  else if code ∈ unconfirmedErrorCodes ∧ notExecuted = false then
    { status := .unknown
      error := some (unknownError (message.getD ("driver outcome unconfirmed (" ++ code ++ ")")))
      summary := "outcome unknown: " ++ message.getD code
      notes := notes ++ ["unconfirmed transport outcome (" ++ code ++ ") → unknown"] }
  else
    { status := .failed
      error := some
        { code
          message := message.getD "driver invocation failed"
          retryable := (execution.error.map (·.retryable)).getD false }
      summary := message.getD "driver invocation failed"
      notes }

def mapResult (execution : DriverRunResult) (evidence : InvocationEvidence) (notExecuted : Bool)
    (notes : List String) : MappedOutcome :=
  let message := execution.error.map (·.message)
  match execution.status with
  | .succeeded =>
      let response := execution.response.filter (· ≠ "")
      { status := .succeeded
        error := none
        summary := (response.map firstLine).getD "driver invocation succeeded"
        notes }
  | .cancelled =>
      { status := .cancelled
        error := none
        summary := message.getD "driver invocation cancelled"
        notes := notes ++ ["driver confirmed cancellation"] }
  | .interrupted =>
      if evidence.effectsObserved then
        { status := .unknown
          error := some (unknownError
            "driver run interrupted with side effects observed; outcome cannot be confirmed")
          summary := "outcome unknown: interrupted mid-flight with observed side effects"
          notes := notes ++ ["interrupted with observed side effects → unknown"] }
      else
        { status := .cancelled
          error := none
          summary := message.getD "driver run interrupted before any side effect"
          notes := notes ++ ["interrupted without observed side effects → cancelled"] }
  | .failed => mapFailed execution notExecuted notes

/-- The note of a cancellation that came before any driver ran. -/
def cancelledBeforeDispatch : String := "cancelled before dispatch → cancelled"

def mapThrown (message : String) (evidence : InvocationEvidence) (notExecuted : Bool)
    (notes : List String) : MappedOutcome :=
  if notExecuted then
    if evidence.cancelRequested then
      { status := .cancelled
        error := none
        summary := "cancelled before dispatch; driver never executed"
        notes := notes ++ [cancelledBeforeDispatch] }
    else startFailure message notes
  else if evidence.cancelRequested then
    if evidence.effectsObserved then
      { status := .unknown
        error := some (unknownError
          ("cancelled mid-flight with unclear side effects: " ++ message))
        summary := "outcome unknown: cancelled after side effects were observed"
        notes := notes ++ ["cancel after dispatch with observed effects → unknown"] }
    else
      { status := .cancelled
        error := none
        summary := "cancelled after dispatch without observed side effects"
        notes := notes ++ ["cancel after dispatch without observed effects → cancelled"] }
  else
    { status := .unknown
      error := some (unknownError (orDefault message "driver outcome could not be confirmed"))
      summary := "outcome unknown: " ++
        orDefault message "driver outcome could not be confirmed"
      notes := notes ++ ["post-dispatch failure without confirmation → unknown"] }

def mapAdpOutcome (ending : AttemptEnding) (evidence : InvocationEvidence) : MappedOutcome :=
  let notExecuted := evidence.hasNotExecutedEvidence
  match ending with
  | .returned execution => mapResult execution evidence notExecuted evidence.notes
  | .threw error => mapThrown error.message evidence notExecuted evidence.notes

/-! ## Retry policies -/

/-- `shouldAutoRetry`. -/
abbrev RetryPolicy := AdpStatus → AdpSideEffect → Bool

def isTruthy (value : Option String) : Bool :=
  value.any fun text => text.trimAscii.toString.toLower ∈ ["1", "true", "yes", "on"]

/-- `ENV_KEYS`. -/
def envKey : AdpSideEffect → String
  | .readOnly => "NEWIDE_ADP_AUTO_RETRY_READ_ONLY"
  | .workspaceWrite => "NEWIDE_ADP_AUTO_RETRY_WORKSPACE_WRITE"
  | .external => "NEWIDE_ADP_AUTO_RETRY_EXTERNAL"

def createAdpRetryPolicy (overrides : AdpSideEffect → Option Bool) (env : String → Option String) :
    RetryPolicy := fun status sideEffect =>
  let autoRetry := (overrides sideEffect).getD (isTruthy (env (envKey sideEffect)))
  if status ≠ .failed then false else autoRetry

/-! ## What the mapping decides on -/

/-- An outcome that says that no driver ran. -/
def MappedOutcome.ReportsNeverExecuted (mapped : MappedOutcome) : Prop :=
  mapped.error.map (·.code) = some "DRIVER_START_FAILED" ∨
    cancelledBeforeDispatch ∈ mapped.notes

instance (mapped : MappedOutcome) : Decidable mapped.ReportsNeverExecuted :=
  inferInstanceAs (Decidable (_ ∨ _))

namespace DriverRunResult

variable (execution : DriverRunResult)

def code : String := (execution.error.map (·.code)).getD "DRIVER_FAILED"

def StartFailed : Prop := execution.status = .failed ∧ execution.code = "DRIVER_START_FAILED"

/-- A failed result that leaves open what the driver did. -/
def Unconfirmed : Prop := execution.status = .failed ∧ execution.code ∈ unconfirmedErrorCodes

instance : Decidable execution.StartFailed := inferInstanceAs (Decidable (_ ∧ _))

instance : Decidable execution.Unconfirmed := inferInstanceAs (Decidable (_ ∧ _))

end DriverRunResult

section Mapping

variable {execution : DriverRunResult} {error : DriverThrown} {evidence : InvocationEvidence}

theorem startFailed_confirmed (h : execution.code = "DRIVER_START_FAILED") :
    execution.code ∉ unconfirmedErrorCodes := by
  rw [h]
  decide

section Failed

variable (notExecuted : Bool) (notes : List String)

theorem mapFailed_start (h : execution.code = "DRIVER_START_FAILED") :
    ∃ message, mapFailed execution notExecuted notes = startFailure message notes :=
  ⟨_, if_pos h⟩

theorem mapFailed_unconfirmed (hstart : execution.code ≠ "DRIVER_START_FAILED")
    (h : execution.code ∈ unconfirmedErrorCodes ∧ notExecuted = false) :
    ∃ message summary, mapFailed execution notExecuted notes =
      { status := .unknown
        error := some (unknownError message)
        summary
        notes := notes ++ ["unconfirmed transport outcome (" ++ execution.code ++ ") → unknown"] } :=
  ⟨_, _, (if_neg hstart).trans (if_pos h)⟩

theorem mapFailed_confirmed (hstart : execution.code ≠ "DRIVER_START_FAILED")
    (h : ¬ (execution.code ∈ unconfirmedErrorCodes ∧ notExecuted = false)) :
    ∃ message summary retryable, mapFailed execution notExecuted notes =
      { status := .failed
        error := some { code := execution.code, message, retryable }
        summary
        notes } :=
  ⟨_, _, _, (if_neg hstart).trans (if_neg h)⟩

theorem mapFailed_status : (mapFailed execution notExecuted notes).status = .failed ↔
    ¬ (execution.code ∈ unconfirmedErrorCodes ∧ notExecuted = false) := by
  by_cases hstart : execution.code = "DRIVER_START_FAILED"
  · obtain ⟨_, heq⟩ := mapFailed_start notExecuted notes hstart
    have hconfirmed := startFailed_confirmed hstart
    rw [heq]
    simp [startFailure, hconfirmed]
  · by_cases hcode : execution.code ∈ unconfirmedErrorCodes ∧ notExecuted = false
    · obtain ⟨_, _, heq⟩ := mapFailed_unconfirmed notExecuted notes hstart hcode
      rw [heq]
      simp [hcode]
    · obtain ⟨_, _, _, heq⟩ := mapFailed_confirmed notExecuted notes hstart hcode
      rw [heq]
      simpa using hcode

end Failed

theorem mapAdpOutcome_returned_failed :
    (mapAdpOutcome (.returned execution) evidence).status = .failed ↔ execution.status = .failed ∧
      ¬ (execution.Unconfirmed ∧ evidence.hasNotExecutedEvidence = false) := by
  change (mapResult execution evidence evidence.hasNotExecutedEvidence evidence.notes).status = _ ↔ _
  unfold mapResult
  cases hstatus : execution.status with
  | succeeded => simp
  | cancelled => simp
  | interrupted =>
      simp only [reduceCtorEq, false_and, iff_false]
      split <;> simp
  | failed =>
      simp only [mapFailed_status, DriverRunResult.Unconfirmed, hstatus, true_and]

theorem mapAdpOutcome_threw_failed :
    (mapAdpOutcome (.threw error) evidence).status = .failed ↔
      evidence.hasNotExecutedEvidence = true ∧ evidence.cancelRequested = false := by
  change (mapThrown error.message evidence evidence.hasNotExecutedEvidence evidence.notes).status
    = _ ↔ _
  unfold mapThrown
  cases evidence.hasNotExecutedEvidence with
  | true =>
      cases evidence.cancelRequested <;> simp [startFailure]
  | false =>
      cases evidence.cancelRequested with
      | true => cases evidence.effectsObserved <;> simp
      | false => simp

theorem not_mem_notes : cancelledBeforeDispatch ∉ evidence.notes := by
  unfold InvocationEvidence.notes cancelledBeforeDispatch
  cases evidence.dispatched <;> cases evidence.effectsObserved <;>
    cases evidence.cancelRequested <;> cases evidence.transportEvidence with
  | none => decide
  | some e => cases e <;> decide

/-- A note that begins otherwise does not say that the cancellation came before any driver ran. -/
theorem never_noted {note : String} (h : cancelledBeforeDispatch ≠ note) :
    cancelledBeforeDispatch ∉ evidence.notes ++ [note] := by
  simp [not_mem_notes, h]

theorem unconfirmed_noted (h : execution.code ∈ unconfirmedErrorCodes) : cancelledBeforeDispatch ≠
    "unconfirmed transport outcome (" ++ execution.code ++ ") → unknown" := by
  simp only [unconfirmedErrorCodes, List.mem_cons, List.not_mem_nil, or_false] at h
  rcases h with hcode | hcode | hcode <;> rw [hcode] <;> decide

theorem mapFailed_never {notExecuted : Bool} :
    (mapFailed execution notExecuted evidence.notes).ReportsNeverExecuted ↔
      execution.code = "DRIVER_START_FAILED" := by
  unfold MappedOutcome.ReportsNeverExecuted
  by_cases hstart : execution.code = "DRIVER_START_FAILED"
  · obtain ⟨_, heq⟩ := mapFailed_start notExecuted evidence.notes hstart
    rw [heq]
    simp [startFailure, hstart]
  · by_cases hcode : execution.code ∈ unconfirmedErrorCodes ∧ notExecuted = false
    · obtain ⟨_, _, heq⟩ := mapFailed_unconfirmed notExecuted evidence.notes hstart hcode
      have hnoted : cancelledBeforeDispatch ∉ evidence.notes ++ _ :=
        never_noted (unconfirmed_noted hcode.1)
      rw [heq]
      simp only [hnoted, hstart, or_false, iff_false]
      simp [unknownError]
    · obtain ⟨_, _, _, heq⟩ := mapFailed_confirmed notExecuted evidence.notes hstart hcode
      rw [heq]
      simp [not_mem_notes, hstart]

theorem mapAdpOutcome_returned_never :
    (mapAdpOutcome (.returned execution) evidence).ReportsNeverExecuted ↔
      execution.StartFailed := by
  change MappedOutcome.ReportsNeverExecuted
    (mapResult execution evidence evidence.hasNotExecutedEvidence evidence.notes) ↔ _
  unfold mapResult DriverRunResult.StartFailed
  cases hstatus : execution.status with
  | succeeded => simp [MappedOutcome.ReportsNeverExecuted, not_mem_notes]
  | cancelled =>
      have hnoted : cancelledBeforeDispatch ∉ evidence.notes ++ ["driver confirmed cancellation"] :=
        never_noted (by decide)
      simp only [MappedOutcome.ReportsNeverExecuted, hnoted]
      simp
  | interrupted =>
      simp only [reduceCtorEq, false_and, iff_false]
      split
      · have hnoted : cancelledBeforeDispatch ∉ evidence.notes ++
            ["interrupted with observed side effects → unknown"] := never_noted (by decide)
        simp only [MappedOutcome.ReportsNeverExecuted, hnoted]
        simp [unknownError]
      · have hnoted : cancelledBeforeDispatch ∉ evidence.notes ++
            ["interrupted without observed side effects → cancelled"] := never_noted (by decide)
        simp only [MappedOutcome.ReportsNeverExecuted, hnoted]
        simp
  | failed =>
      simp only [mapFailed_never, true_and]

theorem mapAdpOutcome_threw_never :
    (mapAdpOutcome (.threw error) evidence).ReportsNeverExecuted ↔
      evidence.hasNotExecutedEvidence = true := by
  change MappedOutcome.ReportsNeverExecuted
    (mapThrown error.message evidence evidence.hasNotExecutedEvidence evidence.notes) ↔ _
  unfold mapThrown MappedOutcome.ReportsNeverExecuted
  cases evidence.hasNotExecutedEvidence with
  | true => cases evidence.cancelRequested <;> simp [startFailure]
  | false =>
      have hnever : cancelledBeforeDispatch ∉ evidence.notes := not_mem_notes
      unfold cancelledBeforeDispatch at hnever ⊢
      cases evidence.cancelRequested with
      | true => cases evidence.effectsObserved <;> simp [unknownError, hnever]
      | false => simp [unknownError, hnever]

end Mapping

end Newide.Driver
