import Newide.Memory.DeliveryClaim
import Newide.Memory.FeedbackRecords
import Newide.Memory.MemoryEffects

/-!
# The feedback processor

`src/memory/runtime/driver-feedback-processor.ts`: `process` takes one
delivery of the feedback outbox, `reconcile` one record of the parking
lot.  Both apply the feedback to the Experience it names, under the lease
of their record; `process` parks it when there is no such Experience yet.

A call stops at each of its calls of the two stores.  Any number of them
run interleaved, next to claims, renewals, restores and manual retries by
anybody.  A call that crashes takes no further step.
-/

namespace Newide.Memory

open Fallible

/-! ## One call -/

inductive FeedbackChannel where
  | feedback | pendingFeedback
deriving DecidableEq

inductive FeedbackApplication where
  | applied | alreadyApplied | parked
deriving DecidableEq

inductive FeedbackStatus where
  | completed | retried | deadLetter | skipped | failed
deriving DecidableEq

structure FeedbackProcessOutcome where
  status : FeedbackStatus
  application : Option FeedbackApplication := none
  failure : Option DeliveryFailureClassification := none
deriving DecidableEq

inductive ApplyAttempt where
  | done (outcome : ExperienceFeedbackOutcome)
  | failed (failure : DeliveryFailureClassification)
deriving DecidableEq

inductive FeedbackPoint where
  | applying
  | parking
  /-- The heartbeat is stopped. -/
  | stopping (attempt : ApplyAttempt)
  | completing (outcome : ExperienceFeedbackOutcome)
  /-- `settleFailure`. -/
  | failing (failure : DeliveryFailureClassification)
  /-- Nothing comes back when a last call has thrown. -/
  | finished (outcome : Option FeedbackProcessOutcome)
deriving DecidableEq

structure FeedbackCall where
  channel : FeedbackChannel
  key : DeliveryKey
  token : String
  workerId : String
  content : DriverFeedbackContent
  /-- A renewal was refused, or has thrown. -/
  lost : Bool := false
  point : FeedbackPoint

/-- Without a token nobody could write the end of the record. -/
def missingClaimToken (feedbackId : String) : FeedbackProcessOutcome where
  status := .failed
  failure := some (knownDeliveryFailure .unknown ("Claimed feedback " ++ feedbackId
    ++ " carries no claim_token; refusing to process it (the claim lease is the only thing "
    ++ "fencing this write).") false)

/-- `process` up to its first call. -/
def beginProcess (runtime : FeedbackRuntime) (workerId : String)
    (delivery : DeliveryCandidate DriverFeedbackContent) : FeedbackCall :=
  let content := delivery.record.item
  { channel := .feedback
    key := delivery.key
    token := delivery.record.claimToken.getD ""
    workerId
    content
    point :=
      if delivery.record.claimToken.all (· = "") then
        .finished (some (missingClaimToken content.feedbackId))
      else
        match validateFeedback runtime content with
        | some invalid => .failing invalid
        | none => .applying }

def pendingFeedbackBindingMismatches (key : DeliveryKey) (pending : PendingFeedback) :
    List (String × String × String) :=
  [("feedback_id", key.2, pending.feedback.feedbackId),
    ("role_id", key.1, pending.feedback.roleId),
    ("experience_id", pending.experienceId, pending.feedback.experienceId)].filter
      fun field => field.2.1 ≠ field.2.2

def describePendingFeedbackBindingMismatch (feedbackId : String)
    (mismatches : List (String × String × String)) : String :=
  let fields := mismatches.map fun field =>
    field.1 ++ "=" ++ field.2.1 ++ " (top-level) vs " ++ field.2.2 ++ " (feedback payload)"
  "Pending feedback " ++ feedbackId ++ " contradicts its own payload on "
    ++ ", ".intercalate (mismatches.map (·.1)) ++ ": " ++ "; ".intercalate fields ++ "."

/-- `reconcile` up to its first call. -/
def beginReconcile (runtime : FeedbackRuntime) (workerId : String)
    (pending : DeliveryCandidate PendingFeedback) : FeedbackCall :=
  let content := pending.record.item.feedback
  let mismatches := pendingFeedbackBindingMismatches pending.key pending.record.item
  { channel := .pendingFeedback
    key := pending.key
    token := pending.record.claimToken.getD ""
    workerId
    content
    point :=
      if pending.record.claimToken.all (· = "") then
        .finished (some (missingClaimToken pending.id))
      else if mismatches ≠ [] then
        .failing (payloadFailure (describePendingFeedbackBindingMismatch pending.id mismatches))
      else
        match validateFeedback runtime content with
        | some invalid => .failing invalid
        | none => .applying }

/-! ## The system -/

structure FeedbackState where
  repository : MemoryRepository := {}
  outbox : DeliveryStore DriverFeedbackContent := { candidates := [], distinct := Rows.Distinct.nil }
  pending : DeliveryStore PendingFeedback := { candidates := [], distinct := Rows.Distinct.nil }
  claimedFeedback : List (DeliveryCandidate DriverFeedbackContent) := []
  claimedPending : List (DeliveryCandidate PendingFeedback) := []
  calls : List FeedbackCall := []

/-- What does not change: the runtime, the retry policies and the version of the processor. -/
structure FeedbackOptions where
  runtime : FeedbackRuntime
  feedbackPolicy : DeliveryRetryPolicy
  pendingPolicy : DeliveryRetryPolicy
  processorVersion : Option String := none

/-- A call anybody may make on a queue; completions and failures come from the processor alone. -/
def DeliveryCall.isQueue : DeliveryCall → Bool
  | .complete .. => false
  | .fail .. => false
  | _ => true

inductive FeedbackLabel where
  | ensureAgent (roleId : String)
  | saveExperience (roleId : String) (experience : { e : ExperienceRecord // e.New })
  | submitFeedback (content : DriverFeedbackContent) (now : Time)
  | feedbackQueue (step : DeliveryStep)
  | pendingQueue (step : DeliveryStep)
  /-- A worker begins with a delivery that was claimed. -/
  | process (claim : Nat) (workerId : String)
  | reconcile (claim : Nat) (workerId : String)
  /-- The next call of a call; `locks` are the record locks it gets. -/
  | advance (index : Nat) (locks : Locks) (now : Time)
  | thrown (index : Nat) (e : ThrownError)
  | loseLease (index : Nat)

namespace FeedbackState

def moveTo (s : FeedbackState) (index : Nat) (call : FeedbackCall) (point : FeedbackPoint) :
    FeedbackState :=
  { s with calls := s.calls.set index { call with point } }

def skipped : FeedbackProcessOutcome where
  status := .skipped

def applicationOf : ExperienceFeedbackOutcome → FeedbackApplication
  | .applied => .applied
  | .alreadyApplied => .alreadyApplied
  | .experienceMissing => .parked

/-- The point after the heartbeat has stopped: a lost lease writes nothing. -/
def afterLease (call : FeedbackCall) : ApplyAttempt → FeedbackPoint
  | attempt =>
      if call.lost then .finished (some skipped)
      else
        match attempt with
        | .failed failure => .failing failure
        | .done outcome =>
            if call.channel = .pendingFeedback ∧ outcome = .experienceMissing then
              .failing (knownDeliveryFailure .unknown ("experience_missing: Experience "
                ++ call.content.experienceId ++ " has not appeared yet.") true)
            else .completing outcome

def completed {α : Type} (outcome : ExperienceFeedbackOutcome) :
    Option (DeliveryRecord α) → FeedbackProcessOutcome
  | some _ => { status := .completed, application := some (applicationOf outcome) }
  | none =>
      { status := .failed
        failure := some (knownDeliveryFailure .unknown
          "Delivery acknowledgement was rejected: the claim token is no longer valid." true) }

def settled {α : Type} (failure : DeliveryFailureClassification) :
    Option (DeliveryRecord α) → FeedbackProcessOutcome
  | some record =>
      { status := if record.status = .deadLetter then .deadLetter else .retried
        failure := some failure }
  | none => { status := .failed, failure := some failure }

def holder (call : FeedbackCall) (now : Time) : HolderInput where
  claimToken := call.token
  owner := some call.workerId
  now := now

def settle (options : FeedbackOptions) (s : FeedbackState) (index : Nat) (call : FeedbackCall)
    (locks : Locks) (move : DeliveryMove)
    (outcome : {α : Type} → Option (DeliveryRecord α) → FeedbackProcessOutcome) : FeedbackState :=
  match call.channel with
  | .feedback =>
      match mutateRecord options.feedbackPolicy locks s.outbox call.key move with
      | .error _ => s.moveTo index call (.finished none)
      | .ok (answer, outbox) =>
          { s with outbox }.moveTo index call (.finished (some (outcome answer)))
  | .pendingFeedback =>
      match mutateRecord options.pendingPolicy locks s.pending call.key move with
      | .error _ => s.moveTo index call (.finished none)
      | .ok (answer, pending) =>
          { s with pending }.moveTo index call (.finished (some (outcome answer)))

/-- The failure of an application; the code is that of the storage whatever was thrown. -/
def applyFailure (e : ThrownError) : DeliveryFailureClassification :=
  let classified := classifyDeliveryFailure e
  knownDeliveryFailure .storageError classified.message classified.retryable

def parkFailure (feedbackId : String) (e : ThrownError) : DeliveryFailureClassification :=
  let classified := classifyDeliveryFailure e
  knownDeliveryFailure .storageError
    ("Failed to park feedback " ++ feedbackId ++ " for later reconciliation: "
      ++ classified.message) classified.retryable

def advance (options : FeedbackOptions) (s : FeedbackState) (index : Nat) (call : FeedbackCall)
    (locks : Locks) (now : Time) : FeedbackState :=
  match call.point with
  | .applying =>
      match s.repository.applyExperienceFeedback call.content.roleId
        (feedbackApplicationOf call.content) now with
      | .error message => s.moveTo index call (.stopping (.failed (applyFailure (.other message))))
      | .ok (result, repository) =>
          let point : FeedbackPoint :=
            if call.channel = .feedback ∧ result.outcome = .experienceMissing then .parking
            else .stopping (.done result.outcome)
          { s with repository }.moveTo index call point
  | .parking =>
      { s with pending := s.pending.submit call.content.recordKey
                (buildPendingFeedbackRecord call.content now) }.moveTo index call
        (.stopping (.done .experienceMissing))
  | .stopping attempt => s.moveTo index call (afterLease call attempt)
  | .completing outcome =>
      s.settle options index call locks
        (.complete (holder call now) options.processorVersion) (completed outcome)
  | .failing failure =>
      s.settle options index call locks
        (.fail (holder call now) (failure.code.text ++ ": " ++ failure.message) failure.retryable)
        (settled failure)
  | .finished _ => s

/-- The call throws instead; what is thrown at the end goes up to the caller. -/
def afterThrow (call : FeedbackCall) (e : ThrownError) : FeedbackPoint :=
  match call.point with
  | .applying => .stopping (.failed (applyFailure e))
  | .parking => .stopping (.failed (parkFailure call.content.feedbackId e))
  | .stopping attempt => .stopping attempt
  | .completing _ => .finished none
  | .failing _ => .finished none
  | .finished outcome => .finished outcome

def step (options : FeedbackOptions) (s : FeedbackState) : FeedbackLabel → FeedbackState
  | .ensureAgent roleId => { s with repository := s.repository.ensureAgent roleId }
  | .saveExperience roleId experience =>
      match s.repository.saveExperienceIfAbsent roleId experience.val with
      | .ok (_, repository) => { s with repository }
      | .error _ => s
  | .submitFeedback content now =>
      { s with outbox := s.outbox.submit content.recordKey { item := content, updatedAt := now } }
  | .feedbackQueue step =>
      if step.call.isQueue then
        { s with
          outbox := s.outbox.step options.feedbackPolicy step
          claimedFeedback := s.claimedFeedback ++
            if step.call.isClaim then step.returned options.feedbackPolicy s.outbox else [] }
      else s
  | .pendingQueue step =>
      if step.call.isQueue then
        { s with
          pending := s.pending.step options.pendingPolicy step
          claimedPending := s.claimedPending ++
            if step.call.isClaim then step.returned options.pendingPolicy s.pending else [] }
      else s
  | .process claim workerId =>
      match s.claimedFeedback[claim]? with
      | some delivery =>
          { s with calls := s.calls ++ [beginProcess options.runtime workerId delivery] }
      | none => s
  | .reconcile claim workerId =>
      match s.claimedPending[claim]? with
      | some pending =>
          { s with calls := s.calls ++ [beginReconcile options.runtime workerId pending] }
      | none => s
  | .advance index locks now =>
      match s.calls[index]? with
      | some call => s.advance options index call locks now
      | none => s
  | .thrown index e =>
      match s.calls[index]? with
      | some call => s.moveTo index call (afterThrow call e)
      | none => s
  | .loseLease index =>
      match s.calls[index]? with
      | some call => { s with calls := s.calls.set index { call with lost := true } }
      | none => s

end FeedbackState

end Newide.Memory
