import Newide.BridgeScripts

/-!
# The SAP bridge

The scripts of `src/coordination/sap-task-bridge.ts` over the delivery
tables.  A public method is one transaction, so it is the script itself;
the methods that also commit a coordination state are put together in
`ProtocolPort`.  The clock reading of a method is an argument.
-/

namespace Newide

open Fallible Transaction Delivery

structure SapExecuteDispatch where
  outboxId : String
  destination : String
  frame : SapExecuteFrame

def sampleDispatch : SapExecuteDispatch where
  outboxId := "outbox_x"
  destination := "coder"
  frame := sampleExecute

def SapExecuteDispatch.inboxKey (dispatch : SapExecuteDispatch) : ProtocolInboxKey where
  consumerId := dispatch.destination
  protocol := .systemAgent
  exchangeId := dispatch.frame.exchangeId

structure SapExecutionAdmission where
  shouldExecute : Bool
  executeInbox : ProtocolInboxRecord
  executeOutbox : ProtocolOutboxRecord
  leaseOwner : String

inductive SapResultDisposition where
  | accepted | duplicate | late
deriving DecidableEq

def SapResultDisposition.text : SapResultDisposition → String
  | .accepted => "accepted"
  | .duplicate => "duplicate"
  | .late => "late"

/-- `minTimestamp` of the SAP bridge. -/
def minTimestamp (left right : Timestamp) : Timestamp :=
  if left ≤ right then left else right

theorem minTimestamp_le_right (left right : Timestamp) : minTimestamp left right ≤ right := by
  unfold minTimestamp
  split
  next h => exact h
  next => exact le_refl right

namespace Sap

def cancelOutboxId (exchangeId : String) : String :=
  "outbox_sap_cancel_" ++ exchangeId

structure ExecuteInput where
  taskId : String
  runId : String
  roleId : String
  instruction : String
  instructionRef : Option String := none
  councilSeat : Option String := none
  deadlineAt : Option Timestamp := none
  exchangeId : Option String := none

/-- `createExecute`; `newId` is the id `create_id('sap_execute')` would return. -/
def createExecute (options : BridgeOptions) (now : Timestamp) (newId : String)
    (input : ExecuteInput) : Except Thrown SapExecuteDispatch := do
  let exchangeId := input.exchangeId.getD newId
  let frame : SapExecuteFrame :=
    { exchangeId
      taskId := input.taskId
      runId := input.runId
      consumerRoleId := some input.roleId
      createdAt := now
      deadlineAt := input.deadlineAt.getD (options.deadlineAfter now)
      councilSeat := input.councilSeat
      instruction := { text := input.instruction, ref := input.instructionRef } }
  let _ ← parseProtocolFrame frame.toFrame
  return { outboxId := "outbox_" ++ exchangeId, destination := input.roleId, frame }

structure ResultInput where
  execute : SapExecuteFrame
  status : ReceiptStatus
  summary : String
  error : Option ProtocolError := none
  exchangeId : Option String := none

def createResult (now : Timestamp) (newId : String) (input : ResultInput) :
    Except Thrown SapResultFrame := do
  let frame : SapResultFrame :=
    { exchangeId := input.exchangeId.getD newId
      causationId := some input.execute.exchangeId
      taskId := input.execute.taskId
      runId := input.execute.runId
      producerRoleId := input.execute.consumerRoleId
      createdAt := now
      deadlineAt := input.execute.deadlineAt
      status := input.status
      summary := input.summary
      error := input.error }
  let _ ← parseProtocolFrame frame.toFrame
  return frame

def createCancel (now : Timestamp) (execute : SapExecuteFrame)
    (exchangeId : Option String := none) : Except Thrown SapCancelFrame := do
  let frame : SapCancelFrame :=
    { exchangeId := exchangeId.getD ("sap_cancel_" ++ execute.exchangeId)
      targetExchangeId := execute.exchangeId
      taskId := execute.taskId
      runId := execute.runId
      consumerRoleId := execute.consumerRoleId
      createdAt := now
      deadlineAt := execute.deadlineAt }
  let _ ← parseProtocolFrame frame.toFrame
  return frame

/-- `getDispatch`: the execute an outbox row holds. -/
def getDispatch (d : ProtocolDelivery) (outboxId : String) : Option SapExecuteDispatch := do
  let outbox ← (d.outboxRow outboxId).map ProtocolOutboxRecord.read
  let frame ← SapExecuteFrame.ofFrame? outbox.frame
  return { outboxId := outbox.id, destination := outbox.destination, frame }

/-- `requireOutbox` of the bridge. -/
def requireOutbox (outboxId : String) : Delivery ProtocolOutboxRecord :=
  requireBridgeOutbox "SAP" outboxId

/-! ## Executes -/

/-- `enqueueExecute`, and `persistExecute` as a transaction of its own. -/
def enqueueExecute (dispatch : SapExecuteDispatch) : Delivery ProtocolOutboxRecord := do
  match ← getOutbox dispatch.outboxId with
  | some existing =>
      lift (ensure (existing.exchangeId = dispatch.frame.exchangeId)
        (.error ("SAP outbox " ++ dispatch.outboxId ++ " conflicts with another exchange")))
      return existing
  | none =>
      enqueueOutbox
        { id := dispatch.outboxId
          destination := dispatch.destination
          frame := dispatch.frame.toFrame }

def leaseOwner (dispatch : SapExecuteDispatch) : String :=
  "sap-agent:" ++ dispatch.frame.consumerRoleId.getD "null" ++ ":" ++ dispatch.frame.exchangeId

/-- The expiry of the lease an admission at `now` grants. -/
def leaseExpiresAt (options : BridgeOptions) (now : Timestamp) (dispatch : SapExecuteDispatch) :
    Timestamp :=
  minTimestamp (options.leaseAfter now) dispatch.frame.deadlineAt

/-- The exits of `beginExecute` for an exchange that is already settled. -/
def refuseSettled (dispatch : SapExecuteDispatch) (existing : ProtocolInboxRecord) :
    Delivery SapExecutionAdmission := do
  let outbox ← requireOutbox dispatch.outboxId
  return { shouldExecute := false, executeInbox := existing, executeOutbox := outbox
           leaseOwner := leaseOwner dispatch }

/-- The exit of `beginExecute` for a redelivery: the inbox row is claimed again. -/
def reclaimExecute (options : BridgeOptions) (now : Timestamp) (dispatch : SapExecuteDispatch)
    (existing : ProtocolInboxRecord) : Delivery SapExecutionAdmission := do
  let outbox ← requireOutbox dispatch.outboxId
  let reclaimed ← claimInbox existing.key (leaseOwner dispatch) now
    (leaseExpiresAt options now dispatch) existing.revision
  return { shouldExecute := reclaimed.isSome, executeInbox := reclaimed.getD existing
           executeOutbox := outbox, leaseOwner := leaseOwner dispatch }

/-- The exits of `beginExecute` for a first delivery. -/
def deliverExecute (options : BridgeOptions) (now : Timestamp) (dispatch : SapExecuteDispatch) :
    Delivery SapExecutionAdmission := do
  let outbox ← requireOutbox dispatch.outboxId
  let claimedOutbox ← claimOutbox dispatch.outboxId (leaseOwner dispatch) now
    (leaseExpiresAt options now dispatch) outbox.revision
  let received ← receiveInbox dispatch.destination dispatch.frame.toFrame now
  match claimedOutbox with
  | none =>
      return { shouldExecute := false, executeInbox := received.1, executeOutbox := outbox
               leaseOwner := leaseOwner dispatch }
  | some claimedOutbox =>
      let claimedInbox ← claimInbox received.1.key (leaseOwner dispatch) now
        (leaseExpiresAt options now dispatch) received.1.revision
      match claimedInbox with
      | none =>
          return { shouldExecute := false, executeInbox := received.1
                   executeOutbox := claimedOutbox, leaseOwner := leaseOwner dispatch }
      | some claimedInbox =>
          let sent ← markOutboxSent dispatch.outboxId (leaseOwner dispatch)
            claimedOutbox.revision now
          return { shouldExecute := true, executeInbox := claimedInbox, executeOutbox := sent
                   leaseOwner := leaseOwner dispatch }

/-- `beginExecute`.  A cancel is looked up only once the execute has been delivered. -/
def beginExecute (options : BridgeOptions) (now : Timestamp) (dispatch : SapExecuteDispatch) :
    Delivery SapExecutionAdmission := do
  match ← getInbox dispatch.inboxKey with
  | some existing =>
      let cancel ← getOutbox (cancelOutboxId dispatch.frame.exchangeId)
      if existing.status = .complete ∨ cancel.isSome = true then
        refuseSettled dispatch existing
      else
        reclaimExecute options now dispatch existing
  | none => deliverExecute options now dispatch

/-! ## Results -/

/-- The disposition of a result, from the inbox row of its execute and whether a cancel of it is
known. -/
def disposition (admission : SapExecutionAdmission) (result : SapResultFrame)
    (current : Option ProtocolInboxRecord) (cancelled : Bool) : SapResultDisposition :=
  match current.filter fun row => row.status = .complete with
  | some row => if row.replyExchangeId = some result.exchangeId then .duplicate else .late
  | none =>
      if cancelled = true ∨ admission.executeInbox.frame.deadlineAt < result.createdAt then .late
      else .accepted

/-- `classifyResultInTransaction`. -/
def classifyResult (admission : SapExecutionAdmission) (result : SapResultFrame) :
    Delivery SapResultDisposition := do
  lift (ensure (result.causationId = some admission.executeInbox.exchangeId)
    (.error "SAP result does not belong to the admitted execute exchange"))
  let current ← getInbox admission.executeInbox.key
  let cancel ← getOutbox (cancelOutboxId admission.executeInbox.exchangeId)
  return disposition admission result current cancel.isSome

def resultOutboxId (result : SapResultFrame) : String :=
  "outbox_" ++ result.exchangeId

def systemOwner (result : SapResultFrame) : String :=
  "sap-system:" ++ result.exchangeId

/-- The rest of `completeResultTransaction`: the reply is claimed, sent, received by the system
and completed there, each of which has to go through. -/
def deliverAccepted (options : BridgeOptions) (result : SapResultFrame) : Delivery PUnit := do
  let replyOutbox ← requireOutbox (resultOutboxId result)
  let replyLeaseExpiresAt := minTimestamp (options.leaseAfter result.createdAt) result.deadlineAt
  let claimedReply ← lift (orThrow (← claimOutbox replyOutbox.id (systemOwner result)
    result.createdAt replyLeaseExpiresAt replyOutbox.revision)
    (.error ("SAP result " ++ result.exchangeId ++ " could not be claimed")))
  let _ ← markOutboxSent claimedReply.id (systemOwner result) claimedReply.revision
    result.createdAt
  let systemInbox ← receiveInbox "system" result.toFrame result.createdAt
  let claimedInbox ← lift (orThrow (← claimInbox systemInbox.1.key (systemOwner result)
    result.createdAt replyLeaseExpiresAt systemInbox.1.revision)
    (.error ("SAP result " ++ result.exchangeId ++ " was already processed")))
  let _ ← completeInbox
    { key := claimedInbox.key
      leaseOwner := systemOwner result
      expectedRevision := claimedInbox.revision
      completedAt := result.createdAt }

/-- `completeResultTransaction`: the agent inbox row is completed with the result as its reply,
which is then delivered to the system. -/
def completeResult (options : BridgeOptions) (admission : SapExecutionAdmission)
    (result : SapResultFrame) : Delivery PUnit := do
  lift (ensure (result.causationId = some admission.executeInbox.exchangeId)
    (.error "SAP result does not belong to the admitted execute exchange"))
  let _ ← completeInbox
    { key := admission.executeInbox.key
      leaseOwner := admission.leaseOwner
      expectedRevision := admission.executeInbox.revision
      completedAt := result.createdAt
      reply := some
        { id := resultOutboxId result, destination := "system", frame := result.toFrame } }
  deliverAccepted options result

def deliverResultToSystem (options : BridgeOptions) (result : SapResultFrame) : Delivery PUnit :=
  deliverToSystem options "SAP" (systemOwner result) (resultOutboxId result) result.toFrame

/-- `completeLateResultTransaction`. -/
def completeLateResult (options : BridgeOptions) (result : SapResultFrame) : Delivery PUnit := do
  match ← getOutbox (resultOutboxId result) with
  | some _ => deliverResultToSystem options result
  | none =>
      let _ ← enqueueOutbox
        { id := resultOutboxId result, destination := "system", frame := result.toFrame }
      deliverResultToSystem options result

def acceptResult (options : BridgeOptions) (admission : SapExecutionAdmission)
    (result : SapResultFrame) : Delivery SapResultDisposition := do
  match ← classifyResult admission result with
  | .accepted =>
      completeResult options admission result
      return .accepted
  | .late =>
      completeLateResult options result
      return .late
  | .duplicate => return .duplicate

def recordLateResult (options : BridgeOptions) (admission : SapExecutionAdmission)
    (result : SapResultFrame) : Delivery PUnit := do
  let disposition ← classifyResult admission result
  if disposition = .late then
    completeLateResult options result

/-- The check `commitResult` makes before it commits the coordination state. -/
def requireAccepted (admission : SapExecutionAdmission) (result : SapResultFrame) :
    Delivery PUnit := do
  let disposition ← classifyResult admission result
  lift (ensure (disposition = .accepted)
    (.error ("SAP result " ++ result.exchangeId ++ " is " ++ disposition.text)))

/-! ## Cancels -/

/-- `enqueueCancel`: a cancel is enqueued once. -/
def enqueueCancel (dispatch : SapExecuteDispatch) (cancel : SapCancelFrame) : Delivery PUnit := do
  match ← getOutbox ("outbox_" ++ cancel.exchangeId) with
  | some _ => return
  | none =>
      let _ ← enqueueOutbox
        { id := "outbox_" ++ cancel.exchangeId
          destination := dispatch.destination
          frame := cancel.toFrame }

end Sap

end Newide
