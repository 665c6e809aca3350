import Newide.BridgeScripts

/-!
# The AAP bridge

The scripts of `src/coordination/aap-mailbox-bridge.ts`: an ask is the
protocol view of one mailbox request, a reply its receipt.
-/

namespace Newide

open Fallible Transaction Delivery

structure AapAskDispatch where
  outboxId : String
  destination : String
  messageId : String
  deliveryId : String
  frame : AapAskFrame

def AapAskDispatch.inboxKey (dispatch : AapAskDispatch) : ProtocolInboxKey where
  consumerId := dispatch.destination
  protocol := .agentAgent
  exchangeId := dispatch.frame.exchangeId

structure AapAskAdmission where
  shouldExecute : Bool
  askInbox : ProtocolInboxRecord
  askOutbox : ProtocolOutboxRecord
  leaseOwner : String

inductive AapReplyDisposition where
  | accepted | duplicate | late

/-- The AAP bridge compares two instants by `Date.parse`. -/
structure AapOptions extends BridgeOptions where
  /-- `Date.parse(left) <= Date.parse(right)` -/
  notAfter : Timestamp → Timestamp → Bool

structure AapAskInput where
  taskId : String
  runId : String
  fromRoleId : String
  toRoleId : String
  messageId : String
  deliveryId : String
  content : String
  deadlineAt : Option Timestamp := none
  causationId : Option String := none
  exchangeId : String

namespace Aap

/-- `createAsk`.  Every caller passes an exchange id. -/
def createAsk (options : AapOptions) (now : Timestamp) (input : AapAskInput) :
    Except Thrown AapAskDispatch := do
  let frame : AapAskFrame :=
    { exchangeId := input.exchangeId
      causationId := input.causationId
      taskId := input.taskId
      runId := input.runId
      producerRoleId := some input.fromRoleId
      consumerRoleId := some input.toRoleId
      createdAt := now
      deadlineAt := input.deadlineAt.getD (options.deadlineAfter now)
      instruction := { text := input.content } }
  let _ ← parseProtocolFrame frame.toFrame
  return { outboxId := "outbox_" ++ input.exchangeId, destination := input.toRoleId
           messageId := input.messageId, deliveryId := input.deliveryId, frame }

structure ReplyInput where
  ask : AapAskFrame
  status : ReceiptStatus
  summary : String
  error : Option ProtocolError := none
  exchangeId : String

/-- `createReply`.  Every caller passes an exchange id. -/
def createReply (now : Timestamp) (input : ReplyInput) : Except Thrown AapReplyFrame := do
  let frame : AapReplyFrame :=
    { exchangeId := input.exchangeId
      causationId := some input.ask.exchangeId
      taskId := input.ask.taskId
      runId := input.ask.runId
      producerRoleId := input.ask.consumerRoleId
      consumerRoleId := input.ask.producerRoleId
      createdAt := now
      deadlineAt := input.ask.deadlineAt
      status := input.status
      summary := input.summary
      error := input.error }
  let _ ← parseProtocolFrame frame.toFrame
  return frame

def requireOutbox (outboxId : String) : Delivery ProtocolOutboxRecord :=
  requireBridgeOutbox "AAP" outboxId

/-! ## Asks -/

/-- `enqueueAsk`: the outbox row is held until the wait is committed. -/
def enqueueAsk (dispatch : AapAskDispatch) : Delivery ProtocolOutboxRecord := do
  match ← getOutbox dispatch.outboxId with
  | some existing =>
      lift (ensure (existing.exchangeId = dispatch.frame.exchangeId)
        (.error ("AAP outbox " ++ dispatch.outboxId ++ " conflicts with another exchange")))
      return existing
  | none =>
      enqueueOutbox
        { id := dispatch.outboxId
          destination := dispatch.destination
          frame := dispatch.frame.toFrame
          held := true }

/-- `persistAsk`, and the delivery half of `commitWait`. -/
def persistAsk (dispatch : AapAskDispatch) : Delivery ProtocolOutboxRecord := do
  let outbox ← enqueueAsk dispatch
  if outbox.status = .held ∧ outbox.activatedAt = none then
    activateOutbox outbox.id outbox.revision dispatch.frame.createdAt
  else
    return outbox

def leaseOwner (dispatch : AapAskDispatch) : String :=
  "aap-agent:" ++ dispatch.destination ++ ":" ++ dispatch.frame.exchangeId

/-- The expiry of the lease an admission at `now` grants, by `minTimestamp` of this bridge. -/
def leaseExpiresAt (options : AapOptions) (now : Timestamp) (dispatch : AapAskDispatch) :
    Timestamp :=
  if options.notAfter (options.leaseAfter now) dispatch.frame.deadlineAt then
    options.leaseAfter now
  else dispatch.frame.deadlineAt

/-- The exit of `beginAsk` for a redelivery. -/
def reclaimAsk (options : AapOptions) (now : Timestamp) (dispatch : AapAskDispatch)
    (existing : ProtocolInboxRecord) (outbox : ProtocolOutboxRecord) :
    Delivery AapAskAdmission := do
  let reclaimed ← claimInbox existing.key (leaseOwner dispatch) now
    (leaseExpiresAt options now dispatch) existing.revision
  return { shouldExecute := reclaimed.isSome, askInbox := reclaimed.getD existing
           askOutbox := outbox, leaseOwner := leaseOwner dispatch }

/-- The last steps of a first delivery: the inbox row is claimed, and the outbox row is marked
sent when this call claimed it. -/
def admitAsk (options : AapOptions) (now : Timestamp) (dispatch : AapAskDispatch)
    (outbox : ProtocolOutboxRecord) (claimedOutbox : Option ProtocolOutboxRecord)
    (received : ProtocolInboxRecord) : Delivery AapAskAdmission := do
  let claimedInbox ← claimInbox received.key (leaseOwner dispatch) now
    (leaseExpiresAt options now dispatch) received.revision
  match claimedInbox with
  | none =>
      return { shouldExecute := false, askInbox := received
               askOutbox := claimedOutbox.getD outbox, leaseOwner := leaseOwner dispatch }
  | some claimedInbox =>
      match claimedOutbox with
      | none =>
          return { shouldExecute := true, askInbox := claimedInbox, askOutbox := outbox
                   leaseOwner := leaseOwner dispatch }
      | some claimedOutbox =>
          let sent ← markOutboxSent dispatch.outboxId (leaseOwner dispatch)
            claimedOutbox.revision now
          return { shouldExecute := true, askInbox := claimedInbox, askOutbox := sent
                   leaseOwner := leaseOwner dispatch }

/-- The exits of `beginAsk` for a first delivery.  An outbox row that was sent without an inbox
row is recovered. -/
def deliverAsk (options : AapOptions) (now : Timestamp) (dispatch : AapAskDispatch)
    (outbox : ProtocolOutboxRecord) : Delivery AapAskAdmission := do
  let claimedOutbox ← claimOutbox dispatch.outboxId (leaseOwner dispatch) now
    (leaseExpiresAt options now dispatch) outbox.revision
  let received ← receiveInbox dispatch.destination dispatch.frame.toFrame now
  if claimedOutbox = none ∧ outbox.status ≠ .sent then
    return { shouldExecute := false, askInbox := received.1, askOutbox := outbox
             leaseOwner := leaseOwner dispatch }
  else
    admitAsk options now dispatch outbox claimedOutbox received.1

def beginAsk (options : AapOptions) (now : Timestamp) (dispatch : AapAskDispatch) :
    Delivery AapAskAdmission := do
  let existingInbox ← getInbox dispatch.inboxKey
  let outbox ← requireOutbox dispatch.outboxId
  match existingInbox with
  | some existing =>
      if existing.status = .complete then
        return { shouldExecute := false, askInbox := existing, askOutbox := outbox
                 leaseOwner := leaseOwner dispatch }
      else
        reclaimAsk options now dispatch existing outbox
  | none => deliverAsk options now dispatch outbox

/-! ## Replies -/

def classifyReply (admission : AapAskAdmission) (reply : AapReplyFrame) :
    Delivery AapReplyDisposition := do
  lift (ensure (reply.causationId = some admission.askInbox.exchangeId)
    (.error "AAP reply does not belong to the admitted ask exchange"))
  let current ← getInbox admission.askInbox.key
  match current.filter fun row => row.status = .complete with
  | some row =>
      return if row.replyExchangeId = some reply.exchangeId then .duplicate else .late
  | none =>
      return if admission.askInbox.frame.deadlineAt < reply.createdAt then .late else .accepted

def replyOutboxId (reply : AapReplyFrame) : String :=
  "outbox_" ++ reply.exchangeId

def deliverReplyToSystem (options : AapOptions) (reply : AapReplyFrame) : Delivery PUnit :=
  deliverToSystem options.toBridgeOptions "AAP" ("aap-system:" ++ reply.exchangeId)
    (replyOutboxId reply) reply.toFrame

def completeReply (options : AapOptions) (admission : AapAskAdmission) (reply : AapReplyFrame) :
    Delivery PUnit := do
  let _ ← completeInbox
    { key := admission.askInbox.key
      leaseOwner := admission.leaseOwner
      expectedRevision := admission.askInbox.revision
      completedAt := reply.createdAt
      reply := some
        { id := replyOutboxId reply
          destination := reply.consumerRoleId.getD "system"
          frame := reply.toFrame } }
  deliverReplyToSystem options reply

def recordLateReply (options : AapOptions) (reply : AapReplyFrame) : Delivery PUnit := do
  match ← getOutbox (replyOutboxId reply) with
  | some _ => deliverReplyToSystem options reply
  | none =>
      let _ ← enqueueOutbox
        { id := replyOutboxId reply, destination := "system", frame := reply.toFrame }
      deliverReplyToSystem options reply

def acceptReply (options : AapOptions) (admission : AapAskAdmission) (reply : AapReplyFrame) :
    Delivery AapReplyDisposition := do
  match ← classifyReply admission reply with
  | .accepted =>
      completeReply options admission reply
      return .accepted
  | .late =>
      recordLateReply options reply
      return .late
  | .duplicate => return .duplicate

end Aap

end Newide
