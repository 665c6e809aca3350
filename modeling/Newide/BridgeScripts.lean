import Newide.ProtocolDelivery

/-!
# Scripts shared by the bridges

`SapTaskBridge` and `AapMailboxBridge` deliver a receipt to the system in
the same way.  A script of theirs runs inside one transaction.
-/

namespace Newide

open Fallible Transaction Delivery

structure BridgeOptions where
  /-- `new Date(Date.parse(at) + lease_duration_ms).toISOString()` -/
  leaseAfter : Timestamp → Timestamp
  /-- `new Date(Date.parse(at) + default_deadline_ms).toISOString()` -/
  deadlineAfter : Timestamp → Timestamp

/-- `requireOutbox` of the bridge called `name`. -/
def requireBridgeOutbox (name outboxId : String) : Delivery ProtocolOutboxRecord := do
  lift (orThrow (← getOutbox outboxId) (.error (name ++ " outbox " ++ outboxId ++ " was not found")))

def sendReceipt (options : BridgeOptions) (owner : String) (now : Timestamp)
    (outbox : ProtocolOutboxRecord) : Delivery PUnit := do
  if outbox.status = .pending then
    match ← claimOutbox outbox.id owner now (options.leaseAfter now) outbox.revision with
    | none => return
    | some claimed =>
        let _ ← markOutboxSent claimed.id owner claimed.revision now

/-- An inbox row of the system that is not complete is claimed and completed. -/
def settleSystemInbox (options : BridgeOptions) (owner : String) (now : Timestamp)
    (received : ProtocolInboxRecord) : Delivery PUnit := do
  if received.status ≠ .complete then
    match ← claimInbox received.key owner now (options.leaseAfter now) received.revision with
    | none => return
    | some claimed =>
        let _ ← completeInbox
          { key := claimed.key
            leaseOwner := owner
            expectedRevision := claimed.revision
            completedAt := now }

def deliverToSystem (options : BridgeOptions) (name owner outboxId : String)
    (receipt : ProtocolFrame) : Delivery PUnit := do
  let outbox ← requireBridgeOutbox name outboxId
  sendReceipt options owner receipt.createdAt outbox
  let received ← receiveInbox "system" receipt receipt.createdAt
  settleSystemInbox options owner receipt.createdAt received.1

def sampleOptions : BridgeOptions where
  leaseAfter now :=
    if now = "2026-01-01T00:00:00.000Z" then "2026-01-01T00:30:00.000Z"
    else if now = "2026-01-01T00:10:00.000Z" then "2026-01-01T00:40:00.000Z"
    else "2026-01-01T01:20:00.000Z"
  deadlineAfter _ := "2026-01-02T00:00:00.000Z"

end Newide
