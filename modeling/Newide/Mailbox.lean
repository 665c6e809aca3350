import Newide.CoordinationState

/-!
# Mailbox rows

The rows of `src/mailbox/mailbox-state-store.ts` and the read-only view
of the mailbox tables that the coordination code takes.
-/

namespace Newide

inductive MailboxMessageKind where
  | request | notice
deriving DecidableEq

inductive MailboxDeliveryStatus where
  | pending | injected | acknowledged | failed
deriving DecidableEq

structure PersistedMailboxMessage where
  messageId : String
  taskId : String
  workspacePath : String
  threadId : String
  fromRoleId : String
  kind : Option MailboxMessageKind := none
  content : Option String := none
  type : String
  payload : Payload := []
  artifactRefs : List String := []
  requiresAck : Bool := false
  replyToMessageId : Option String := none
  idempotencyKey : String
  createdAt : Timestamp

structure PersistedMailboxDelivery where
  deliveryId : String
  messageId : String
  taskId : String
  workspacePath : String
  recipientRoleId : String
  recipientSessionId : Option String := none
  status : MailboxDeliveryStatus
  deadlineAt : Option Timestamp := none
  injectedAt : Option Timestamp := none
  acknowledgedAt : Option Timestamp := none
  retryCount : Nat := 0
  lastError : Option PersistedTaskError := none
  lastDeliveryEventId : Option String := none
  replayCursor : Option String := none
  createdAt : Timestamp
  updatedAt : Timestamp

structure PersistedMailboxEnvelope where
  message : PersistedMailboxMessage
  delivery : PersistedMailboxDelivery

/-- What the coordination code may ask of the mailbox tables.  The two fields that are
`Option`s are the optional methods of the port. -/
structure MailboxView where
  getMailboxEnvelope : String → Option PersistedMailboxEnvelope
  listReplayableMailboxDeliveries : String → String → List PersistedMailboxEnvelope
  getMailboxHighWatermark : Option (String → String → Option MailboxWatermark) := none
  listMailboxDeliveriesAfter :
    Option (String → String → Option MailboxWatermark → List PersistedMailboxEnvelope) := none

structure ParticipantSessionBinding where
  taskId : String
  workspacePath : String
  roleId : String
  sessionId : String

structure ParticipantSessionRegistry where
  get : String → String → String → Option String
  list : Option (String → String → List ParticipantSessionBinding) := none
  listForTask : Option (String → List ParticipantSessionBinding) := none

end Newide
