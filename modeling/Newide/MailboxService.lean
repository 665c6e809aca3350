import Newide.MailboxStore

/-!
# The mailbox service

`src/mailbox/persistent-mailbox-service.ts`: `send` and `reply` with
their normalization, validation and idempotency, and the calls that move
a delivery along.  Every call runs to its end without giving way.
-/

namespace Newide

open Fallible Statement

/-! ## Inputs -/

/-- What a call draws from its process, and the string functions it uses. -/
structure MailboxEnv where
  now : Timestamp
  createMessageId : String
  createDeliveryId : String
  /-- `!value.trim()` -/
  isBlank : String → Bool
  /-- `JSON.stringify(payload)` -/
  stringify : Payload → String
  /-- `new Date(Date.parse(at) + seconds * 1000).toISOString()`, which may be out of range. -/
  addSeconds : Timestamp → Int → Option Timestamp

structure MailboxSendInput where
  taskId : String
  workspacePath : String
  threadId : String
  fromRoleId : String
  toRoleId : String
  kind : Option MailboxMessageKind := none
  content : Option String := none
  type : Option String := none
  payload : Option Payload := none
  artifactRefs : Option (List String) := none
  requiresAck : Option Bool := none
  deadlineSeconds : Option Int := none
  idempotencyKey : String

structure RequiredMailboxSendInput where
  taskId : String
  workspacePath : String
  threadId : String
  fromRoleId : String
  toRoleId : String
  kind : MailboxMessageKind
  content : String
  type : String
  payload : Payload
  artifactRefs : Option (List String)
  requiresAck : Bool
  deadlineSeconds : Option Int
  idempotencyKey : String

structure MailboxReplyInput where
  sourceDeliveryId : String
  fromRoleId : String
  kind : Option MailboxMessageKind := none
  content : Option String := none
  type : Option String := none
  payload : Option Payload := none
  artifactRefs : Option (List String) := none
  requiresAck : Option Bool := none
  deadlineSeconds : Option Int := none
  idempotencyKey : String

def legacyKind (type : Option String) : Option MailboxMessageKind :=
  (truthy type).map fun type =>
    if type ∈ ["ask_help", "review_request", "proposal", "decision_request"] then .request
    else .notice

def legacyContent (env : MailboxEnv) (payload : Option Payload) : Option String :=
  payload.map fun payload =>
    match payload.get? "content" with
    | some (.str candidate) => if env.isBlank candidate then env.stringify payload else candidate
    | _ => env.stringify payload

def normalizeSendInput (env : MailboxEnv) (input : MailboxSendInput) :
    Except MailboxError RequiredMailboxSendInput := do
  let kind ← orThrow (input.kind <|> legacyKind input.type) (.validation "kind is required")
  let content ← orThrow (truthy (input.content <|> legacyContent env input.payload))
    (.validation "content is required")
  return {
    taskId := input.taskId
    workspacePath := input.workspacePath
    threadId := input.threadId
    fromRoleId := input.fromRoleId
    toRoleId := input.toRoleId
    kind
    content
    type := input.type.getD (if kind = .request then "ask_help" else "status_update")
    payload := input.payload.getD [("content", .str content)]
    artifactRefs := input.artifactRefs
    requiresAck := input.requiresAck.getD (kind = .request)
    deadlineSeconds := input.deadlineSeconds
    idempotencyKey := input.idempotencyKey }

def requireText (env : MailboxEnv) (value field : String) : Except MailboxError PUnit :=
  ensure (env.isBlank value = false) (.validation (field ++ " is required"))

def validateSend (env : MailboxEnv) (input : RequiredMailboxSendInput) :
    Except MailboxError PUnit := do
  ensure (input.requiresAck = true → input.deadlineSeconds.isSome)
    (.validation "requires_ack messages must set deadline_seconds")
  ensure (∀ seconds ∈ input.deadlineSeconds, 0 < seconds)
    (.validation "deadline_seconds must be positive")
  requireText env input.taskId "task_id"
  requireText env input.workspacePath "workspace_path"
  requireText env input.fromRoleId "from_role_id"
  requireText env input.toRoleId "to_role_id"
  requireText env input.idempotencyKey "idempotency_key"
  ensure (env.isBlank input.content = false) (.validation "content is required")
  requireText env input.threadId "thread_id"
  ensure (input.fromRoleId ≠ input.toRoleId)
    (.validation "Mailbox sender and recipient must be different roles")

def deadlineAfter (env : MailboxEnv) (createdAt : Timestamp) (deadlineSeconds : Option Int) :
    Except MailboxError (Option Timestamp) :=
  match deadlineSeconds with
  | some seconds =>
      (orThrow (env.addSeconds createdAt seconds) (.store "Invalid time value")).map some
  | none => .ok none

def createMessage (env : MailboxEnv) (input : RequiredMailboxSendInput) (createdAt : Timestamp)
    (replyToMessageId : Option String) : PersistedMailboxMessage where
  messageId := env.createMessageId
  taskId := input.taskId
  workspacePath := input.workspacePath
  threadId := input.threadId
  fromRoleId := input.fromRoleId
  kind := some input.kind
  content := some input.content
  type := input.type
  payload := input.payload
  artifactRefs := input.artifactRefs.getD []
  requiresAck := input.requiresAck
  replyToMessageId := truthy replyToMessageId
  idempotencyKey := input.idempotencyKey
  createdAt

def createDelivery (env : MailboxEnv) (messageId : String) (input : RequiredMailboxSendInput)
    (createdAt : Timestamp) : Except MailboxError PersistedMailboxDelivery := do
  let deadlineAt ← deadlineAfter env createdAt input.deadlineSeconds
  return {
    deliveryId := env.createDeliveryId
    messageId
    taskId := input.taskId
    workspacePath := input.workspacePath
    recipientRoleId := input.toRoleId
    status := .pending
    deadlineAt
    createdAt
    updatedAt := createdAt }

open MailboxTables in
def assertIdempotentReplay (env : MailboxEnv) (existing : MailboxSendPersistenceResult)
    (input : RequiredMailboxSendInput) : Except MailboxError PUnit := do
  let expectedDeadline ← deadlineAfter env existing.message.createdAt input.deadlineSeconds
  ensure (existing.message.workspacePath = input.workspacePath ∧
      existing.message.threadId = input.threadId ∧
      existing.message.fromRoleId = input.fromRoleId ∧
      existing.message.kind = some input.kind ∧
      existing.message.content = some input.content ∧
      existing.message.type = input.type ∧
      env.stringify existing.message.payload = env.stringify input.payload ∧
      existing.message.artifactRefs = input.artifactRefs.getD [] ∧
      existing.message.requiresAck = input.requiresAck ∧
      existing.deliveries.head?.map (·.recipientRoleId) = some input.toRoleId ∧
      existing.deliveries.head?.bind (·.deadlineAt) = expectedDeadline)
    (.validation "idempotency_key was reused with different content")

/-! ## Calls -/

structure MailboxSendResult where
  message : PersistedMailboxMessage
  deliveries : List PersistedMailboxDelivery

open MailboxTables

def requireDelivery (deliveryId : String) : MailboxStatement PersistedMailboxEnvelope :=
  read fun tables => do
    let envelope ← tables.getMailboxEnvelope deliveryId
    orThrow envelope (.deliveryNotFound deliveryId)

def assertRecipient (delivery : PersistedMailboxDelivery) (recipientRoleId : String) :
    Except MailboxError PUnit :=
  ensure (delivery.recipientRoleId = recipientRoleId) (.recipientMismatch delivery.deliveryId)

/-- What a send or a reply has passed before it looks for an earlier one. -/
def prepareSend (env : MailboxEnv) (input : MailboxSendInput) :
    Except MailboxError RequiredMailboxSendInput := do
  let normalized ← normalizeSendInput env input
  validateSend env normalized
  return normalized

def sendMailbox (env : MailboxEnv) (input : MailboxSendInput) :
    MailboxStatement MailboxSendResult := do
  let normalized ← read fun _ => prepareSend env input
  let existing ← read fun tables => .ok (tables.findMailboxSendByIdempotencyKey
    normalized.taskId normalized.fromRoleId normalized.idempotencyKey)
  match existing with
  | some existing =>
      check (assertIdempotentReplay env existing normalized)
      return { message := existing.message, deliveries := existing.deliveries }
  | none =>
      let message := createMessage env normalized env.now none
      let delivery ← read fun _ => createDelivery env message.messageId normalized env.now
      saveMailboxMessage message delivery
      return { message, deliveries := [delivery] }

def markInjected (env : MailboxEnv) (deliveryId recipientRoleId recipientSessionId : String) :
    MailboxStatement PersistedMailboxDelivery := do
  check (requireText env recipientRoleId "recipient_role_id")
  check (requireText env recipientSessionId "recipient_session_id")
  markMailboxDeliveryInjected deliveryId recipientRoleId recipientSessionId env.now

def markFailed (env : MailboxEnv) (deliveryId : String) (error : PersistedTaskError) :
    MailboxStatement PersistedMailboxDelivery :=
  markMailboxDeliveryFailed deliveryId env.now error

def recordDeliveryAttempt (env : MailboxEnv) (deliveryId : String)
    (error : Option PersistedTaskError) : MailboxStatement PersistedMailboxDelivery :=
  recordMailboxDeliveryAttempt deliveryId env.now error

def ackDelivery (env : MailboxEnv) (deliveryId recipientRoleId : String) :
    MailboxStatement PersistedMailboxDelivery := do
  let envelope ← requireDelivery deliveryId
  check (assertRecipient envelope.delivery recipientRoleId)
  check (ensure (envelope.delivery.status ≠ .pending)
    (.deliveryState deliveryId envelope.delivery.status))
  acknowledgeMailboxDelivery deliveryId recipientRoleId env.now

structure MailboxReplyResult where
  sourceDelivery : PersistedMailboxDelivery
  reply : MailboxSendResult

def MailboxReplyInput.toSend (input : MailboxReplyInput) (source : PersistedMailboxMessage) :
    MailboxSendInput where
  taskId := source.taskId
  workspacePath := source.workspacePath
  threadId := source.threadId
  fromRoleId := input.fromRoleId
  toRoleId := source.fromRoleId
  kind := input.kind
  content := input.content
  type := input.type
  payload := input.payload
  artifactRefs := input.artifactRefs
  requiresAck := input.requiresAck
  deadlineSeconds := input.deadlineSeconds
  idempotencyKey := input.idempotencyKey

def replyMailbox (env : MailboxEnv) (input : MailboxReplyInput) :
    MailboxStatement MailboxReplyResult := do
  let source ← requireDelivery input.sourceDeliveryId
  check (assertRecipient source.delivery input.fromRoleId)
  let normalized ← read fun _ => prepareSend env (input.toSend source.message)
  let existing ← read fun tables => .ok (tables.findMailboxSendByIdempotencyKey
    source.message.taskId input.fromRoleId input.idempotencyKey)
  match existing with
  | some existing =>
      check (assertIdempotentReplay env existing normalized)
      check (ensure (existing.message.replyToMessageId = some source.message.messageId)
        (.validation "idempotency_key belongs to another reply"))
      return { sourceDelivery := source.delivery,
               reply := { message := existing.message, deliveries := existing.deliveries } }
  | none =>
      check (ensure (source.delivery.status ≠ .pending)
        (.deliveryState input.sourceDeliveryId source.delivery.status))
      let message := createMessage env normalized env.now (some source.message.messageId)
      let delivery ← read fun _ => createDelivery env message.messageId normalized env.now
      let sourceDelivery ← saveMailboxReply
        { sourceDeliveryId := input.sourceDeliveryId
          sourceRecipientRoleId := input.fromRoleId
          message
          delivery
          acknowledgedAt := env.now }
      return { sourceDelivery, reply := { message, deliveries := [delivery] } }

inductive MailboxCall where
  | send (input : MailboxSendInput)
  | reply (input : MailboxReplyInput)
  | markInjected (deliveryId recipientRoleId recipientSessionId : String)
  | ack (deliveryId recipientRoleId : String)
  | markFailed (deliveryId : String) (error : PersistedTaskError)
  | recordDeliveryAttempt (deliveryId : String) (error : Option PersistedTaskError)

/-- How a call ends, without what it answers, and the tables after it. -/
def MailboxCall.exec (env : MailboxEnv) : MailboxCall → MailboxStatement PUnit
  | .send input => forget (sendMailbox env input)
  | .reply input => forget (replyMailbox env input)
  | .markInjected deliveryId recipientRoleId recipientSessionId =>
      forget (Newide.markInjected env deliveryId recipientRoleId recipientSessionId)
  | .ack deliveryId recipientRoleId => forget (ackDelivery env deliveryId recipientRoleId)
  | .markFailed deliveryId error => forget (Newide.markFailed env deliveryId error)
  | .recordDeliveryAttempt deliveryId error =>
      forget (Newide.recordDeliveryAttempt env deliveryId error)

end Newide
