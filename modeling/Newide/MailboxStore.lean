import Newide.Foundation.Rows
import Newide.Foundation.Statements
import Newide.Mailbox

/-!
# The mailbox tables

The tables `messages` and `deliveries` of
`src/persistence/sqlite-coordination-store.ts` and the methods that write
them.  A method without a transaction keeps what it wrote before it
threw; the constraints of the schema are checks of the inserts.
-/

namespace Newide

open Fallible Statement

inductive MailboxError where
  | validation (message : String)
  | deliveryNotFound (deliveryId : String)
  | recipientMismatch (deliveryId : String)
  | deliveryState (deliveryId : String) (status : MailboxDeliveryStatus)
  /-- A plain `Error` of the store, or a constraint of the schema. -/
  | store (message : String)

structure MailboxTables where
  messages : List PersistedMailboxMessage := []
  deliveries : List PersistedMailboxDelivery := []

abbrev MailboxStatement (α : Type) := Statement MailboxTables MailboxError α

def MailboxDeliveryStatus.text : MailboxDeliveryStatus → String
  | .pending => "pending"
  | .injected => "injected"
  | .acknowledged => "acknowledged"
  | .failed => "failed"

/-! ## Reading -/

def readMailboxMessage (row : PersistedMailboxMessage) : PersistedMailboxMessage :=
  { row with content := truthy row.content, replyToMessageId := truthy row.replyToMessageId }

def readMailboxDelivery (row : PersistedMailboxDelivery) : PersistedMailboxDelivery :=
  { row with
    recipientSessionId := truthy row.recipientSessionId
    deadlineAt := truthy row.deadlineAt
    injectedAt := truthy row.injectedAt
    acknowledgedAt := truthy row.acknowledgedAt
    lastDeliveryEventId := truthy row.lastDeliveryEventId
    replayCursor := truthy row.replayCursor }

namespace MailboxTables

def delivery? (tables : MailboxTables) (deliveryId : String) : Option PersistedMailboxDelivery :=
  Rows.lookup (·.deliveryId) deliveryId tables.deliveries

def message? (tables : MailboxTables) (messageId : String) : Option PersistedMailboxMessage :=
  Rows.lookup (·.messageId) messageId tables.messages

def requireMailboxDelivery (tables : MailboxTables) (deliveryId : String) :
    Except MailboxError PersistedMailboxDelivery := do
  let row ← orThrow (tables.delivery? deliveryId)
    (.store ("Mailbox delivery " ++ deliveryId ++ " was not found"))
  return readMailboxDelivery row

def readMailboxEnvelope (tables : MailboxTables) (deliveryId : String) :
    Except MailboxError PersistedMailboxEnvelope := do
  let delivery ← tables.requireMailboxDelivery deliveryId
  let row ← orThrow (tables.message? delivery.messageId)
    (.store ("Mailbox message " ++ delivery.messageId ++ " was not found"))
  return { message := readMailboxMessage row, delivery }

def getMailboxEnvelope (tables : MailboxTables) (deliveryId : String) :
    Except MailboxError (Option PersistedMailboxEnvelope) :=
  match tables.delivery? deliveryId with
  | none => .ok none
  | some _ => (tables.readMailboxEnvelope deliveryId).map some

structure MailboxSendPersistenceResult where
  message : PersistedMailboxMessage
  deliveries : List PersistedMailboxDelivery

def deliveryBefore (a b : PersistedMailboxDelivery) : Prop :=
  a.createdAt < b.createdAt ∨ a.createdAt = b.createdAt ∧ a.deliveryId ≤ b.deliveryId

instance : DecidableRel deliveryBefore := fun _ _ => inferInstanceAs (Decidable (_ ∨ _))

def findMailboxSendByIdempotencyKey (tables : MailboxTables)
    (taskId fromRoleId idempotencyKey : String) : Option MailboxSendPersistenceResult :=
  (tables.messages.find? fun row =>
    row.taskId = taskId ∧ row.fromRoleId = fromRoleId ∧ row.idempotencyKey = idempotencyKey).map
  fun row =>
    { message := readMailboxMessage row
      deliveries := ((tables.deliveries.filter (·.messageId = row.messageId)).insertionSort
        deliveryBefore).map readMailboxDelivery }

/-! ## Writing -/

/-- `UPDATE deliveries SET .. WHERE delivery_id = ?`. -/
def updateDelivery (tables : MailboxTables) (deliveryId : String)
    (f : PersistedMailboxDelivery → PersistedMailboxDelivery) : MailboxTables :=
  { tables with deliveries := Rows.update (·.deliveryId) deliveryId f tables.deliveries }

/-- The constraints of an insert into `messages`: the primary key, the sender's idempotency key,
and for a reply the message it replies to and that it is the only one. -/
def MessageFits (tables : MailboxTables) (message : PersistedMailboxMessage) : Prop :=
  (∀ old ∈ tables.messages, old.messageId ≠ message.messageId) ∧
    (∀ old ∈ tables.messages, ¬ (old.taskId = message.taskId ∧
      old.fromRoleId = message.fromRoleId ∧ old.idempotencyKey = message.idempotencyKey)) ∧
    ∀ source ∈ message.replyToMessageId,
      (source = message.messageId ∨ ∃ old ∈ tables.messages, old.messageId = source) ∧
        ∀ old ∈ tables.messages, old.replyToMessageId ≠ some source

instance (tables : MailboxTables) (message : PersistedMailboxMessage) :
    Decidable (tables.MessageFits message) :=
  inferInstanceAs (Decidable (_ ∧ _ ∧ ∀ source ∈ message.replyToMessageId, _))

/-- The constraints of an insert into `deliveries`. -/
def DeliveryFits (tables : MailboxTables) (delivery : PersistedMailboxDelivery) : Prop :=
  (∀ old ∈ tables.deliveries, old.deliveryId ≠ delivery.deliveryId) ∧
    ∃ message ∈ tables.messages, message.messageId = delivery.messageId

instance (tables : MailboxTables) (delivery : PersistedMailboxDelivery) :
    Decidable (tables.DeliveryFits delivery) :=
  inferInstanceAs (Decidable (_ ∧ ∃ message ∈ tables.messages, _))

def insertMessage (tables : MailboxTables) (message : PersistedMailboxMessage) :
    Except MailboxError MailboxTables := do
  ensure (tables.MessageFits message) (.store "constraint failed: messages")
  return { tables with messages := tables.messages ++ [message] }

def insertDelivery (tables : MailboxTables) (delivery : PersistedMailboxDelivery) :
    Except MailboxError MailboxTables := do
  ensure (tables.DeliveryFits delivery) (.store "constraint failed: deliveries")
  return { tables with deliveries := tables.deliveries ++ [delivery] }

end MailboxTables

/-! ## The methods -/

def writeMailboxMessage (message : PersistedMailboxMessage) : MailboxStatement PUnit :=
  write fun tables => tables.insertMessage message

def writeMailboxDelivery (delivery : PersistedMailboxDelivery) : MailboxStatement PUnit :=
  write fun tables => tables.insertDelivery delivery

def requireDeliveryRow (deliveryId : String) : MailboxStatement PersistedMailboxDelivery :=
  read fun tables => tables.requireMailboxDelivery deliveryId

/-- A check that does not look at the tables. -/
def check (x : Except MailboxError PUnit) : MailboxStatement PUnit :=
  read fun _ => x

def validateMailboxWrite (message : PersistedMailboxMessage)
    (deliveries : List PersistedMailboxDelivery) : Except MailboxError PUnit := do
  ensure (deliveries ≠ []) (.store "Mailbox message requires at least one delivery")
  ensure (deliveries.length = 1) (.store "Mailbox requires exactly one delivery")
  ensure (message.taskId ≠ "" ∧ message.workspacePath ≠ "" ∧ message.idempotencyKey ≠ "")
    (.store "Mailbox requires task, workspace and idempotency key")
  deliveries.forM fun delivery => do
    ensure (delivery.messageId = message.messageId)
      (.store "Mailbox delivery belongs to another message")
    ensure (delivery.taskId = message.taskId ∧ delivery.workspacePath = message.workspacePath)
      (.store "Mailbox delivery belongs to another task or workspace")
    ensure (delivery.status = .pending) (.store "New mailbox delivery must be pending")
    ensure (delivery.recipientRoleId ≠ "") (.store "Mailbox delivery requires role_id")

def assertMailboxDeliveryRecipient (delivery : PersistedMailboxDelivery) (recipientRoleId : String) :
    Except MailboxError PUnit :=
  ensure (delivery.recipientRoleId = recipientRoleId)
    (.store ("Mailbox delivery " ++ delivery.deliveryId ++ " belongs to another recipient"))

/-- The one delivery every message has, as the service passes it. -/
def saveMailboxMessage (message : PersistedMailboxMessage) (delivery : PersistedMailboxDelivery) :
    MailboxStatement PUnit := do
  check (validateMailboxWrite message [delivery])
  transaction do
    writeMailboxMessage message
    writeMailboxDelivery delivery

def markMailboxDeliveryInjected (deliveryId recipientRoleId recipientSessionId : String)
    (injectedAt : Timestamp) : MailboxStatement PersistedMailboxDelivery := do
  let delivery ← requireDeliveryRow deliveryId
  check (assertMailboxDeliveryRecipient delivery recipientRoleId)
  if delivery.status = .injected ∨ delivery.status = .acknowledged then
    check (ensure (delivery.recipientSessionId = some recipientSessionId)
      (.store ("Mailbox delivery " ++ deliveryId ++ " was injected into another Session")))
    return delivery
  else
    check (ensure (delivery.status = .pending)
      (.store ("Mailbox delivery " ++ deliveryId ++ " cannot be injected from " ++
        delivery.status.text)))
    write fun tables => .ok (tables.updateDelivery deliveryId fun row =>
      if row.status = .pending then
        { row with
          status := .injected
          recipientSessionId := some recipientSessionId
          injectedAt := row.injectedAt <|> some injectedAt
          lastError := none
          updatedAt := injectedAt }
      else row)
    requireDeliveryRow deliveryId

/-- The rows `status IN ('pending', 'injected')` lets an update change. -/
def MailboxDeliveryStatus.open? : MailboxDeliveryStatus → Bool
  | .pending => true
  | .injected => true
  | _ => false

/-- An update of an open delivery; it throws when there is none. -/
def updateOpenDelivery (deliveryId message : String)
    (f : PersistedMailboxDelivery → PersistedMailboxDelivery) :
    MailboxStatement PersistedMailboxDelivery := do
  write fun tables => do
    ensure ((tables.delivery? deliveryId).any (·.status.open?)) (.store message)
    return tables.updateDelivery deliveryId fun row => if row.status.open? then f row else row
  requireDeliveryRow deliveryId

def markMailboxDeliveryFailed (deliveryId : String) (failedAt : Timestamp)
    (error : PersistedTaskError) : MailboxStatement PersistedMailboxDelivery :=
  updateOpenDelivery deliveryId ("Pending mailbox delivery " ++ deliveryId ++ " was not found")
    fun row => { row with status := .failed, lastError := some error, updatedAt := failedAt }

def recordMailboxDeliveryAttempt (deliveryId : String) (attemptedAt : Timestamp)
    (error : Option PersistedTaskError) : MailboxStatement PersistedMailboxDelivery :=
  updateOpenDelivery deliveryId ("Replayable mailbox delivery " ++ deliveryId ++ " was not found")
    fun row =>
      { row with retryCount := row.retryCount + 1, lastError := error, updatedAt := attemptedAt }

def acknowledgeInjected (delivery : PersistedMailboxDelivery) (acknowledgedAt : Timestamp) :
    MailboxStatement PUnit :=
  if delivery.status = .injected then
    write fun tables => .ok (tables.updateDelivery delivery.deliveryId fun row =>
      { row with
        status := .acknowledged
        acknowledgedAt := some acknowledgedAt
        updatedAt := acknowledgedAt })
  else pure ⟨⟩

def acknowledgeMailboxDelivery (deliveryId recipientRoleId : String) (acknowledgedAt : Timestamp) :
    MailboxStatement PersistedMailboxDelivery :=
  transaction do
    let delivery ← requireDeliveryRow deliveryId
    check (assertMailboxDeliveryRecipient delivery recipientRoleId)
    check (ensure (delivery.status ≠ .pending)
      (.store ("Mailbox delivery " ++ deliveryId ++ " must be injected before acknowledgement")))
    check (ensure (delivery.status ≠ .failed)
      (.store ("Failed mailbox delivery " ++ deliveryId ++ " cannot be acknowledged")))
    acknowledgeInjected delivery acknowledgedAt
    requireDeliveryRow deliveryId

structure SaveMailboxReplyInput where
  sourceDeliveryId : String
  sourceRecipientRoleId : String
  message : PersistedMailboxMessage
  delivery : PersistedMailboxDelivery
  acknowledgedAt : Timestamp

def saveMailboxReply (input : SaveMailboxReplyInput) : MailboxStatement PersistedMailboxDelivery := do
  check (validateMailboxWrite input.message [input.delivery])
  transaction do
    let source ← requireDeliveryRow input.sourceDeliveryId
    check (assertMailboxDeliveryRecipient source input.sourceRecipientRoleId)
    check (ensure (source.status ≠ .pending)
      (.store ("Mailbox delivery " ++ input.sourceDeliveryId ++
        " must be injected before reply")))
    check (ensure (source.status ≠ .failed)
      (.store ("Failed mailbox delivery " ++ input.sourceDeliveryId ++ " cannot be replied to")))
    check (ensure (input.message.replyToMessageId = some source.messageId)
      (.store "Mailbox reply must reference the source message"))
    acknowledgeInjected source input.acknowledgedAt
    writeMailboxMessage input.message
    writeMailboxDelivery input.delivery
    requireDeliveryRow input.sourceDeliveryId

end Newide
