import Newide.Foundation.Rows
import Newide.Foundation.Transactions
import Newide.ProtocolFrame
import Mathlib.Data.String.Basic

/-!
# Protocol delivery

The delivery tables of `src/persistence/sqlite-protocol-delivery.ts` and
the operations of `SqliteProtocolDelivery` on them.  A row keeps the
frame it was written with; the columns copied from the frame are read
off it, so they cannot disagree with it.  The tables carry their primary
keys and the unique exchange of an outbox row.  The foreign keys to
Tasks and runs are left out, and so are the calls of the journal.
-/

namespace Newide

open Fallible Transaction Rows Rows.Distinct

inductive ProtocolOutboxStatus where
  | held | pending | sent | complete | failed
deriving DecidableEq, Inhabited

def ProtocolOutboxStatus.text : ProtocolOutboxStatus → String
  | .held => "held"
  | .pending => "pending"
  | .sent => "sent"
  | .complete => "complete"
  | .failed => "failed"

inductive ProtocolInboxStatus where
  | received | processing | complete
deriving DecidableEq, Inhabited

def ProtocolInboxStatus.text : ProtocolInboxStatus → String
  | .received => "received"
  | .processing => "processing"
  | .complete => "complete"

structure OutboxColumns where
  status : ProtocolOutboxStatus
  attempt : Nat := 0
  nextAttemptAt : Timestamp
  activatedAt : Option Timestamp := none
  sentAt : Option Timestamp := none
  completedAt : Option Timestamp := none
  leaseOwner : Option String := none
  leaseExpiresAt : Option Timestamp := none
  revision : Nat := 1
deriving DecidableEq

structure ProtocolOutboxRecord extends OutboxColumns where
  id : String
  destination : String
  frame : ProtocolFrame
deriving DecidableEq

namespace ProtocolOutboxRecord

def exchangeId (row : ProtocolOutboxRecord) : String := row.frame.exchangeId

/-- The columns of `UNIQUE(protocol, exchange_id)`. -/
def exchange (row : ProtocolOutboxRecord) : ProtocolId × String :=
  (row.frame.protocol, row.frame.exchangeId)

def withColumns (row : ProtocolOutboxRecord) (columns : OutboxColumns) : ProtocolOutboxRecord :=
  { row with toOutboxColumns := columns }

/-- `readOutbox`: the frame shows how often the row was claimed. -/
def read (row : ProtocolOutboxRecord) : ProtocolOutboxRecord :=
  if 0 < row.attempt then { row with frame := { row.frame with attempt := row.attempt } } else row

@[simp] theorem withColumns_columns (row : ProtocolOutboxRecord) (columns : OutboxColumns) :
    (row.withColumns columns).toOutboxColumns = columns := rfl

@[simp] theorem withColumns_id (row : ProtocolOutboxRecord) (columns : OutboxColumns) :
    (row.withColumns columns).id = row.id := rfl

@[simp] theorem withColumns_frame (row : ProtocolOutboxRecord) (columns : OutboxColumns) :
    (row.withColumns columns).frame = row.frame := rfl

@[simp] theorem withColumns_exchange (row : ProtocolOutboxRecord) (columns : OutboxColumns) :
    (row.withColumns columns).exchange = row.exchange := rfl

@[simp] theorem read_columns (row : ProtocolOutboxRecord) :
    row.read.toOutboxColumns = row.toOutboxColumns := by
  unfold read
  split <;> rfl

@[simp] theorem read_id (row : ProtocolOutboxRecord) : row.read.id = row.id := by
  unfold read
  split <;> rfl

@[simp] theorem read_exchangeId (row : ProtocolOutboxRecord) :
    row.read.exchangeId = row.exchangeId := by
  unfold read
  split <;> rfl

end ProtocolOutboxRecord

structure ProtocolInboxKey where
  consumerId : String
  protocol : ProtocolId
  exchangeId : String
deriving DecidableEq

structure InboxColumns where
  status : ProtocolInboxStatus
  completedAt : Option Timestamp := none
  leaseOwner : Option String := none
  leaseExpiresAt : Option Timestamp := none
  replyExchangeId : Option String := none
  revision : Nat := 1
deriving DecidableEq

structure ProtocolInboxRecord extends InboxColumns where
  consumerId : String
  frame : ProtocolFrame
  receivedAt : Timestamp
deriving DecidableEq

namespace ProtocolInboxRecord

def exchangeId (row : ProtocolInboxRecord) : String := row.frame.exchangeId

def key (row : ProtocolInboxRecord) : ProtocolInboxKey where
  consumerId := row.consumerId
  protocol := row.frame.protocol
  exchangeId := row.frame.exchangeId

def withColumns (row : ProtocolInboxRecord) (columns : InboxColumns) : ProtocolInboxRecord :=
  { row with toInboxColumns := columns }

@[simp] theorem withColumns_columns (row : ProtocolInboxRecord) (columns : InboxColumns) :
    (row.withColumns columns).toInboxColumns = columns := rfl

@[simp] theorem withColumns_key (row : ProtocolInboxRecord) (columns : InboxColumns) :
    (row.withColumns columns).key = row.key := rfl

@[simp] theorem withColumns_frame (row : ProtocolInboxRecord) (columns : InboxColumns) :
    (row.withColumns columns).frame = row.frame := rfl

end ProtocolInboxRecord

/-- The kind, id, causation, role and Task of an entry are those of its frame. -/
structure ProtocolJournalRecord where
  ts : Timestamp
  event : String
  status : String
  summary : String
  frame : ProtocolFrame

def ProtocolOutboxRecord.entry (row : ProtocolOutboxRecord) (event summary : String)
    (ts : Timestamp) : ProtocolJournalRecord where
  ts
  event
  status := row.status.text
  summary
  frame := row.frame

def ProtocolInboxRecord.entry (row : ProtocolInboxRecord) (event summary : String)
    (ts : Timestamp) : ProtocolJournalRecord where
  ts
  event
  status := row.status.text
  summary
  frame := row.frame

/-! ## The tables -/

structure ProtocolDelivery where
  outbox : List ProtocolOutboxRecord := []
  inbox : List ProtocolInboxRecord := []
  journal : List ProtocolJournalRecord := []
  outboxArchive : List ProtocolOutboxRecord := []
  inboxArchive : List ProtocolInboxRecord := []
  outboxIds : Rows.Distinct ProtocolOutboxRecord.id outbox
  outboxExchanges : Rows.Distinct ProtocolOutboxRecord.exchange outbox
  inboxKeys : Rows.Distinct ProtocolInboxRecord.key inbox

namespace ProtocolDelivery

def empty : ProtocolDelivery where
  outboxIds := nil
  outboxExchanges := nil
  inboxKeys := nil

variable (d : ProtocolDelivery)

def outboxRow (id : String) : Option ProtocolOutboxRecord :=
  lookup ProtocolOutboxRecord.id id d.outbox

def exchangeRow (exchange : ProtocolId × String) : Option ProtocolOutboxRecord :=
  lookup ProtocolOutboxRecord.exchange exchange d.outbox

def inboxRow (key : ProtocolInboxKey) : Option ProtocolInboxRecord :=
  lookup ProtocolInboxRecord.key key d.inbox

def log (entry : ProtocolJournalRecord) : ProtocolDelivery :=
  { d with journal := d.journal ++ [entry] }

def addOutbox (row : ProtocolOutboxRecord) (hid : d.outboxRow row.id = none)
    (hexchange : d.exchangeRow row.exchange = none) : ProtocolDelivery :=
  { d with
    outbox := d.outbox ++ [row]
    outboxIds := d.outboxIds.append_new (lookup_eq_none.mp hid)
    outboxExchanges := d.outboxExchanges.append_new (lookup_eq_none.mp hexchange) }

def addInbox (row : ProtocolInboxRecord) (hkey : d.inboxRow row.key = none) : ProtocolDelivery :=
  { d with
    inbox := d.inbox ++ [row]
    inboxKeys := d.inboxKeys.append_new (lookup_eq_none.mp hkey) }

/-- Overwrite the changeable columns of the outbox row `id`. -/
def setOutbox (id : String) (columns : OutboxColumns) : ProtocolDelivery :=
  { d with
    outbox := update ProtocolOutboxRecord.id id (·.withColumns columns) d.outbox
    outboxIds := d.outboxIds.update fun _ => rfl
    outboxExchanges := d.outboxExchanges.update fun _ => rfl }

/-- Overwrite the changeable columns of the inbox row of `key`. -/
def setInbox (key : ProtocolInboxKey) (columns : InboxColumns) : ProtocolDelivery :=
  { d with
    inbox := update ProtocolInboxRecord.key key (·.withColumns columns) d.inbox
    inboxKeys := d.inboxKeys.update fun _ => rfl }

theorem outboxRow_of_exchange {d : ProtocolDelivery} {exchange : ProtocolId × String}
    {row : ProtocolOutboxRecord} (h : d.exchangeRow exchange = some row) :
    d.outboxRow row.id = some row :=
  d.outboxIds.lookup_of_mem (lookup_mem h)

theorem exchangeRow_exchange {d : ProtocolDelivery} {exchange : ProtocolId × String}
    {row : ProtocolOutboxRecord} (h : d.exchangeRow exchange = some row) :
    row.exchange = exchange :=
  lookup_key h

theorem outboxRow_id {d : ProtocolDelivery} {id : String} {row : ProtocolOutboxRecord}
    (h : d.outboxRow id = some row) : row.id = id :=
  lookup_key h

theorem inboxRow_key {d : ProtocolDelivery} {key : ProtocolInboxKey} {row : ProtocolInboxRecord}
    (h : d.inboxRow key = some row) : row.key = key :=
  lookup_key h

/-! ## What the tables show after a write -/

section
variable (entry : ProtocolJournalRecord) (id : String) (exchange : ProtocolId × String)
  (key : ProtocolInboxKey)

@[simp] theorem log_outboxRow : (d.log entry).outboxRow id = d.outboxRow id := rfl

@[simp] theorem log_exchangeRow : (d.log entry).exchangeRow exchange = d.exchangeRow exchange := rfl

@[simp] theorem log_inboxRow : (d.log entry).inboxRow key = d.inboxRow key := rfl

@[simp] theorem addOutbox_outboxRow (row : ProtocolOutboxRecord) (hid) (hexchange) :
    (d.addOutbox row hid hexchange).outboxRow id =
      if id = row.id then some row else d.outboxRow id :=
  lookup_append_new hid

@[simp] theorem addOutbox_exchangeRow (row : ProtocolOutboxRecord) (hid) (hexchange) :
    (d.addOutbox row hid hexchange).exchangeRow exchange =
      if exchange = row.exchange then some row else d.exchangeRow exchange :=
  lookup_append_new hexchange

@[simp] theorem addOutbox_inboxRow (row : ProtocolOutboxRecord) (hid) (hexchange) :
    (d.addOutbox row hid hexchange).inboxRow key = d.inboxRow key := rfl

@[simp] theorem addInbox_inboxRow (row : ProtocolInboxRecord) (hkey) :
    (d.addInbox row hkey).inboxRow key = if key = row.key then some row else d.inboxRow key :=
  lookup_append_new hkey

@[simp] theorem setOutbox_outboxRow (set : String) (columns : OutboxColumns) :
    (d.setOutbox set columns).outboxRow id =
      if id = set then (d.outboxRow id).map (·.withColumns columns)
      else d.outboxRow id :=
  lookup_update fun _ => rfl

@[simp] theorem setOutbox_exchangeRow (set : String) (columns : OutboxColumns) :
    (d.setOutbox set columns).exchangeRow exchange =
      (d.exchangeRow exchange).map fun row =>
        if row.id = set then row.withColumns columns else row :=
  lookup_update_other fun _ => rfl

@[simp] theorem setInbox_outboxRow (set : ProtocolInboxKey) (columns : InboxColumns) :
    (d.setInbox set columns).outboxRow id = d.outboxRow id := rfl

@[simp] theorem setInbox_inboxRow (set : ProtocolInboxKey) (columns : InboxColumns) :
    (d.setInbox set columns).inboxRow key =
      if key = set then (d.inboxRow key).map (·.withColumns columns)
      else d.inboxRow key :=
  lookup_update fun _ => rfl

end

end ProtocolDelivery

/-! ## Statements -/

abbrev Delivery (α : Type) := Script ProtocolDelivery Thrown α

namespace Delivery

def getOutbox (id : String) : Delivery (Option ProtocolOutboxRecord) :=
  query fun d => (d.outboxRow id).map ProtocolOutboxRecord.read

def getInbox (key : ProtocolInboxKey) : Delivery (Option ProtocolInboxRecord) :=
  query fun d => d.inboxRow key

def requireOutbox (id : String) : Delivery ProtocolOutboxRecord := do
  lift (orThrow (← getOutbox id) (.error ("Outbox " ++ id ++ " was not found")))

def requireInbox (key : ProtocolInboxKey) : Delivery ProtocolInboxRecord := do
  lift (orThrow (← getInbox key) (.error ("Inbox " ++ key.exchangeId ++ " was not found")))

def append (entry : ProtocolJournalRecord) : Delivery PUnit :=
  write fun d => d.log entry

def appendFrame (frame : ProtocolFrame) (event status summary : String) (ts : Timestamp) :
    Delivery PUnit :=
  append { ts, event, status, summary, frame }

def insertOutbox (row : ProtocolOutboxRecord) : Delivery PUnit := fun d =>
  if hid : d.outboxRow row.id = none then
    if hexchange : d.exchangeRow row.exchange = none then
      .ok (⟨⟩, d.addOutbox row hid hexchange)
    else .error (.error "UNIQUE constraint failed: outbox.protocol, outbox.exchange_id")
  else .error (.error "UNIQUE constraint failed: outbox.id")

/-- `INSERT … ON CONFLICT DO NOTHING`: whether a row was inserted. -/
def insertInbox (row : ProtocolInboxRecord) : Delivery Bool := fun d =>
  if hkey : d.inboxRow row.key = none then .ok (true, d.addInbox row hkey) else .ok (false, d)

/-- `UPDATE outbox SET … WHERE id = ? AND …`: the row read back when one was changed. -/
def updateOutbox (id : String) (guard : OutboxColumns → Prop) [DecidablePred guard]
    (set : OutboxColumns → OutboxColumns) : Delivery (Option ProtocolOutboxRecord) := fun d =>
  match d.outboxRow id with
  | none => .ok (none, d)
  | some row =>
      if guard row.toOutboxColumns then
        let columns := set row.toOutboxColumns
        .ok (some (row.withColumns columns).read, d.setOutbox id columns)
      else .ok (none, d)

def updateInbox (key : ProtocolInboxKey) (guard : InboxColumns → Prop) [DecidablePred guard]
    (set : InboxColumns → InboxColumns) : Delivery (Option ProtocolInboxRecord) := fun d =>
  match d.inboxRow key with
  | none => .ok (none, d)
  | some row =>
      if guard row.toInboxColumns then
        let columns := set row.toInboxColumns
        .ok (some (row.withColumns columns), d.setInbox key columns)
      else .ok (none, d)

def required (value name : String) : Except Thrown Unit :=
  ensure (value ≠ "") (.error (name ++ " must not be empty"))

def assertLease (owner : String) (now expiresAt : Timestamp) : Except Thrown Unit := do
  required owner "lease owner"
  ensure (now < expiresAt) (.error "Lease expiry must be after now")

end Delivery

/-- `lease_expires_at <= ?`. -/
def leaseExpired (lease : Option Timestamp) (now : Timestamp) : Bool :=
  lease.any fun expiry => expiry ≤ now

/-- `lease_expires_at > ?`. -/
def leaseLive (lease : Option Timestamp) (now : Timestamp) : Bool :=
  lease.any fun expiry => now < expiry

/-! ## Operations -/

structure EnqueueProtocolOutbox where
  id : String
  destination : String
  frame : ProtocolFrame
  /-- `status: 'held'` -/
  held : Bool := false
  activatedAt : Option Timestamp := none
  nextAttemptAt : Option Timestamp := none

def EnqueueProtocolOutbox.row (input : EnqueueProtocolOutbox) : ProtocolOutboxRecord where
  id := input.id
  destination := input.destination
  frame := input.frame
  status := if input.held then .held else .pending
  nextAttemptAt := input.nextAttemptAt.getD input.frame.createdAt
  activatedAt := if input.held then input.activatedAt else none

structure CompleteProtocolInbox where
  key : ProtocolInboxKey
  leaseOwner : String
  expectedRevision : Nat
  completedAt : Timestamp
  reply : Option EnqueueProtocolOutbox := none

namespace OutboxColumns

/-- The guard of `claimOutbox`. -/
def Claimable (row : OutboxColumns) (now : Timestamp) : Prop :=
  row.nextAttemptAt ≤ now ∧
    (row.status = .pending ∨ (row.status = .held ∧ row.activatedAt.isSome = true)) ∧
    (row.leaseExpiresAt = none ∨ leaseExpired row.leaseExpiresAt now = true)

/-- The guard of an operation of the worker that claimed the row. -/
def ClaimedBy (row : OutboxColumns) (owner : String) (revision : Nat) (now : Timestamp) : Prop :=
  row.status = .pending ∧ row.leaseOwner = some owner ∧ row.revision = revision ∧
    leaseLive row.leaseExpiresAt now = true

def activate (row : OutboxColumns) (ts : Timestamp) : OutboxColumns :=
  { row with activatedAt := some ts, revision := row.revision + 1 }

def claim (row : OutboxColumns) (owner : String) (expiry : Timestamp) : OutboxColumns :=
  { row with
    status := .pending
    leaseOwner := some owner
    leaseExpiresAt := some expiry
    attempt := row.attempt + 1
    revision := row.revision + 1 }

def renew (row : OutboxColumns) (expiry : Timestamp) : OutboxColumns :=
  { row with leaseExpiresAt := some expiry, revision := row.revision + 1 }

def release (row : OutboxColumns) (status : ProtocolOutboxStatus) (ts : Timestamp)
    (nextAttemptAt : Option Timestamp) : OutboxColumns :=
  { row with
    status
    sentAt := if status = .sent then some ts else row.sentAt
    completedAt := if status = .failed then some ts else row.completedAt
    nextAttemptAt := nextAttemptAt.getD row.nextAttemptAt
    leaseOwner := none
    leaseExpiresAt := none
    revision := row.revision + 1 }

def complete (row : OutboxColumns) (ts : Timestamp) : OutboxColumns :=
  { row with
    status := .complete
    completedAt := some ts
    leaseOwner := none
    leaseExpiresAt := none
    revision := row.revision + 1 }

instance (row : OutboxColumns) (now : Timestamp) : Decidable (row.Claimable now) :=
  inferInstanceAs (Decidable (_ ∧ _))

instance (row : OutboxColumns) (owner : String) (revision : Nat) (now : Timestamp) :
    Decidable (row.ClaimedBy owner revision now) :=
  inferInstanceAs (Decidable (_ ∧ _))

end OutboxColumns

namespace InboxColumns

/-- The guard of `claimInbox`. -/
def Claimable (row : InboxColumns) (now : Timestamp) : Prop :=
  row.status = .received ∨ (row.status = .processing ∧ leaseExpired row.leaseExpiresAt now = true)

/-- The guard of an operation of the worker that claimed the row. -/
def ClaimedBy (row : InboxColumns) (owner : String) (revision : Nat) (now : Timestamp) : Prop :=
  row.status = .processing ∧ row.leaseOwner = some owner ∧ row.revision = revision ∧
    leaseLive row.leaseExpiresAt now = true

def claim (row : InboxColumns) (owner : String) (expiry : Timestamp) : InboxColumns :=
  { row with
    status := .processing
    leaseOwner := some owner
    leaseExpiresAt := some expiry
    revision := row.revision + 1 }

def renew (row : InboxColumns) (expiry : Timestamp) : InboxColumns :=
  { row with leaseExpiresAt := some expiry, revision := row.revision + 1 }

def complete (row : InboxColumns) (ts : Timestamp) (replyExchangeId : Option String) :
    InboxColumns :=
  { row with
    status := .complete
    completedAt := some ts
    leaseOwner := none
    leaseExpiresAt := none
    replyExchangeId
    revision := row.revision + 1 }

instance (row : InboxColumns) (now : Timestamp) : Decidable (row.Claimable now) :=
  inferInstanceAs (Decidable (_ ∨ _))

instance (row : InboxColumns) (owner : String) (revision : Nat) (now : Timestamp) :
    Decidable (row.ClaimedBy owner revision now) :=
  inferInstanceAs (Decidable (_ ∧ _))

end InboxColumns

namespace Delivery

def enqueueOutbox (input : EnqueueProtocolOutbox) : Delivery ProtocolOutboxRecord := do
  let frame ← lift (parseProtocolFrame input.frame)
  lift (required input.id "outbox id")
  lift (required input.destination "destination")
  lift (ensure (frame.attempt = 1) (.error "New outbox exchange must start at attempt 1"))
  let row := { input with frame }.row
  insertOutbox row
  append (row.entry "outbox.enqueued" input.destination frame.createdAt)
  requireOutbox input.id

def originalOf (frame : ProtocolFrame) (d : ProtocolDelivery) : Option ProtocolOutboxRecord :=
  if frame.isReceipt then
    frame.causationId.bind fun causationId =>
      (d.exchangeRow (frame.protocol, causationId)).filter fun row =>
        row.frame.taskId = frame.taskId
  else none

/-- The receipt of an exchange completes its outbox row, whoever has claimed it. -/
def completeOriginal (frame : ProtocolFrame) (receivedAt : Timestamp) : Delivery PUnit := do
  match ← query (originalOf frame) with
  | none => return
  | some original =>
      let updated ← updateOutbox original.id (fun row => row.status ∈ [.held, .pending, .sent])
        fun row => row.complete receivedAt
      if updated.isSome then
        appendFrame frame "outbox.completed" "complete" original.id receivedAt

def receivedRow (consumerId : String) (frame : ProtocolFrame) (receivedAt : Timestamp) :
    ProtocolInboxRecord where
  consumerId
  frame
  receivedAt
  status := .received

/-- The check that a redelivery shows the frame already received. -/
def SameFrame (inbox frame : ProtocolFrame) : Prop :=
  { inbox with attempt := 1 } = { frame with attempt := 1 }

instance (inbox frame : ProtocolFrame) : Decidable (SameFrame inbox frame) :=
  inferInstanceAs (Decidable (_ = _))

/-- `receiveInbox`: the row, and whether this call inserted it. -/
def receiveInbox (consumerId : String) (frame : ProtocolFrame) (receivedAt : Timestamp) :
    Delivery (ProtocolInboxRecord × Bool) := do
  let frame ← lift (parseProtocolFrame frame)
  lift (required consumerId "consumer_id")
  let row := receivedRow consumerId frame receivedAt
  let inserted ← insertInbox row
  let inbox ← requireInbox row.key
  lift (ensure (SameFrame inbox.frame frame)
    (.error ("Exchange " ++ frame.exchangeId ++ " conflicts with an existing inbox frame")))
  if inserted then
    append (row.entry "inbox.received" consumerId receivedAt)
    completeOriginal frame receivedAt
    return (inbox, true)
  else
    return (inbox, false)

/-- The check on the reply of a completed exchange. -/
def ReplyFits (current : ProtocolInboxRecord) (reply : ProtocolFrame) : Prop :=
  reply.isReceipt = true ∧ reply.causationId = some current.exchangeId ∧
    reply.protocol = current.frame.protocol ∧ reply.taskId = current.frame.taskId

instance (current : ProtocolInboxRecord) (reply : ProtocolFrame) :
    Decidable (ReplyFits current reply) :=
  inferInstanceAs (Decidable (_ ∧ _))

def enqueueReply (current : ProtocolInboxRecord) :
    Option EnqueueProtocolOutbox → Delivery PUnit
  | none => return
  | some reply => do
      let frame ← lift (parseProtocolFrame reply.frame)
      lift (ensure (ReplyFits current frame)
        (.error "Inbox reply must be a receipt caused by the completed exchange"))
      let _ ← enqueueOutbox reply

def completeInbox (input : CompleteProtocolInbox) : Delivery ProtocolInboxRecord := do
  let current ← requireInbox input.key
  lift (ensure (current.ClaimedBy input.leaseOwner input.expectedRevision input.completedAt)
    (.error ("Inbox " ++ input.key.exchangeId ++ " lease or revision conflict")))
  enqueueReply current input.reply
  let _ ← updateInbox input.key (fun row => row.revision = input.expectedRevision) fun row =>
    row.complete input.completedAt (input.reply.map (·.frame.exchangeId))
  appendFrame current.frame "inbox.completed" "complete" input.key.consumerId input.completedAt
  requireInbox input.key

/-- The row an update must have changed, with its journal entry. -/
def changedOutbox (id : String) (conflict event summary : String) (ts : Timestamp)
    (updated : Option ProtocolOutboxRecord) : Delivery ProtocolOutboxRecord := do
  let record ← lift (orThrow updated (.error ("Outbox " ++ id ++ conflict)))
  append (record.entry event summary ts)
  return record

def activateOutbox (id : String) (expectedRevision : Nat) (ts : Timestamp) :
    Delivery ProtocolOutboxRecord := do
  let updated ← updateOutbox id
    (fun row => row.status = .held ∧ row.activatedAt = none ∧ row.revision = expectedRevision)
    fun row => row.activate ts
  changedOutbox id " activation conflict" "outbox.activated" id ts updated

def claimOutbox (id owner : String) (now leaseExpiresAt : Timestamp) (expectedRevision : Nat) :
    Delivery (Option ProtocolOutboxRecord) := do
  lift (assertLease owner now leaseExpiresAt)
  let updated ← updateOutbox id
    (fun row => row.revision = expectedRevision ∧ row.Claimable now)
    fun row => row.claim owner leaseExpiresAt
  match updated with
  | none => return none
  | some record =>
      append (record.entry "outbox.claimed" owner now)
      return some record

def renewOutboxLease (id owner : String) (expectedRevision : Nat)
    (now leaseExpiresAt : Timestamp) : Delivery ProtocolOutboxRecord := do
  lift (assertLease owner now leaseExpiresAt)
  let updated ← updateOutbox id (fun row => row.ClaimedBy owner expectedRevision now)
    fun row => row.renew leaseExpiresAt
  changedOutbox id " lease or revision conflict" "outbox.lease_renewed" owner now updated

/-- `updateClaimedOutbox`: the worker that claimed the row ends its lease with a new status. -/
def updateClaimedOutbox (id owner : String) (expectedRevision : Nat) (ts : Timestamp)
    (status : ProtocolOutboxStatus) (event : String)
    (nextAttemptAt : Option Timestamp) : Delivery ProtocolOutboxRecord := do
  let updated ← updateOutbox id (fun row => row.ClaimedBy owner expectedRevision ts)
    fun row => row.release status ts nextAttemptAt
  changedOutbox id " lease or revision conflict" event id ts updated

def markOutboxSent (id owner : String) (expectedRevision : Nat) (ts : Timestamp) :
    Delivery ProtocolOutboxRecord := do
  let current ← requireOutbox id
  if current.status = .complete then
    return current
  else
    updateClaimedOutbox id owner expectedRevision ts .sent "outbox.sent" none

def retryOutbox (id owner : String) (expectedRevision : Nat) (now nextAttemptAt : Timestamp) :
    Delivery ProtocolOutboxRecord := do
  lift (ensure (now ≤ nextAttemptAt) (.error "Outbox retry time cannot be before now"))
  updateClaimedOutbox id owner expectedRevision now .pending "outbox.retry_scheduled"
    (some nextAttemptAt)

def failOutbox (id owner : String) (expectedRevision : Nat) (ts : Timestamp) :
    Delivery ProtocolOutboxRecord :=
  updateClaimedOutbox id owner expectedRevision ts .failed "outbox.failed" none

def claimInbox (key : ProtocolInboxKey) (owner : String) (now leaseExpiresAt : Timestamp)
    (expectedRevision : Nat) : Delivery (Option ProtocolInboxRecord) := do
  lift (assertLease owner now leaseExpiresAt)
  let updated ← updateInbox key
    (fun row => row.revision = expectedRevision ∧ row.Claimable now)
    fun row => row.claim owner leaseExpiresAt
  match updated with
  | none => return none
  | some record =>
      append (record.entry "inbox.claimed" owner now)
      return some record

def renewInboxLease (key : ProtocolInboxKey) (owner : String) (expectedRevision : Nat)
    (now leaseExpiresAt : Timestamp) : Delivery ProtocolInboxRecord := do
  lift (assertLease owner now leaseExpiresAt)
  let updated ← updateInbox key (fun row => row.ClaimedBy owner expectedRevision now)
    fun row => row.renew leaseExpiresAt
  let record ← lift (orThrow updated
    (.error ("Inbox " ++ key.exchangeId ++ " lease or revision conflict")))
  append (record.entry "inbox.lease_renewed" owner now)
  return record

/-- The rows `archiveSettled` takes: the first `limit` in the order of their settling. -/
def archiveBatch {α : Type} (settled : α → Bool) (order : α → α → Prop) [DecidableRel order]
    (limit : Nat) (rows : List α) : List α :=
  ((rows.filter settled).insertionSort order).take limit

/-- `ORDER BY completed_at, id`. -/
def outboxOrder (a b : ProtocolOutboxRecord) : Prop :=
  a.completedAt.getD "" < b.completedAt.getD "" ∨
    (a.completedAt = b.completedAt ∧ a.id ≤ b.id)

instance : DecidableRel outboxOrder := fun _ _ => inferInstanceAs (Decidable (_ ∨ _))

/-- `ORDER BY completed_at, consumer_id, protocol, exchange_id`. -/
def inboxOrder (a b : ProtocolInboxRecord) : Prop :=
  a.completedAt.getD "" < b.completedAt.getD "" ∨ (a.completedAt = b.completedAt ∧
    (a.consumerId < b.consumerId ∨ (a.consumerId = b.consumerId ∧
      (a.frame.protocol.text < b.frame.protocol.text ∨
        (a.frame.protocol = b.frame.protocol ∧ a.exchangeId ≤ b.exchangeId)))))

instance : DecidableRel inboxOrder := fun _ _ => inferInstanceAs (Decidable (_ ∨ _))

end Delivery

namespace ProtocolDelivery

def archivedOutbox (d : ProtocolDelivery) (before : Timestamp) (limit : Nat) :
    List ProtocolOutboxRecord :=
  Delivery.archiveBatch
    (fun row => row.status ∈ [.complete, .failed] ∧ row.completedAt.any (fun settledAt => settledAt < before))
    Delivery.outboxOrder limit d.outbox

def archivedInbox (d : ProtocolDelivery) (before : Timestamp) (limit : Nat) :
    List ProtocolInboxRecord :=
  Delivery.archiveBatch
    (fun row => row.status = .complete ∧ row.completedAt.any (fun settledAt => settledAt < before))
    Delivery.inboxOrder limit d.inbox

def archive (d : ProtocolDelivery) (outbox : List ProtocolOutboxRecord)
    (inbox : List ProtocolInboxRecord) : ProtocolDelivery where
  outbox := d.outbox.filter fun row => row.id ∉ outbox.map (·.id)
  inbox := d.inbox.filter fun row => row.key ∉ inbox.map (·.key)
  journal := d.journal
  outboxArchive := d.outboxArchive ++ outbox
  inboxArchive := d.inboxArchive ++ inbox
  outboxIds := d.outboxIds.filter _
  outboxExchanges := d.outboxExchanges.filter _
  inboxKeys := d.inboxKeys.filter _

@[simp] theorem archive_inboxRow (d : ProtocolDelivery) (outbox inbox) (key : ProtocolInboxKey) :
    (d.archive outbox inbox).inboxRow key =
      (d.inboxRow key).filter fun row => row.key ∉ inbox.map (·.key) :=
  d.inboxKeys.lookup_filter

end ProtocolDelivery

/-- `archiveSettled`: how many rows of each table were moved. -/
def Delivery.archiveSettled (before : Timestamp) (limit : Int := 1000) : Delivery (Nat × Nat) := do
  lift (ensure (0 < limit) (.error "Archive limit must be positive"))
  let outbox ← query fun d => d.archivedOutbox before limit.toNat
  let inbox ← query fun d => d.archivedInbox before limit.toNat
  write fun d => d.archive outbox inbox
  return (outbox.length, inbox.length)

end Newide
