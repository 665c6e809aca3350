import Newide.DeliveryRuns
import Newide.Foundation.Journals

/-!
# Replaying the protocol journal

The journal of the delivery tables read back as statuses.  An entry
`outbox.*` is about the exchange of its frame, except that the completion
recorded through a receipt is about the exchange the receipt was caused
by.  The outbox part replays to the outbox.  An entry `inbox.*` names no
consumer, so the inbox part replays to the row of an exchange that one
consumer has received.
-/

namespace Newide

open Fallible Transaction Delivery ProtocolInboxRecord JournalReading Delivery

/-! ## Reading the journal -/

/-- `event LIKE '<family>%'`. -/
def EventOf (family event : String) : Prop :=
  family.toList <+: event.toList

instance (family event : String) : Decidable (EventOf family event) :=
  inferInstanceAs (Decidable (_ <+: _))

variable {event id : String} {row : ProtocolInboxRecord} {columns : OutboxColumns}
  {receivedAt ts : Timestamp} {record : ProtocolOutboxRecord} {u : PUnit}

theorem EventOf.not_inbox (h : EventOf "outbox." event) :
    ¬ EventOf "inbox." event := by
  intro hinbox
  unfold EventOf at h hinbox
  cases hevent : event.toList with
  | nil => simp [hevent] at h
  | cons c rest =>
      rw [hevent] at h hinbox
      have hout : 'o' = c := (List.cons_prefix_cons.mp h).1
      have hin : 'i' = c := (List.cons_prefix_cons.mp hinbox).1
      exact absurd (hin.trans hout.symm) (by decide)

theorem EventOf.not_outbox (h : EventOf "inbox." event) :
    ¬ EventOf "outbox." event :=
  fun houtbox => houtbox.not_inbox h

namespace ProtocolJournalRecord

def exchange (entry : ProtocolJournalRecord) : ProtocolId × String :=
  (entry.frame.protocol, entry.frame.exchangeId)

def cause (entry : ProtocolJournalRecord) : Option (ProtocolId × String) :=
  entry.frame.causationId.map fun causationId => (entry.frame.protocol, causationId)

end ProtocolJournalRecord

/-- The `outbox.*` entries, with the status each leaves. -/
def outboxReading : JournalReading ProtocolJournalRecord (ProtocolId × String) String where
  concern entry :=
    if entry.event = "outbox.completed" then entry.cause
    else if EventOf "outbox." entry.event then some entry.exchange
    else none
  value entry := entry.status

/-- The `inbox.*` entries, with the status each leaves. -/
def inboxReading : JournalReading ProtocolJournalRecord (ProtocolId × String) String where
  concern entry := if EventOf "inbox." entry.event then some entry.exchange else none
  value entry := entry.status

def ProtocolInboxRecord.exchange (row : ProtocolInboxRecord) : ProtocolId × String :=
  (row.frame.protocol, row.frame.exchangeId)

theorem ProtocolInboxRecord.key_ne {exchange : ProtocolId × String} (hne : exchange ≠ row.exchange)
    (consumerId : String) :
    (⟨consumerId, exchange.1, exchange.2⟩ : ProtocolInboxKey) ≠ row.key := by
  intro hkey
  exact hne (Prod.ext (congrArg ProtocolInboxKey.protocol hkey)
    (congrArg ProtocolInboxKey.exchangeId hkey))

section Entries

variable {entry : ProtocolJournalRecord}

@[simp] theorem outboxReading_value : outboxReading.value entry = entry.status := rfl

@[simp] theorem inboxReading_value : inboxReading.value entry = entry.status := rfl

theorem outbox_concern (htells : EventOf "outbox." entry.event) (hevent : entry.event ≠ "outbox.completed") :
    outboxReading.concern entry = some entry.exchange := by
  simp [outboxReading, htells, hevent]

theorem outbox_concern_completed (hevent : entry.event = "outbox.completed") :
    outboxReading.concern entry = entry.cause :=
  if_pos hevent

theorem outbox_concern_none (htells : EventOf "inbox." entry.event) :
    outboxReading.concern entry = none := by
  have hevent : entry.event ≠ "outbox.completed" := by
    intro h
    exact htells.not_outbox (h ▸ by decide)
  simp [outboxReading, hevent, htells.not_outbox]

theorem inbox_concern (htells : EventOf "inbox." entry.event) :
    inboxReading.concern entry = some entry.exchange :=
  if_pos htells

theorem inbox_concern_none (htells : EventOf "outbox." entry.event) : inboxReading.concern entry = none :=
  if_neg htells.not_inbox

end Entries

/-! ## The tables the journal tells of -/

namespace ProtocolDelivery

variable {d d' : ProtocolDelivery}

def outboxStatus (d : ProtocolDelivery) (exchange : ProtocolId × String) : Option String :=
  (d.exchangeRow exchange).map (·.status.text)

/-- A consumer has an inbox row for the exchange, in this status. -/
def InboxStatus (d : ProtocolDelivery) (exchange : ProtocolId × String) (status : String) : Prop :=
  ∃ consumerId row, d.inboxRow ⟨consumerId, exchange.1, exchange.2⟩ = some row ∧
    row.status.text = status

/-- The journal tells where the rows are. -/
structure Journaled (d : ProtocolDelivery) : Prop where
  outbox : outboxReading.Mirrors d.journal d.outboxStatus
  inbox : inboxReading.Reflects d.journal d.InboxStatus

theorem Journaled.empty : Journaled .empty where
  outbox _ := rfl
  inbox :=
    { shown := fun hshown => by cases hshown
      told := by
        rintro k v ⟨_, _, hrow, _⟩
        cases hrow }

theorem exchangeRow_of_row {row : ProtocolOutboxRecord} (h : d.outboxRow id = some row) :
    d.exchangeRow row.exchange = some row :=
  d.outboxExchanges.lookup_of_mem (Rows.lookup_mem h)

theorem exchange_of_id {row other : ProtocolOutboxRecord} {exchange : ProtocolId × String}
    (h : d.outboxRow row.id = some row) (hother : d.exchangeRow exchange = some other)
    (hid : other.id = row.id) : exchange = row.exchange := by
  have hrow := outboxRow_of_exchange hother
  rw [hid, h] at hrow
  cases hrow
  exact (exchangeRow_exchange hother).symm

/-! ## One write and its entry -/

variable {entry : ProtocolJournalRecord}

theorem Journaled.addOutbox (h : d.Journaled) {row : ProtocolOutboxRecord} {hid hexchange}
    (htells : EventOf "outbox." entry.event) (hconcern : outboxReading.concern entry = some row.exchange)
    (hstatus : entry.status = row.status.text) :
    ((d.addOutbox row hid hexchange).log entry).Journaled where
  outbox := by
    refine h.outbox.snoc fun exchange => ?_
    by_cases hsame : exchange = row.exchange
    · subst hsame
      simp [note_self hconcern, outboxStatus, hstatus]
    · rw [note_ne (by simpa [hconcern] using Ne.symm hsame)]
      simp [outboxStatus, hsame]
  inbox := h.inbox.skip (inbox_concern_none htells)

theorem Journaled.setOutbox (h : d.Journaled) {row : ProtocolOutboxRecord}
    (hrow : d.outboxRow id = some row) (htells : EventOf "outbox." entry.event)
    (hconcern : outboxReading.concern entry = some row.exchange)
    (hstatus : entry.status = columns.status.text) :
    ((d.setOutbox id columns).log entry).Journaled where
  outbox := by
    obtain rfl := outboxRow_id hrow
    refine h.outbox.snoc fun exchange => ?_
    by_cases hsame : exchange = row.exchange
    · subst hsame
      simp [note_self hconcern, outboxStatus, hstatus, exchangeRow_of_row hrow]
    · rw [note_ne (by simpa [hconcern] using Ne.symm hsame)]
      cases hother : d.exchangeRow exchange with
      | none => simp [outboxStatus, hother]
      | some other =>
          have hid : other.id ≠ row.id := fun hid => hsame (exchange_of_id hrow hother hid)
          simp [outboxStatus, hother, hid]
  inbox := h.inbox.skip (inbox_concern_none htells)

theorem Journaled.addInbox (h : d.Journaled) {hkey} (htells : EventOf "inbox." entry.event)
    (hexchange : entry.exchange = row.exchange) (hstatus : entry.status = row.status.text) :
    ((d.addInbox row hkey).log entry).Journaled where
  outbox := h.outbox.skip (outbox_concern_none htells)
  inbox := by
    refine h.inbox.snoc ((inbox_concern htells).trans (congrArg some hexchange))
      ⟨row.consumerId, row, ?_, hstatus.symm⟩ fun other status hne => ?_
    · simp [exchange, key]
    · simp [InboxStatus, key_ne hne]

theorem Journaled.setInbox (h : d.Journaled) {key : ProtocolInboxKey} {columns : InboxColumns}
    (hrow : d.inboxRow key = some row) (htells : EventOf "inbox." entry.event)
    (hexchange : entry.exchange = row.exchange) (hstatus : entry.status = columns.status.text) :
    ((d.setInbox key columns).log entry).Journaled where
  outbox := h.outbox.skip (outbox_concern_none htells)
  inbox := by
    obtain rfl := inboxRow_key hrow
    refine h.inbox.snoc ((inbox_concern htells).trans (congrArg some hexchange))
      ⟨row.consumerId, row.withColumns columns, ?_, hstatus.symm⟩ fun other status hne => ?_
    · have hkey : (⟨row.consumerId, row.exchange.1, row.exchange.2⟩ : ProtocolInboxKey) = row.key :=
        rfl
      simp [hkey, hrow]
    · simp [InboxStatus, key_ne hne]

end ProtocolDelivery

/-! ## Every call -/

namespace ProtocolDelivery

variable {d d' : ProtocolDelivery}

theorem Journaled.moved (h : d.Journaled) {summary : String} {row : ProtocolOutboxRecord}
    (hrow : d.outboxRow id = some row) (htells : EventOf "outbox." event)
    (hevent : event ≠ "outbox.completed") :
    ((d.setOutbox id columns).log
      ((row.withColumns columns).read.entry event summary ts)).Journaled := by
  have hexchange : ((row.withColumns columns).read.entry event summary ts).exchange =
      row.exchange := by
    unfold ProtocolOutboxRecord.read
    split <;> rfl
  have hstatus : (row.withColumns columns).read.status = columns.status :=
    congrArg OutboxColumns.status (ProtocolOutboxRecord.read_columns (row.withColumns columns))
  exact h.setOutbox hrow htells ((outbox_concern htells hevent).trans (congrArg some hexchange))
    (congrArg ProtocolOutboxStatus.text hstatus)

theorem Journaled.updateClaimedOutbox (h : d.Journaled) {owner : String} {revision : Nat}
    {status : ProtocolOutboxStatus} {nextAttemptAt : Option Timestamp}
    (htells : EventOf "outbox." event) (hevent : event ≠ "outbox.completed")
    (hop : updateClaimedOutbox id owner revision ts status event nextAttemptAt d =
      .ok (record, d')) : d'.Journaled := by
  obtain ⟨row, hrow, _, rfl, rfl⟩ := updateClaimedOutbox_eq_ok.mp hop
  exact h.moved hrow htells hevent

theorem Journaled.enqueueOutbox (h : d.Journaled) {input : EnqueueProtocolOutbox}
    (hop : enqueueOutbox input d = .ok (record, d')) :
    d'.Journaled := by
  obtain ⟨_, _, _, _, rfl⟩ := enqueueOutbox_eq_ok.mp hop
  have htells : EventOf "outbox." "outbox.enqueued" := by decide
  exact h.addOutbox htells (outbox_concern htells (by simp [ProtocolOutboxRecord.entry])) rfl

theorem Journaled.completeOriginal (h : d.Journaled) {receipt : ProtocolFrame}
    (hop : completeOriginal receipt receivedAt d = .ok (u, d')) : d'.Journaled := by
  rcases completeOriginal_cases hop with rfl | ⟨row, hrow, _, ⟨_, hcausation, hprotocol, _⟩, rfl⟩
  · exact h
  · have htells : EventOf "outbox." "outbox.completed" := by decide
    refine h.setOutbox hrow htells ?_ rfl
    have hcause : receipt.causationId.map (fun causationId => (receipt.protocol, causationId)) =
        some row.exchange := by
      rw [hcausation, hprotocol]
      rfl
    exact (outbox_concern_completed rfl).trans hcause

theorem Journaled.receiveInbox (h : d.Journaled) {consumerId : String} {frame : ProtocolFrame}
    {out : ProtocolInboxRecord × Bool}
    (hop : receiveInbox consumerId frame receivedAt d = .ok (out, d')) : d'.Journaled := by
  rcases (receiveInbox_eq_ok.mp hop).2 with ⟨hkey, _, hcomplete⟩ | ⟨_, _, _, _, rfl⟩
  · have htells : EventOf "inbox." "inbox.received" := by decide
    exact (h.addInbox htells rfl rfl).completeOriginal hcomplete
  · exact h

theorem Journaled.enqueueReply (h : d.Journaled) {current : ProtocolInboxRecord}
    {reply : Option EnqueueProtocolOutbox}
    (hop : enqueueReply current reply d = .ok (u, d')) : d'.Journaled := by
  rcases enqueueReply_eq_ok.mp hop with ⟨_, rfl⟩ | ⟨_, _, _, henqueue⟩
  · exact h
  · exact h.enqueueOutbox henqueue

theorem Journaled.completeInbox (h : d.Journaled) {input : CompleteProtocolInbox}
    {record : ProtocolInboxRecord} (hop : completeInbox input d = .ok (record, d')) :
    d'.Journaled := by
  obtain ⟨row, hrow, _, d₁, hreply, rfl, rfl⟩ := completeInbox_eq_ok.mp hop
  have htells : EventOf "inbox." "inbox.completed" := by decide
  exact (h.enqueueReply hreply).setInbox ((enqueueReply_inboxRow hreply _).trans hrow) htells rfl rfl

theorem Journaled.exec (h : d.Journaled) {call : DeliveryCall} {u : Unit}
    (hcall : call.exec d = .ok (u, d')) : d'.Journaled := by
  cases call with
  | enqueueOutbox input =>
      obtain ⟨_, hop, _⟩ := map_eq_ok.mp hcall
      exact h.enqueueOutbox hop
  | receiveInbox consumerId frame receivedAt =>
      obtain ⟨_, hop, _⟩ := map_eq_ok.mp hcall
      exact h.receiveInbox hop
  | completeInbox input =>
      obtain ⟨_, hop, _⟩ := map_eq_ok.mp hcall
      exact h.completeInbox hop
  | activateOutbox id revision ts =>
      obtain ⟨_, hop, _⟩ := map_eq_ok.mp hcall
      obtain ⟨row, hrow, _, rfl, rfl⟩ := activateOutbox_eq_ok.mp hop
      exact h.moved hrow (by decide) (by decide)
  | claimOutbox id owner now expiry revision =>
      obtain ⟨_, hop, _⟩ := map_eq_ok.mp hcall
      obtain ⟨_, ⟨row, hrow, _, _, rfl, _, rfl⟩ | ⟨_, _, rfl⟩⟩ := claimOutbox_eq_ok.mp hop
      · exact h.moved hrow (by decide) (by decide)
      · exact h
  | renewOutboxLease id owner revision now expiry =>
      obtain ⟨_, hop, _⟩ := map_eq_ok.mp hcall
      obtain ⟨_, row, hrow, _, rfl, rfl⟩ := renewOutboxLease_eq_ok.mp hop
      exact h.moved hrow (by decide) (by decide)
  | markOutboxSent id owner revision ts =>
      obtain ⟨_, hop, _⟩ := map_eq_ok.mp hcall
      obtain ⟨_, _, ⟨_, _, rfl⟩ | ⟨_, hsent⟩⟩ := markOutboxSent_eq_ok.mp hop
      · exact h
      · exact h.updateClaimedOutbox (by decide) (by decide) hsent
  | retryOutbox id owner revision now nextAttemptAt =>
      obtain ⟨_, hop, _⟩ := map_eq_ok.mp hcall
      exact h.updateClaimedOutbox (by decide) (by decide) (retryOutbox_eq_ok.mp hop).2
  | failOutbox id owner revision ts =>
      obtain ⟨_, hop, _⟩ := map_eq_ok.mp hcall
      exact h.updateClaimedOutbox (by decide) (by decide) hop
  | claimInbox key owner now expiry revision =>
      obtain ⟨_, hop, _⟩ := map_eq_ok.mp hcall
      obtain ⟨_, ⟨row, hrow, _, _, rfl, _, rfl⟩ | ⟨_, _, rfl⟩⟩ := claimInbox_eq_ok.mp hop
      · have htells : EventOf "inbox." "inbox.claimed" := by decide
        exact h.setInbox hrow htells rfl rfl
      · exact h
  | renewInboxLease key owner revision now expiry =>
      obtain ⟨_, hop, _⟩ := map_eq_ok.mp hcall
      obtain ⟨_, row, hrow, _, rfl, rfl⟩ := renewInboxLease_eq_ok.mp hop
      have htells : EventOf "inbox." "inbox.lease_renewed" := by decide
      exact h.setInbox hrow htells rfl rfl

theorem Journaled.serve (h : d.Journaled) (call : DeliveryCall) : (serve d call).Journaled := by
  unfold Newide.serve
  cases hcall : call.exec d with
  | error _ => exact h
  | ok out => exact h.exec hcall

theorem journaled (calls : List DeliveryCall) : (serveAll calls .empty).Journaled :=
  serveAll_invariant Journaled.empty (fun _ call h => h.serve call) calls

/-! ## The journal and the tables -/

/-- The journal replays to the status of each outbox row. -/
def OutboxReplays (d : ProtocolDelivery) : Prop :=
  ∀ row ∈ d.outbox, outboxReading.replay d.journal row.exchange = some row.status.text

/-- The journal replays to the status of each inbox row. -/
def InboxReplays (d : ProtocolDelivery) : Prop :=
  ∀ row ∈ d.inbox, inboxReading.replay d.journal row.exchange = some row.status.text

/-- No other consumer has received the exchange of the row. -/
def SoleConsumer (d : ProtocolDelivery) (row : ProtocolInboxRecord) : Prop :=
  ∀ other ∈ d.inbox, other.exchange = row.exchange → other.consumerId = row.consumerId

instance (d : ProtocolDelivery) : Decidable d.OutboxReplays :=
  inferInstanceAs (Decidable (∀ row ∈ d.outbox, _ = _))

instance (d : ProtocolDelivery) : Decidable d.InboxReplays :=
  inferInstanceAs (Decidable (∀ row ∈ d.inbox, _ = _))

theorem Journaled.outboxReplays (h : d.Journaled) : d.OutboxReplays := by
  intro row hrow
  rw [h.outbox row.exchange, outboxStatus, exchangeRow_of_row (d.outboxIds.lookup_of_mem hrow)]
  rfl

theorem Journaled.inboxReplays (h : d.Journaled) (hrow : row ∈ d.inbox) :
    ∃ other ∈ d.inbox, other.exchange = row.exchange ∧
      inboxReading.replay d.journal row.exchange = some other.status.text := by
  have hstatus : d.InboxStatus row.exchange row.status.text :=
    ⟨row.consumerId, row, d.inboxKeys.lookup_of_mem hrow, rfl⟩
  cases hshown : inboxReading.replay d.journal row.exchange with
  | none => exact absurd hshown (h.inbox.told hstatus)
  | some status =>
      obtain ⟨consumerId, other, hother, rfl⟩ := h.inbox.shown hshown
      have hkey := inboxRow_key hother
      exact ⟨other, Rows.lookup_mem hother, Prod.ext (congrArg ProtocolInboxKey.protocol hkey)
        (congrArg ProtocolInboxKey.exchangeId hkey), rfl⟩

theorem Journaled.inboxReplays_sole (h : d.Journaled) (hrow : row ∈ d.inbox)
    (hsole : d.SoleConsumer row) :
    inboxReading.replay d.journal row.exchange = some row.status.text := by
  obtain ⟨other, hother, hexchange, hreplay⟩ := h.inboxReplays hrow
  have hkey : other.key = row.key := by
    obtain ⟨hprotocol, hid⟩ := Prod.mk.inj hexchange
    simp [key, hsole other hother hexchange, hprotocol, hid]
  rw [hreplay, d.inboxKeys.eq_of_key hother hrow hkey]

end ProtocolDelivery

open ProtocolDelivery in
/-- After every run of calls the journal replays to the status of each outbox row, and to the
status of an inbox row of each exchange, which is the only one if one consumer has received it. -/
theorem journal_replays (calls : List DeliveryCall) :
    (serveAll calls .empty).OutboxReplays ∧ ∀ row ∈ (serveAll calls .empty).inbox,
      (∃ other ∈ (serveAll calls .empty).inbox, other.exchange = row.exchange ∧
        inboxReading.replay (serveAll calls .empty).journal row.exchange =
          some other.status.text) ∧
      ((serveAll calls .empty).SoleConsumer row →
        inboxReading.replay (serveAll calls .empty).journal row.exchange =
          some row.status.text) := by
  have h := journaled calls
  exact ⟨h.outboxReplays, fun row hrow => ⟨h.inboxReplays hrow, h.inboxReplays_sole hrow⟩⟩

/-- One exchange received by two consumers: the journal shows the claim of the first for both. -/
theorem received_twice :
    ¬ ∀ calls, (serveAll calls .empty).OutboxReplays ∧ (serveAll calls .empty).InboxReplays := by
  intro h
  have hrun := h [.receiveInbox "coder" sampleExecute.toFrame "2026-01-01T00:00:00.000Z",
    .receiveInbox "reviewer" sampleExecute.toFrame "2026-01-01T00:00:00.000Z",
    .claimInbox ⟨"coder", .systemAgent, "x"⟩ "worker" "2026-01-01T00:00:01.000Z"
      "2026-01-01T00:05:00.000Z" 1]
  exact absurd hrun.2 (by decide)

end Newide
