import Newide.DeliverySteps

/-!
# Runs of delivery calls

The eleven operations on live rows as calls, what one call can do to one
row, and the rules of leases along every run of calls.  A call that
throws leaves the tables as they were.
-/

namespace Newide

open Fallible Transaction Delivery

inductive DeliveryCall where
  | enqueueOutbox (input : EnqueueProtocolOutbox)
  | receiveInbox (consumerId : String) (frame : ProtocolFrame) (receivedAt : Timestamp)
  | completeInbox (input : CompleteProtocolInbox)
  | activateOutbox (id : String) (revision : Nat) (ts : Timestamp)
  | claimOutbox (id owner : String) (now expiry : Timestamp) (revision : Nat)
  | renewOutboxLease (id owner : String) (revision : Nat) (now expiry : Timestamp)
  | markOutboxSent (id owner : String) (revision : Nat) (ts : Timestamp)
  | retryOutbox (id owner : String) (revision : Nat) (now nextAttemptAt : Timestamp)
  | failOutbox (id owner : String) (revision : Nat) (ts : Timestamp)
  | claimInbox (key : ProtocolInboxKey) (owner : String) (now expiry : Timestamp) (revision : Nat)
  | renewInboxLease (key : ProtocolInboxKey) (owner : String) (revision : Nat)
      (now expiry : Timestamp)

namespace DeliveryCall

def exec : DeliveryCall → Delivery Unit
  | .enqueueOutbox input => (fun _ => ()) <$> Delivery.enqueueOutbox input
  | .receiveInbox consumerId frame receivedAt =>
      (fun _ => ()) <$> Delivery.receiveInbox consumerId frame receivedAt
  | .completeInbox input => (fun _ => ()) <$> Delivery.completeInbox input
  | .activateOutbox id revision ts => (fun _ => ()) <$> Delivery.activateOutbox id revision ts
  | .claimOutbox id owner now expiry revision =>
      (fun _ => ()) <$> Delivery.claimOutbox id owner now expiry revision
  | .renewOutboxLease id owner revision now expiry =>
      (fun _ => ()) <$> Delivery.renewOutboxLease id owner revision now expiry
  | .markOutboxSent id owner revision ts =>
      (fun _ => ()) <$> Delivery.markOutboxSent id owner revision ts
  | .retryOutbox id owner revision now nextAttemptAt =>
      (fun _ => ()) <$> Delivery.retryOutbox id owner revision now nextAttemptAt
  | .failOutbox id owner revision ts => (fun _ => ()) <$> Delivery.failOutbox id owner revision ts
  | .claimInbox key owner now expiry revision =>
      (fun _ => ()) <$> Delivery.claimInbox key owner now expiry revision
  | .renewInboxLease key owner revision now expiry =>
      (fun _ => ()) <$> Delivery.renewInboxLease key owner revision now expiry

def frame : DeliveryCall → Option ProtocolFrame
  | .receiveInbox _ frame _ => some frame
  | _ => none

/-- The outbox row a worker renews, sends, retries or fails, under which owner and revision. -/
def outboxLease : DeliveryCall → Option (String × String × Nat)
  | .renewOutboxLease id owner revision _ _ => some (id, owner, revision)
  | .markOutboxSent id owner revision _ => some (id, owner, revision)
  | .retryOutbox id owner revision _ _ => some (id, owner, revision)
  | .failOutbox id owner revision _ => some (id, owner, revision)
  | _ => none

/-- The inbox row a worker renews or completes, under which owner and revision. -/
def inboxLease : DeliveryCall → Option (ProtocolInboxKey × String × Nat)
  | .completeInbox input => some (input.key, input.leaseOwner, input.expectedRevision)
  | .renewInboxLease key owner revision _ _ => some (key, owner, revision)
  | _ => none

def outboxRevision : DeliveryCall → Option (String × Nat)
  | .activateOutbox id revision _ => some (id, revision)
  | .claimOutbox id _ _ _ revision => some (id, revision)
  | call => call.outboxLease.map fun lease => (lease.1, lease.2.2)

def inboxRevision : DeliveryCall → Option (ProtocolInboxKey × Nat)
  | .claimInbox key _ _ _ revision => some (key, revision)
  | call => call.inboxLease.map fun lease => (lease.1, lease.2.2)

end DeliveryCall

def Succeeds (d : ProtocolDelivery) (call : DeliveryCall) : Prop :=
  (call.exec d).isOk = true

instance (d : ProtocolDelivery) (call : DeliveryCall) : Decidable (Succeeds d call) :=
  inferInstanceAs (Decidable (_ = _))

def serve (d : ProtocolDelivery) (call : DeliveryCall) : ProtocolDelivery :=
  match call.exec d with
  | .ok (_, d') => d'
  | .error _ => d

def serveAll (calls : List DeliveryCall) (d : ProtocolDelivery) : ProtocolDelivery :=
  calls.foldl serve d

theorem serveAll_invariant {I : ProtocolDelivery → Prop} {d : ProtocolDelivery} (hinit : I d)
    (hstep : ∀ d call, I d → I (serve d call)) (calls : List DeliveryCall) :
    I (serveAll calls d) :=
  List.foldlRecOn calls serve hinit fun d hd call _ => hstep d call hd

/-! ## What a call can do to a row -/

inductive OutboxColumns.Move (row : OutboxColumns) : OutboxColumns → Prop where
  | activate (ts : Timestamp) : row.status = .held → row.Move (row.activate ts)
  | claim {owner : String} {now expiry : Timestamp} : owner ≠ "" → now < expiry →
      row.Claimable now → row.Move (row.claim owner expiry)
  | renew {owner : String} {now expiry : Timestamp} : now < expiry →
      row.ClaimedBy owner row.revision now → row.Move (row.renew expiry)
  | release {owner : String} {ts : Timestamp} (status : ProtocolOutboxStatus)
      (nextAttemptAt : Option Timestamp) : status ∈ [.pending, .sent, .failed] →
      row.ClaimedBy owner row.revision ts → row.Move (row.release status ts nextAttemptAt)

/-- What a call can do to the outbox row of an id; `frame` is the one it delivers. -/
inductive OutboxMove (frame : Option ProtocolFrame) :
    Option ProtocolOutboxRecord → Option ProtocolOutboxRecord → Prop where
  | stays (row : Option ProtocolOutboxRecord) : OutboxMove frame row row
  | enqueued (input : EnqueueProtocolOutbox) : OutboxMove frame none (some input.row)
  | moves (row : ProtocolOutboxRecord) {columns : OutboxColumns} :
      row.Move columns → OutboxMove frame (some row) (some (row.withColumns columns))
  | settled (row : ProtocolOutboxRecord) {receipt : ProtocolFrame} (ts : Timestamp) :
      frame = some receipt → Settles receipt row → row.status ∈ [.held, .pending, .sent] →
      OutboxMove frame (some row) (some (row.withColumns (row.complete ts)))

inductive InboxMove (key : ProtocolInboxKey) :
    DeliveryCall → Option ProtocolInboxRecord → Option ProtocolInboxRecord → Prop where
  | stays (call : DeliveryCall) (row : Option ProtocolInboxRecord) : InboxMove key call row row
  | received (consumerId : String) (frame : ProtocolFrame) (receivedAt : Timestamp) :
      key = (receivedRow consumerId frame receivedAt).key → InboxMove key
        (.receiveInbox consumerId frame receivedAt) none
        (some (receivedRow consumerId frame receivedAt))
  | claimed (row : ProtocolInboxRecord) {owner : String} {now expiry : Timestamp}
      {revision : Nat} : owner ≠ "" → now < expiry → row.revision = revision →
      row.Claimable now → InboxMove key (.claimInbox key owner now expiry revision) (some row)
        (some (row.withColumns (row.claim owner expiry)))
  | renewed (row : ProtocolInboxRecord) {owner : String} {now expiry : Timestamp}
      {revision : Nat} : now < expiry → row.ClaimedBy owner revision now →
      InboxMove key (.renewInboxLease key owner revision now expiry) (some row)
        (some (row.withColumns (row.renew expiry)))
  | completed (row : ProtocolInboxRecord) {input : CompleteProtocolInbox} : key = input.key →
      row.ClaimedBy input.leaseOwner input.expectedRevision input.completedAt →
      InboxMove key (.completeInbox input) (some row) (some (row.withColumns
        (row.complete input.completedAt (input.reply.map (·.frame.exchangeId)))))

/-- Every row moves or stays. -/
structure Moves (call : DeliveryCall) (d d' : ProtocolDelivery) : Prop where
  outbox : ∀ id, OutboxMove call.frame (d.outboxRow id) (d'.outboxRow id)
  inbox : ∀ key, InboxMove key call (d.inboxRow key) (d'.inboxRow key)

variable {entry : ProtocolJournalRecord} {id : String} {u : PUnit}

namespace Moves

variable {d d' : ProtocolDelivery} {call : DeliveryCall} {frame : Option ProtocolFrame}

theorem refl (d : ProtocolDelivery) : Moves call d d :=
  ⟨fun _ => .stays _, fun _ => .stays _ _⟩

theorem addOutbox {input : EnqueueProtocolOutbox} {hid hexchange} (id : String) :
    OutboxMove frame (d.outboxRow id)
      (((d.addOutbox input.row hid hexchange).log entry).outboxRow id) := by
  by_cases h : id = input.row.id
  · subst h
    rw [hid]
    simpa using OutboxMove.enqueued input
  · simpa [h] using OutboxMove.stays _

theorem setOutbox {row : ProtocolOutboxRecord} {columns : OutboxColumns}
    (hrow : d.outboxRow id = some row) (h : row.Move columns) :
    Moves call d ((d.setOutbox id columns).log entry) := by
  refine ⟨fun other => ?_, fun key => .stays _ _⟩
  by_cases hid : other = id
  · subst hid
    simpa [hrow] using OutboxMove.moves row h
  · simpa [hid] using OutboxMove.stays _

theorem setInbox {key : ProtocolInboxKey} {columns : InboxColumns}
    (h : InboxMove key call (d.inboxRow key) ((d.inboxRow key).map (·.withColumns columns))) :
    Moves call d ((d.setInbox key columns).log entry) := by
  refine ⟨fun id => .stays _, fun other => ?_⟩
  by_cases hkey : other = key
  · subst hkey
    simpa using h
  · simpa [hkey] using InboxMove.stays _ _

theorem updateClaimedOutbox {owner event : String} {revision : Nat} {ts : Timestamp}
    {status : ProtocolOutboxStatus} {nextAttemptAt : Option Timestamp}
    {record : ProtocolOutboxRecord} (hstatus : status ∈ [.pending, .sent, .failed])
    (h : Delivery.updateClaimedOutbox id owner revision ts status event nextAttemptAt d =
      .ok (record, d')) : Moves call d d' := by
  obtain ⟨row, hrow, hclaimed, _, rfl⟩ := updateClaimedOutbox_eq_ok.mp h
  have hown : row.ClaimedBy owner row.revision ts := by rwa [← hclaimed.2.2.1] at hclaimed
  exact setOutbox hrow (.release status nextAttemptAt hstatus hown)

theorem completeOriginal {receipt : ProtocolFrame} {receivedAt : Timestamp}
    (h : Delivery.completeOriginal receipt receivedAt d = .ok (u, d')) :
    (∀ id, OutboxMove (some receipt) (d.outboxRow id) (d'.outboxRow id)) ∧
      ∀ key, d'.inboxRow key = d.inboxRow key := by
  rcases completeOriginal_cases h with rfl | ⟨row, hrow, hstatus, hsettles, rfl⟩
  · exact ⟨fun _ => .stays _, fun _ => rfl⟩
  · refine ⟨fun id => ?_, fun _ => rfl⟩
    by_cases hid : id = row.id
    · subst hid
      simpa [hrow] using OutboxMove.settled row receivedAt rfl hsettles hstatus
    · simpa [hid] using OutboxMove.stays _

theorem enqueueReply {current : ProtocolInboxRecord} {reply : Option EnqueueProtocolOutbox}
    (h : Delivery.enqueueReply current reply d = .ok (u, d')) (id : String) :
    OutboxMove frame (d.outboxRow id) (d'.outboxRow id) := by
  rcases enqueueReply_eq_ok.mp h with ⟨_, rfl⟩ | ⟨input, _, _, henqueue⟩
  · exact .stays _
  · obtain ⟨_, _, _, _, rfl⟩ := enqueueOutbox_eq_ok.mp henqueue
    exact addOutbox id

theorem exec {u : Unit} (h : call.exec d = .ok (u, d')) : Moves call d d' := by
  cases call with
  | enqueueOutbox input =>
      obtain ⟨_, hop, _⟩ := map_eq_ok.mp h
      obtain ⟨_, _, _, _, rfl⟩ := enqueueOutbox_eq_ok.mp hop
      exact ⟨addOutbox, fun _ => .stays _ _⟩
  | receiveInbox consumerId frame receivedAt =>
      obtain ⟨_, hop, _⟩ := map_eq_ok.mp h
      rcases (receiveInbox_eq_ok.mp hop).2 with ⟨hkey, _, hcomplete⟩ | ⟨_, _, _, _, rfl⟩
      · obtain ⟨houtbox, hinbox⟩ := completeOriginal hcomplete
        refine ⟨fun id => houtbox id, fun key => ?_⟩
        rw [hinbox key]
        by_cases hown : key = (receivedRow consumerId frame receivedAt).key
        · rw [hown, hkey]
          simpa using InboxMove.received consumerId frame receivedAt rfl
        · simpa [hown] using InboxMove.stays _ _
      · exact refl d
  | completeInbox input =>
      obtain ⟨_, hop, _⟩ := map_eq_ok.mp h
      obtain ⟨row, hrow, hclaimed, d₁, hreply, rfl, rfl⟩ := completeInbox_eq_ok.mp hop
      refine ⟨fun id => enqueueReply hreply id, fun key => ?_⟩
      have hinbox := enqueueReply_inboxRow hreply
      by_cases hkey : key = input.key
      · subst hkey
        simpa [hinbox, hrow] using InboxMove.completed row rfl hclaimed
      · simpa [hkey, hinbox] using InboxMove.stays _ _
  | activateOutbox id revision ts =>
      obtain ⟨_, hop, _⟩ := map_eq_ok.mp h
      obtain ⟨row, hrow, hguard, _, rfl⟩ := activateOutbox_eq_ok.mp hop
      exact setOutbox hrow (.activate ts hguard.1)
  | claimOutbox id owner now expiry revision =>
      obtain ⟨_, hop, _⟩ := map_eq_ok.mp h
      obtain ⟨hlease, ⟨row, hrow, hguard, _, _, _, rfl⟩ | ⟨_, _, rfl⟩⟩ := claimOutbox_eq_ok.mp hop
      · exact setOutbox hrow (.claim hlease.1 hlease.2 hguard.2)
      · exact refl d
  | renewOutboxLease id owner revision now expiry =>
      obtain ⟨_, hop, _⟩ := map_eq_ok.mp h
      obtain ⟨hlease, row, hrow, hclaimed, _, rfl⟩ := renewOutboxLease_eq_ok.mp hop
      have hown : row.ClaimedBy owner row.revision now := by rwa [← hclaimed.2.2.1] at hclaimed
      exact setOutbox hrow (.renew hlease.2 hown)
  | markOutboxSent id owner revision ts =>
      obtain ⟨_, hop, _⟩ := map_eq_ok.mp h
      obtain ⟨_, _, ⟨_, _, rfl⟩ | ⟨_, hsent⟩⟩ := markOutboxSent_eq_ok.mp hop
      · exact refl d
      · exact updateClaimedOutbox (by decide) hsent
  | retryOutbox id owner revision now nextAttemptAt =>
      obtain ⟨_, hop, _⟩ := map_eq_ok.mp h
      exact updateClaimedOutbox (by decide) (retryOutbox_eq_ok.mp hop).2
  | failOutbox id owner revision ts =>
      obtain ⟨_, hop, _⟩ := map_eq_ok.mp h
      exact updateClaimedOutbox (by decide) hop
  | claimInbox key owner now expiry revision =>
      obtain ⟨_, hop, _⟩ := map_eq_ok.mp h
      obtain ⟨hlease, ⟨row, hrow, hguard, _, _, _, rfl⟩ | ⟨_, _, rfl⟩⟩ := claimInbox_eq_ok.mp hop
      · refine setInbox ?_
        rw [hrow]
        exact .claimed row hlease.1 hlease.2 hguard.1 hguard.2
      · exact refl d
  | renewInboxLease key owner revision now expiry =>
      obtain ⟨_, hop, _⟩ := map_eq_ok.mp h
      obtain ⟨hlease, row, hrow, hclaimed, _, rfl⟩ := renewInboxLease_eq_ok.mp hop
      refine setInbox ?_
      rw [hrow]
      exact .renewed row hlease.2 hclaimed

theorem serve (d : ProtocolDelivery) (call : DeliveryCall) : Moves call d (serve d call) := by
  unfold Newide.serve
  cases h : call.exec d with
  | error e => exact refl d
  | ok out => exact exec h

end Moves

end Newide
