import Newide.DeliveryRuns

/-!
# Lease fencing

In every reachable state of the delivery tables one owner and revision
can act on a row, a call with an older revision changes nothing, and the
statuses of a row only move forward.  Two operations look past the
lease: `markOutboxSent` returns a complete row to any caller, and the
receipt of an exchange completes its outbox row in whatever open status
it finds it.
-/

namespace Newide

open Fallible Transaction Delivery ProtocolOutboxStatus

variable {d d' : ProtocolDelivery} {call : DeliveryCall}

/-! ## The owner and the revision -/

variable {id owner : String} {revision : Nat} {u : Unit} {key : ProtocolInboxKey}
  {columns : OutboxColumns}

theorem updateClaimedOutbox_fenced {event : String} {ts : Timestamp} {status : ProtocolOutboxStatus}
    {nextAttemptAt : Option Timestamp} {record : ProtocolOutboxRecord}
    (h : updateClaimedOutbox id owner revision ts status event nextAttemptAt d =
      .ok (record, d')) :
    ∃ row, d.outboxRow id = some row ∧ row.status = .pending ∧ row.leaseOwner = some owner ∧
      row.revision = revision := by
  obtain ⟨row, hrow, hclaimed, _⟩ := updateClaimedOutbox_eq_ok.mp h
  exact ⟨row, hrow, hclaimed.1, hclaimed.2.1, hclaimed.2.2.1⟩

/-- A worker that acts on an outbox row owns it at its revision, unless it is told that the row
is complete. -/
theorem outboxLease_fenced (hlease : call.outboxLease = some (id, owner, revision))
    (h : call.exec d = .ok (u, d')) :
    (∃ row, d.outboxRow id = some row ∧ row.status = .pending ∧ row.leaseOwner = some owner ∧
      row.revision = revision) ∨
    (∃ row, d.outboxRow id = some row ∧ row.status = .complete ∧ d' = d) := by
  cases call with
  | renewOutboxLease =>
      cases hlease
      obtain ⟨_, hop, _⟩ := map_eq_ok.mp h
      obtain ⟨_, row, hrow, hclaimed, _⟩ := renewOutboxLease_eq_ok.mp hop
      exact .inl ⟨row, hrow, hclaimed.1, hclaimed.2.1, hclaimed.2.2.1⟩
  | markOutboxSent =>
      cases hlease
      obtain ⟨_, hop, _⟩ := map_eq_ok.mp h
      obtain ⟨row, hrow, ⟨hstatus, _, rfl⟩ | ⟨_, hsent⟩⟩ := markOutboxSent_eq_ok.mp hop
      · exact .inr ⟨row, hrow, hstatus, rfl⟩
      · exact .inl (updateClaimedOutbox_fenced hsent)
  | retryOutbox =>
      cases hlease
      obtain ⟨_, hop, _⟩ := map_eq_ok.mp h
      exact .inl (updateClaimedOutbox_fenced (retryOutbox_eq_ok.mp hop).2)
  | failOutbox =>
      cases hlease
      obtain ⟨_, hop, _⟩ := map_eq_ok.mp h
      exact .inl (updateClaimedOutbox_fenced hop)
  | enqueueOutbox | receiveInbox | completeInbox | activateOutbox | claimOutbox | claimInbox
  | renewInboxLease => cases hlease

theorem inboxLease_fenced (hlease : call.inboxLease = some (key, owner, revision))
    (h : call.exec d = .ok (u, d')) :
    ∃ row, d.inboxRow key = some row ∧ row.leaseOwner = some owner ∧ row.revision = revision := by
  cases call with
  | completeInbox =>
      cases hlease
      obtain ⟨_, hop, _⟩ := map_eq_ok.mp h
      obtain ⟨row, hrow, hclaimed, _⟩ := completeInbox_eq_ok.mp hop
      exact ⟨row, hrow, hclaimed.2.1, hclaimed.2.2.1⟩
  | renewInboxLease =>
      cases hlease
      obtain ⟨_, hop, _⟩ := map_eq_ok.mp h
      obtain ⟨_, row, hrow, hclaimed, _⟩ := renewInboxLease_eq_ok.mp hop
      exact ⟨row, hrow, hclaimed.2.1, hclaimed.2.2.1⟩
  | enqueueOutbox | receiveInbox | activateOutbox | claimOutbox | renewOutboxLease
  | markOutboxSent | retryOutbox | failOutbox | claimInbox => cases hlease

/-! ## Older revisions -/

theorem outboxRevision_current (hrevision : call.outboxRevision = some (id, revision))
    (h : call.exec d = .ok (u, d')) :
    d'.outboxRow id = d.outboxRow id ∨
      ∃ row, d.outboxRow id = some row ∧ row.revision = revision := by
  cases call with
  | activateOutbox =>
      cases hrevision
      obtain ⟨_, hop, _⟩ := map_eq_ok.mp h
      obtain ⟨row, hrow, hguard, _⟩ := activateOutbox_eq_ok.mp hop
      exact .inr ⟨row, hrow, hguard.2.2⟩
  | claimOutbox =>
      cases hrevision
      obtain ⟨_, hop, _⟩ := map_eq_ok.mp h
      obtain ⟨_, ⟨row, hrow, hguard, _⟩ | ⟨_, _, rfl⟩⟩ := claimOutbox_eq_ok.mp hop
      · exact .inr ⟨row, hrow, hguard.1⟩
      · exact .inl rfl
  | renewOutboxLease | markOutboxSent | retryOutbox | failOutbox =>
      cases hrevision
      rcases outboxLease_fenced rfl h with ⟨row, hrow, _, _, hcurrent⟩ | ⟨_, _, _, rfl⟩
      · exact .inr ⟨row, hrow, hcurrent⟩
      · exact .inl rfl
  | enqueueOutbox | receiveInbox | completeInbox | claimInbox | renewInboxLease => cases hrevision

theorem inboxRevision_current (hrevision : call.inboxRevision = some (key, revision))
    (h : call.exec d = .ok (u, d')) :
    d'.inboxRow key = d.inboxRow key ∨
      ∃ row, d.inboxRow key = some row ∧ row.revision = revision := by
  cases call with
  | claimInbox =>
      cases hrevision
      obtain ⟨_, hop, _⟩ := map_eq_ok.mp h
      obtain ⟨_, ⟨row, hrow, hguard, _⟩ | ⟨_, _, rfl⟩⟩ := claimInbox_eq_ok.mp hop
      · exact .inr ⟨row, hrow, hguard.1⟩
      · exact .inl rfl
  | completeInbox | renewInboxLease =>
      cases hrevision
      obtain ⟨row, hrow, _, hcurrent⟩ := inboxLease_fenced rfl h
      exact .inr ⟨row, hrow, hcurrent⟩
  | enqueueOutbox | receiveInbox | activateOutbox | claimOutbox | renewOutboxLease
  | markOutboxSent | retryOutbox | failOutbox => cases hrevision

/-! ## Statuses -/

def ProtocolOutboxStatus.next : ProtocolOutboxStatus → List ProtocolOutboxStatus
  | .held => [.pending]
  | .pending => [.sent, .failed, .complete]
  | .sent => [.complete]
  | .complete | .failed => []

/-- A status stays or goes one step ahead. -/
def ProtocolOutboxStatus.Follows (status next : ProtocolOutboxStatus) : Prop :=
  next = status ∨ next ∈ status.next

def ProtocolInboxStatus.next : ProtocolInboxStatus → List ProtocolInboxStatus
  | .received => [.processing]
  | .processing => [.complete]
  | .complete => []

def ProtocolInboxStatus.Follows (status next : ProtocolInboxStatus) : Prop :=
  next = status ∨ next ∈ status.next

theorem OutboxColumns.Move.status {row : OutboxColumns} (h : row.Move columns) :
    row.status.Follows columns.status := by
  cases h with
  | activate ts hstatus => exact .inl rfl
  | claim _ _ hclaimable =>
      rcases hclaimable.2.1 with hstatus | ⟨hstatus, _⟩
      · exact .inl hstatus.symm
      · exact .inr (by simp [hstatus, next, OutboxColumns.claim])
  | renew => exact .inl rfl
  | release status nextAttemptAt hstatus hclaimed =>
      simp only [List.mem_cons, List.not_mem_nil, or_false] at hstatus
      rcases hstatus with rfl | rfl | rfl
      · exact .inl hclaimed.1.symm
      · exact .inr (by simp [hclaimed.1, next, OutboxColumns.release])
      · exact .inr (by simp [hclaimed.1, next, OutboxColumns.release])

theorem InboxMove.status {row row' : ProtocolInboxRecord}
    (h : InboxMove key call (some row) (some row')) : row.status.Follows row'.status := by
  cases h with
  | stays => exact .inl rfl
  | claimed _ _ _ _ hclaimable =>
      rcases hclaimable with hstatus | ⟨hstatus, _⟩
      · exact .inr (by simp [hstatus, ProtocolInboxStatus.next, InboxColumns.claim])
      · exact .inl hstatus.symm
  | renewed => exact .inl rfl
  | completed _ _ hclaimed =>
      exact .inr (by simp [hclaimed.1, ProtocolInboxStatus.next, InboxColumns.complete])

/-! ## Leases -/

def OutboxColumns.LeasePaired (row : OutboxColumns) : Prop :=
  row.leaseOwner.isSome = row.leaseExpiresAt.isSome

def InboxColumns.LeasePaired (row : InboxColumns) : Prop :=
  row.leaseOwner.isSome = row.leaseExpiresAt.isSome

/-- An owner is present exactly when an expiry is. -/
structure LeasesPaired (d : ProtocolDelivery) : Prop where
  outbox : ∀ id row, d.outboxRow id = some row → row.LeasePaired
  inbox : ∀ key row, d.inboxRow key = some row → row.LeasePaired

theorem OutboxColumns.Move.paired {row : OutboxColumns} (h : row.Move columns)
    (hrow : row.LeasePaired) : columns.LeasePaired := by
  cases h with
  | activate ts hstatus => exact hrow
  | claim => rfl
  | renew _ hclaimed => simp [LeasePaired, OutboxColumns.renew, hclaimed.2.1]
  | release => rfl

theorem LeasesPaired.step (h : LeasesPaired d) (call : DeliveryCall) :
    LeasesPaired (serve d call) := by
  have hmoves := Moves.serve d call
  constructor
  · intro id row hrow
    have hmove := hmoves.outbox id
    generalize hbefore : d.outboxRow id = before at hmove
    rw [hrow] at hmove
    cases hmove with
    | stays => exact h.outbox id row hbefore
    | enqueued => rfl
    | moves old hmove => exact hmove.paired (h.outbox id old hbefore)
    | settled => rfl
  · intro key row hrow
    have hmove := hmoves.inbox key
    generalize hbefore : d.inboxRow key = before at hmove
    rw [hrow] at hmove
    cases hmove with
    | stays => exact h.inbox key row hbefore
    | received => rfl
    | claimed => rfl
    | renewed old _ hclaimed =>
        simp [InboxColumns.LeasePaired, InboxColumns.renew, hclaimed.2.1]
    | completed => rfl

theorem LeasesPaired.empty : LeasesPaired .empty :=
  ⟨fun _ _ hrow => (by cases hrow), fun _ _ hrow => (by cases hrow)⟩

/-! ## The rules of a reachable state -/

theorem Succeeds.exec (h : Succeeds d call) : ∃ d', call.exec d = .ok ((), d') := by
  unfold Succeeds at h
  cases hexec : call.exec d with
  | error e => simp [hexec, Except.isOk, Except.toBool] at h
  | ok out => exact ⟨out.2, rfl⟩

theorem serve_eq_or (d : ProtocolDelivery) (call : DeliveryCall) :
    call.exec d = .ok ((), serve d call) ∨ serve d call = d := by
  unfold serve
  cases h : call.exec d with
  | error e => exact .inr rfl
  | ok out => exact .inl rfl

/-- One owner and one revision can act on a row.  A complete outbox row answers every caller
and stays as it is. -/
structure Fenced (d : ProtocolDelivery) : Prop where
  outbox : ∀ id row call call' owner owner' revision revision', d.outboxRow id = some row →
    row.status ≠ .complete → call.outboxLease = some (id, owner, revision) →
    call'.outboxLease = some (id, owner', revision') → Succeeds d call → Succeeds d call' →
    owner = owner' ∧ revision = revision'
  complete : ∀ id row call owner revision, d.outboxRow id = some row → row.status = .complete →
    call.outboxLease = some (id, owner, revision) → serve d call = d
  inbox : ∀ key call call' owner owner' revision revision',
    call.inboxLease = some (key, owner, revision) →
    call'.inboxLease = some (key, owner', revision') → Succeeds d call → Succeeds d call' →
    owner = owner' ∧ revision = revision'

/-- A call with an older revision than the row's leaves the row alone. -/
structure StaleIgnored (d : ProtocolDelivery) : Prop where
  outbox : ∀ id row call revision, d.outboxRow id = some row →
    call.outboxRevision = some (id, revision) → revision < row.revision →
    (serve d call).outboxRow id = some row
  inbox : ∀ key row call revision, d.inboxRow key = some row →
    call.inboxRevision = some (key, revision) → revision < row.revision →
    (serve d call).inboxRow key = some row

/-- A row stays in its table and its status goes at most one step ahead, or a receipt of the
exchange completes a held outbox row. -/
structure StatusesAdvance (d : ProtocolDelivery) : Prop where
  outbox : ∀ id row call, d.outboxRow id = some row →
    ∃ row', (serve d call).outboxRow id = some row' ∧ (row.status.Follows row'.status ∨
      (row.status = .held ∧ row'.status = .complete ∧
        ∃ receipt, call.frame = some receipt ∧ Settles receipt row))
  inbox : ∀ key row call, d.inboxRow key = some row →
    ∃ row', (serve d call).inboxRow key = some row' ∧ row.status.Follows row'.status

theorem fenced (d : ProtocolDelivery) : Fenced d := by
  constructor
  · intro id row call call' owner owner' revision revision' hrow hopen hlease hlease' hok hok'
    have hown : ∀ {call owner revision}, call.outboxLease = some (id, owner, revision) →
        Succeeds d call → row.leaseOwner = some owner ∧ row.revision = revision := by
      intro call owner revision hlease hok
      obtain ⟨d', hexec⟩ := hok.exec
      rcases outboxLease_fenced hlease hexec with ⟨row', hrow', _, howner⟩ | ⟨row', hrow', hdone, _⟩
      · cases hrow.symm.trans hrow'
        exact howner
      · cases hrow.symm.trans hrow'
        exact absurd hdone hopen
    obtain ⟨howner, hrevision⟩ := hown hlease hok
    obtain ⟨howner', hrevision'⟩ := hown hlease' hok'
    exact ⟨Option.some.inj (howner.symm.trans howner'), hrevision.symm.trans hrevision'⟩
  · intro id row call owner revision hrow hcomplete hlease
    rcases serve_eq_or d call with hexec | hsame
    · rcases outboxLease_fenced hlease hexec with ⟨row', hrow', hpending, _⟩ | ⟨_, _, _, hsame⟩
      · cases hrow.symm.trans hrow'
        cases hcomplete.symm.trans hpending
      · exact hsame
    · exact hsame
  · intro key call call' owner owner' revision revision' hlease hlease' hok hok'
    obtain ⟨_, hexec⟩ := hok.exec
    obtain ⟨_, hexec'⟩ := hok'.exec
    obtain ⟨row, hrow, howner, hrevision⟩ := inboxLease_fenced hlease hexec
    obtain ⟨row', hrow', howner', hrevision'⟩ := inboxLease_fenced hlease' hexec'
    cases hrow.symm.trans hrow'
    exact ⟨Option.some.inj (howner.symm.trans howner'), hrevision.symm.trans hrevision'⟩

theorem staleIgnored (d : ProtocolDelivery) : StaleIgnored d := by
  constructor
  · intro id row call revision hrow hrevision hstale
    rcases serve_eq_or d call with hexec | hsame
    · rcases outboxRevision_current hrevision hexec with hkept | ⟨row', hrow', hcurrent⟩
      · exact hkept.trans hrow
      · cases hrow.symm.trans hrow'
        omega
    · rw [hsame, hrow]
  · intro key row call revision hrow hrevision hstale
    rcases serve_eq_or d call with hexec | hsame
    · rcases inboxRevision_current hrevision hexec with hkept | ⟨row', hrow', hcurrent⟩
      · exact hkept.trans hrow
      · cases hrow.symm.trans hrow'
        omega
    · rw [hsame, hrow]

theorem statusesAdvance (d : ProtocolDelivery) : StatusesAdvance d := by
  constructor
  · intro id row call hrow
    have hmove := (Moves.serve d call).outbox id
    generalize (serve d call).outboxRow id = after at hmove
    rw [hrow] at hmove
    cases hmove with
    | stays => exact ⟨row, rfl, .inl (.inl rfl)⟩
    | moves _ hmove => exact ⟨_, rfl, .inl hmove.status⟩
    | settled _ ts hframe hsettles hstatus =>
        refine ⟨_, rfl, ?_⟩
        simp only [List.mem_cons, List.not_mem_nil, or_false] at hstatus
        rcases hstatus with hheld | hpending | hsent
        · exact .inr ⟨hheld, rfl, _, hframe, hsettles⟩
        · exact .inl (.inr (by simp [hpending, next, OutboxColumns.complete]))
        · exact .inl (.inr (by simp [hsent, next, OutboxColumns.complete]))
  · intro key row call hrow
    have hmove := (Moves.serve d call).inbox key
    rw [hrow] at hmove
    cases hafter : (serve d call).inboxRow key with
    | none =>
        rw [hafter] at hmove
        cases hmove
    | some row' =>
        rw [hafter] at hmove
        exact ⟨row', rfl, hmove.status⟩

/-- After every run of calls: leases fence, older revisions are ignored, statuses only advance,
and an owner is present exactly when an expiry is.  The instants of the calls may be any. -/
theorem leases_fence (calls : List DeliveryCall) :
    Fenced (serveAll calls .empty) ∧ StaleIgnored (serveAll calls .empty) ∧
      StatusesAdvance (serveAll calls .empty) ∧ LeasesPaired (serveAll calls .empty) :=
  ⟨fenced _, staleIgnored _, statusesAdvance _,
    serveAll_invariant LeasesPaired.empty (fun _ call h => h.step call) calls⟩

/-! ## The two ways past a lease -/

/-- A held row goes to `complete` at once when the receipt of its exchange arrives, and from
then on two workers with different owners and revisions both get a send confirmed. -/
theorem receipt_completes_held_row :
    let held := serve .empty (.enqueueOutbox
      { id := "outbox_x", destination := "coder", frame := sampleExecute.toFrame, held := true })
    let done := serve held (.receiveInbox "system" sampleResult.toFrame sampleResult.createdAt)
    (held.outboxRow "outbox_x").map (·.status) = some .held ∧
      (done.outboxRow "outbox_x").map (·.status) = some .complete ∧
      Succeeds done (.markOutboxSent "outbox_x" "worker_1" 1 "2026-01-01T00:11:00.000Z") ∧
      Succeeds done (.markOutboxSent "outbox_x" "worker_2" 7 "2026-01-01T00:11:00.000Z") := by
  decide

end Newide
