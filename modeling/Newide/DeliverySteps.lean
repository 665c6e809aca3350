import Newide.ProtocolDelivery

/-!
# What the delivery operations do

When each statement and each operation succeeds, what it returns and
what it leaves in the tables.
-/

namespace Newide

open Fallible Transaction

variable {current : ProtocolInboxRecord} {frame : ProtocolFrame} {key : ProtocolInboxKey}
  {receivedAt ts : Timestamp} {reply : Option EnqueueProtocolOutbox} {u : PUnit}

namespace Delivery

variable {d d' : ProtocolDelivery}

/-! ## Statements -/

@[simp] theorem getOutbox_eq_ok {id : String} {out : Option ProtocolOutboxRecord} :
    getOutbox id d = .ok (out, d') ↔ (d.outboxRow id).map ProtocolOutboxRecord.read = out ∧ d = d' :=
  query_eq_ok

@[simp] theorem getInbox_eq_ok {key : ProtocolInboxKey} {out : Option ProtocolInboxRecord} :
    getInbox key d = .ok (out, d') ↔ d.inboxRow key = out ∧ d = d' :=
  query_eq_ok

@[simp] theorem requireOutbox_eq_ok {id : String} {record : ProtocolOutboxRecord} :
    requireOutbox id d = .ok (record, d') ↔
      (∃ row, d.outboxRow id = some row ∧ row.read = record) ∧ d = d' := by
  simp [requireOutbox]

@[simp] theorem requireInbox_eq_ok {key : ProtocolInboxKey} {record : ProtocolInboxRecord} :
    requireInbox key d = .ok (record, d') ↔ d.inboxRow key = some record ∧ d = d' := by
  simp [requireInbox]

@[simp] theorem append_eq_ok {entry : ProtocolJournalRecord} {u : PUnit} :
    append entry d = .ok (u, d') ↔ d.log entry = d' :=
  write_eq_ok

@[simp] theorem appendFrame_eq_ok {frame : ProtocolFrame} {event status summary : String}
    {ts : Timestamp} {u : PUnit} :
    appendFrame frame event status summary ts d = .ok (u, d') ↔
      d.log { ts, event, status, summary, frame } = d' :=
  append_eq_ok

@[simp] theorem insertOutbox_eq_ok {row : ProtocolOutboxRecord} {u : PUnit} :
    insertOutbox row d = .ok (u, d') ↔ ∃ hid hexchange, d.addOutbox row hid hexchange = d' := by
  unfold insertOutbox
  by_cases hid : d.outboxRow row.id = none
  · by_cases hexchange : d.exchangeRow row.exchange = none
    · simp [hid, hexchange]
    · simp [hid, hexchange]
  · simp [hid]

@[simp] theorem insertInbox_eq_ok {row : ProtocolInboxRecord} {inserted : Bool} :
    insertInbox row d = .ok (inserted, d') ↔
      (inserted = true ∧ ∃ hkey, d.addInbox row hkey = d') ∨
        (inserted = false ∧ d.inboxRow row.key ≠ none ∧ d = d') := by
  unfold insertInbox
  by_cases hkey : d.inboxRow row.key = none
  · simp [hkey, eq_comm]
  · simp [hkey, eq_comm]

@[simp] theorem updateOutbox_eq_ok {id : String} {guard : OutboxColumns → Prop}
    [DecidablePred guard] {set : OutboxColumns → OutboxColumns}
    {out : Option ProtocolOutboxRecord} :
    updateOutbox id guard set d = .ok (out, d') ↔
      (∃ row, d.outboxRow id = some row ∧ guard row.toOutboxColumns ∧
        some (row.withColumns (set row.toOutboxColumns)).read = out ∧
        d.setOutbox id (set row.toOutboxColumns) = d') ∨
      ((∀ row, d.outboxRow id = some row → ¬ guard row.toOutboxColumns) ∧ none = out ∧ d = d') := by
  unfold updateOutbox
  cases hrow : d.outboxRow id with
  | none => simp
  | some row =>
      by_cases hguard : guard row.toOutboxColumns
      · simp [hguard]
      · simp [hguard]

@[simp] theorem updateInbox_eq_ok {key : ProtocolInboxKey} {guard : InboxColumns → Prop}
    [DecidablePred guard] {set : InboxColumns → InboxColumns}
    {out : Option ProtocolInboxRecord} :
    updateInbox key guard set d = .ok (out, d') ↔
      (∃ row, d.inboxRow key = some row ∧ guard row.toInboxColumns ∧
        some (row.withColumns (set row.toInboxColumns)) = out ∧
        d.setInbox key (set row.toInboxColumns) = d') ∨
      ((∀ row, d.inboxRow key = some row → ¬ guard row.toInboxColumns) ∧ none = out ∧ d = d') := by
  unfold updateInbox
  cases hrow : d.inboxRow key with
  | none => simp
  | some row =>
      by_cases hguard : guard row.toInboxColumns
      · simp [hguard]
      · simp [hguard]

@[simp] theorem required_eq_ok {value name : String} {u : Unit} :
    required value name = .ok u ↔ value ≠ "" :=
  ensure_eq_ok

@[simp] theorem assertLease_eq_ok {owner : String} {now expiresAt : Timestamp} {u : Unit} :
    assertLease owner now expiresAt = .ok u ↔ owner ≠ "" ∧ now < expiresAt := by
  simp [assertLease, Fallible.bind_eq_ok]

/-! ## Operations on the outbox -/

@[simp] theorem changedOutbox_eq_ok {id conflict event summary : String} {ts : Timestamp}
    {updated : Option ProtocolOutboxRecord} {record : ProtocolOutboxRecord} :
    changedOutbox id conflict event summary ts updated d = .ok (record, d') ↔
      updated = some record ∧ d.log (record.entry event summary ts) = d' := by
  simp [changedOutbox]

variable {record : ProtocolOutboxRecord}

theorem enqueueOutbox_eq_ok {input : EnqueueProtocolOutbox} :
    enqueueOutbox input d = .ok (record, d') ↔
      (input.frame.Valid ∧ input.id ≠ "" ∧ input.destination ≠ "" ∧ input.frame.attempt = 1) ∧
        input.row = record ∧
        ∃ hid hexchange, (d.addOutbox input.row hid hexchange).log
          (input.row.entry "outbox.enqueued" input.destination input.frame.createdAt) = d' := by
  have hread : input.row.read = input.row := rfl
  have hid : input.row.id = input.id := rfl
  simp only [enqueueOutbox, chain_eq_ok, lift_eq_ok, parseProtocolFrame_eq_ok, required_eq_ok,
    ensure_eq_ok, insertOutbox_eq_ok, append_eq_ok, requireOutbox_eq_ok]
  constructor
  · rintro ⟨_, _, ⟨⟨hvalid, rfl⟩, rfl⟩, _, _, ⟨hne, rfl⟩, _, _, ⟨hdest, rfl⟩, _, _, ⟨hone, rfl⟩,
      _, _, ⟨hfree, hexchange, rfl⟩, _, _, rfl, ⟨row, hrow, rfl⟩, rfl⟩
    have hrow' : some input.row = some row := by simpa [hid] using hrow
    cases hrow'
    exact ⟨⟨hvalid, hne, hdest, hone⟩, hread.symm, hfree, hexchange, rfl⟩
  · rintro ⟨⟨hvalid, hne, hdest, hone⟩, rfl, hfree, hexchange, rfl⟩
    exact ⟨_, d, ⟨⟨hvalid, rfl⟩, rfl⟩, ⟨⟩, d, ⟨hne, rfl⟩, ⟨⟩, d, ⟨hdest, rfl⟩, ⟨⟩, d, ⟨hone, rfl⟩,
      ⟨⟩, _, ⟨hfree, hexchange, rfl⟩, ⟨⟩, _, rfl, ⟨input.row, by simp [hid], hread⟩, rfl⟩

variable {revision : Nat}

theorem activateOutbox_eq_ok {id : String} :
    activateOutbox id revision ts d = .ok (record, d') ↔
      ∃ row, d.outboxRow id = some row ∧
        (row.status = .held ∧ row.activatedAt = none ∧ row.revision = revision) ∧
        (row.withColumns (row.activate ts)).read = record ∧
        (d.setOutbox id (row.activate ts)).log (record.entry "outbox.activated" id ts) = d' := by
  simp [activateOutbox, and_assoc]

variable {now expiry : Timestamp} {id owner : String}

theorem renewOutboxLease_eq_ok :
    renewOutboxLease id owner revision now expiry d = .ok (record, d') ↔
      (owner ≠ "" ∧ now < expiry) ∧ ∃ row, d.outboxRow id = some row ∧
        row.ClaimedBy owner revision now ∧ (row.withColumns (row.renew expiry)).read = record ∧
        (d.setOutbox id (row.renew expiry)).log (record.entry "outbox.lease_renewed" owner now) =
          d' := by
  simp [renewOutboxLease, and_assoc]

theorem updateClaimedOutbox_eq_ok {event : String} {status : ProtocolOutboxStatus}
    {nextAttemptAt : Option Timestamp} :
    updateClaimedOutbox id owner revision ts status event nextAttemptAt d = .ok (record, d') ↔
      ∃ row, d.outboxRow id = some row ∧ row.ClaimedBy owner revision ts ∧
        (row.withColumns (row.release status ts nextAttemptAt)).read = record ∧
        (d.setOutbox id (row.release status ts nextAttemptAt)).log (record.entry event id ts) =
          d' := by
  simp [updateClaimedOutbox, and_assoc]

/-- A claim changes the row of this revision when it is free, and is refused in silence otherwise. -/
theorem claimOutbox_eq_ok {out : Option ProtocolOutboxRecord} :
    claimOutbox id owner now expiry revision d = .ok (out, d') ↔
      (owner ≠ "" ∧ now < expiry) ∧
        ((∃ row, d.outboxRow id = some row ∧ (row.revision = revision ∧ row.Claimable now) ∧
          ∃ record, (row.withColumns (row.claim owner expiry)).read = record ∧ some record = out ∧
          (d.setOutbox id (row.claim owner expiry)).log (record.entry "outbox.claimed" owner now) =
            d') ∨
        ((∀ row, d.outboxRow id = some row → ¬ (row.revision = revision ∧ row.Claimable now)) ∧
          none = out ∧ d = d')) := by
  simp only [claimOutbox, chain_eq_ok, lift_eq_ok, assertLease_eq_ok, updateOutbox_eq_ok]
  constructor
  · rintro ⟨_, _, ⟨hlease, rfl⟩, _, _, ⟨row, hrow, hguard, rfl, rfl⟩ | ⟨hnone, rfl, rfl⟩, hrest⟩
    · exact ⟨hlease, .inl ⟨row, hrow, hguard, _, rfl, by simpa [and_comm] using hrest⟩⟩
    · exact ⟨hlease, .inr ⟨hnone, by simpa using hrest⟩⟩
  · rintro ⟨hlease, ⟨row, hrow, hguard, _, rfl, rfl, rfl⟩ | ⟨hnone, rfl, rfl⟩⟩
    · exact ⟨⟨⟩, d, ⟨hlease, rfl⟩, _, _, .inl ⟨row, hrow, hguard, rfl, rfl⟩, by simp⟩
    · exact ⟨⟨⟩, d, ⟨hlease, rfl⟩, _, _, .inr ⟨hnone, rfl, rfl⟩, by simp⟩

theorem markOutboxSent_eq_ok :
    markOutboxSent id owner revision ts d = .ok (record, d') ↔
      ∃ row, d.outboxRow id = some row ∧
        ((row.status = .complete ∧ row.read = record ∧ d = d') ∨
          (row.status ≠ .complete ∧
            updateClaimedOutbox id owner revision ts .sent "outbox.sent" none d =
              .ok (record, d'))) := by
  simp [markOutboxSent]

theorem retryOutbox_eq_ok {nextAttemptAt : Timestamp} :
    retryOutbox id owner revision now nextAttemptAt d = .ok (record, d') ↔
      now ≤ nextAttemptAt ∧ updateClaimedOutbox id owner revision now .pending
        "outbox.retry_scheduled" (some nextAttemptAt) d = .ok (record, d') := by
  simp [retryOutbox]

/-! ## Operations on the inbox -/

theorem claimInbox_eq_ok {out : Option ProtocolInboxRecord} :
    claimInbox key owner now expiry revision d = .ok (out, d') ↔
      (owner ≠ "" ∧ now < expiry) ∧
        ((∃ row, d.inboxRow key = some row ∧ (row.revision = revision ∧ row.Claimable now) ∧
          ∃ record, row.withColumns (row.claim owner expiry) = record ∧ some record = out ∧
          (d.setInbox key (row.claim owner expiry)).log (record.entry "inbox.claimed" owner now) =
            d') ∨
        ((∀ row, d.inboxRow key = some row → ¬ (row.revision = revision ∧ row.Claimable now)) ∧
          none = out ∧ d = d')) := by
  simp only [claimInbox, chain_eq_ok, lift_eq_ok, assertLease_eq_ok, updateInbox_eq_ok]
  constructor
  · rintro ⟨_, _, ⟨hlease, rfl⟩, _, _, ⟨row, hrow, hguard, rfl, rfl⟩ | ⟨hnone, rfl, rfl⟩, hrest⟩
    · exact ⟨hlease, .inl ⟨row, hrow, hguard, _, rfl, by simpa [and_comm] using hrest⟩⟩
    · exact ⟨hlease, .inr ⟨hnone, by simpa using hrest⟩⟩
  · rintro ⟨hlease, ⟨row, hrow, hguard, _, rfl, rfl, rfl⟩ | ⟨hnone, rfl, rfl⟩⟩
    · exact ⟨⟨⟩, d, ⟨hlease, rfl⟩, _, _, .inl ⟨row, hrow, hguard, rfl, rfl⟩, by simp⟩
    · exact ⟨⟨⟩, d, ⟨hlease, rfl⟩, _, _, .inr ⟨hnone, rfl, rfl⟩, by simp⟩

theorem renewInboxLease_eq_ok {record : ProtocolInboxRecord} :
    renewInboxLease key owner revision now expiry d = .ok (record, d') ↔
      (owner ≠ "" ∧ now < expiry) ∧ ∃ row, d.inboxRow key = some row ∧
        row.ClaimedBy owner revision now ∧ row.withColumns (row.renew expiry) = record ∧
        (d.setInbox key (row.renew expiry)).log (record.entry "inbox.lease_renewed" owner now) =
          d' := by
  simp [renewInboxLease, and_assoc]

/-- The receipt of an exchange, if it is one, completes the outbox row of the exchange. -/
def Settles (frame : ProtocolFrame) (row : ProtocolOutboxRecord) : Prop :=
  frame.isReceipt = true ∧ frame.causationId = some row.exchangeId ∧
    frame.protocol = row.frame.protocol ∧ frame.taskId = row.frame.taskId

theorem originalOf_eq_some {row : ProtocolOutboxRecord} (h : originalOf frame d = some row) :
    d.outboxRow row.id = some row ∧ Settles frame row := by
  unfold originalOf at h
  split at h
  next hreceipt =>
    obtain ⟨causationId, hcausation, hfound⟩ := Option.bind_eq_some_iff.mp h
    obtain ⟨hexchange, htask⟩ := Option.filter_eq_some_iff.mp hfound
    have hsame := Prod.mk.inj (ProtocolDelivery.exchangeRow_exchange hexchange)
    refine ⟨ProtocolDelivery.outboxRow_of_exchange hexchange, hreceipt, ?_, hsame.1.symm, ?_⟩
    · rw [hcausation, ← hsame.2]
      rfl
    · exact (of_decide_eq_true htask).symm
  next => cases h

theorem completeOriginal_cases (h : completeOriginal frame receivedAt d = .ok (u, d')) :
    d = d' ∨ ∃ row, d.outboxRow row.id = some row ∧ row.status ∈ [.held, .pending, .sent] ∧
      Settles frame row ∧ (d.setOutbox row.id (row.complete receivedAt)).log
        { ts := receivedAt, event := "outbox.completed", status := "complete", summary := row.id,
          frame } = d' := by
  obtain ⟨found, _, hquery, h⟩ := chain_eq_ok.mp h
  obtain ⟨hfound, rfl⟩ := query_eq_ok.mp hquery
  cases found with
  | none => exact .inl (done_eq_ok.mp h).2
  | some original =>
      obtain ⟨hrow, hsettles⟩ := originalOf_eq_some hfound
      obtain ⟨_, _, hupdate, h⟩ := chain_eq_ok.mp h
      rcases updateOutbox_eq_ok.mp hupdate with ⟨row, hrow', hstatus, rfl, rfl⟩ | ⟨_, rfl, rfl⟩
      · cases hrow.symm.trans hrow'
        exact .inr ⟨original, hrow, hstatus, hsettles, by simpa using h⟩
      · exact .inl (by simpa using h)

theorem completeOriginal_total (frame : ProtocolFrame) (receivedAt : Timestamp)
    (d : ProtocolDelivery) : ∃ d', completeOriginal frame receivedAt d = .ok (⟨⟩, d') := by
  unfold completeOriginal
  simp only [chain_eq_ok, query_eq_ok]
  cases hfound : originalOf frame d with
  | none => exact ⟨d, none, d, ⟨rfl, rfl⟩, done_eq_ok.mpr ⟨rfl, rfl⟩⟩
  | some original =>
      have hrow := (originalOf_eq_some hfound).1
      by_cases hstatus : original.status ∈ [.held, .pending, .sent]
      · exact ⟨_, some original, d, ⟨rfl, rfl⟩, chain_eq_ok.mpr ⟨_, _, updateOutbox_eq_ok.mpr
          (.inl ⟨original, hrow, hstatus, rfl, rfl⟩), branch_eq_ok.mpr
            (.inl ⟨rfl, append_eq_ok.mpr rfl⟩)⟩⟩
      · have hnone : ∀ row, d.outboxRow original.id = some row →
            ¬ row.status ∈ [.held, .pending, .sent] := by
          intro row hrow'
          cases hrow.symm.trans hrow'
          exact hstatus
        exact ⟨d, some original, d, ⟨rfl, rfl⟩, chain_eq_ok.mpr ⟨none, d, updateOutbox_eq_ok.mpr
          (.inr ⟨hnone, rfl, rfl⟩), branch_eq_ok.mpr (.inr ⟨by simp, done_eq_ok.mpr ⟨rfl, rfl⟩⟩)⟩⟩

theorem receiveInbox_eq_ok {consumerId : String} {out : ProtocolInboxRecord × Bool} :
    receiveInbox consumerId frame receivedAt d = .ok (out, d') ↔
      (frame.Valid ∧ consumerId ≠ "") ∧
        ((∃ hkey, (receivedRow consumerId frame receivedAt, true) = out ∧
          completeOriginal frame receivedAt
            ((d.addInbox (receivedRow consumerId frame receivedAt) hkey).log
              ((receivedRow consumerId frame receivedAt).entry "inbox.received" consumerId
                receivedAt)) = .ok (⟨⟩, d')) ∨
        (∃ inbox, d.inboxRow ⟨consumerId, frame.protocol, frame.exchangeId⟩ = some inbox ∧
          SameFrame inbox.frame frame ∧ (inbox, false) = out ∧ d = d')) := by
  simp only [receiveInbox, chain_eq_ok, lift_eq_ok, parseProtocolFrame_eq_ok, required_eq_ok,
    insertInbox_eq_ok, requireInbox_eq_ok, ensure_eq_ok, branch_eq_ok, append_eq_ok]
  constructor
  · rintro ⟨_, _, ⟨⟨hvalid, rfl⟩, rfl⟩, _, _, ⟨hne, rfl⟩, _, _, hinsert, inbox, _, ⟨hinbox, rfl⟩,
      _, _, ⟨hsame, rfl⟩, hrest⟩
    refine ⟨⟨hvalid, hne⟩, ?_⟩
    rcases hinsert with ⟨rfl, hkey, rfl⟩ | ⟨rfl, _, rfl⟩
    · rcases hrest with ⟨_, _, _, rfl, _, _, hcomplete, hdone⟩ | ⟨hfalse, _⟩
      · obtain rfl : receivedRow consumerId frame receivedAt = inbox := by simpa using hinbox
        obtain ⟨rfl, rfl⟩ := done_eq_ok.mp hdone
        exact .inl ⟨hkey, rfl, hcomplete⟩
      · exact absurd rfl hfalse
    · rcases hrest with ⟨htrue, _⟩ | ⟨_, hdone⟩
      · cases htrue
      · obtain ⟨rfl, rfl⟩ := done_eq_ok.mp hdone
        exact .inr ⟨inbox, hinbox, hsame, rfl, rfl⟩
  · rintro ⟨⟨hvalid, hne⟩, ⟨hkey, rfl, hcomplete⟩ | ⟨inbox, hinbox, hsame, rfl, rfl⟩⟩
    · exact ⟨_, d, ⟨⟨hvalid, rfl⟩, rfl⟩, ⟨⟩, d, ⟨hne, rfl⟩, _, _, .inl ⟨rfl, hkey, rfl⟩,
        receivedRow consumerId frame receivedAt, _, ⟨by simp, rfl⟩, ⟨⟩, _, ⟨(rfl : SameFrame _ _), rfl⟩,
        .inl ⟨rfl, ⟨⟩, _, rfl, ⟨⟩, _, hcomplete, done_eq_ok.mpr ⟨rfl, rfl⟩⟩⟩
    · have hnew : d.inboxRow (receivedRow consumerId frame receivedAt).key ≠ none := by
        intro hnone
        cases hinbox.symm.trans hnone
      exact ⟨_, d, ⟨⟨hvalid, rfl⟩, rfl⟩, ⟨⟩, d, ⟨hne, rfl⟩, _, _, .inr ⟨rfl, hnew, rfl⟩, _, _,
        ⟨hinbox, rfl⟩, ⟨⟩, _, ⟨hsame, rfl⟩, .inr ⟨by simp, done_eq_ok.mpr ⟨rfl, rfl⟩⟩⟩

theorem enqueueReply_eq_ok :
    enqueueReply current reply d = .ok (u, d') ↔
      (reply = none ∧ d = d') ∨ ∃ input, reply = some input ∧ ReplyFits current input.frame ∧
        enqueueOutbox input d = .ok (input.row, d') := by
  cases reply with
  | none => simp [enqueueReply]
  | some input =>
      simp only [enqueueReply, chain_eq_ok, lift_eq_ok, parseProtocolFrame_eq_ok, ensure_eq_ok]
      constructor
      · rintro ⟨_, _, ⟨⟨_, rfl⟩, rfl⟩, _, _, ⟨hfits, rfl⟩, _, _, henqueue, hdone⟩
        obtain ⟨_, rfl⟩ := done_eq_ok.mp hdone
        obtain rfl := (enqueueOutbox_eq_ok.mp henqueue).2.1
        exact .inr ⟨input, rfl, hfits, henqueue⟩
      · rintro (⟨hnone, _⟩ | ⟨_, hinput, hfits, henqueue⟩)
        · cases hnone
        · cases hinput
          have hvalid := (enqueueOutbox_eq_ok.mp henqueue).1.1
          exact ⟨_, d, ⟨⟨hvalid, rfl⟩, rfl⟩, ⟨⟩, d, ⟨hfits, rfl⟩, _, d', henqueue,
            done_eq_ok.mpr ⟨rfl, rfl⟩⟩

theorem enqueueReply_inboxRow (h : enqueueReply current reply d = .ok (u, d'))
    (key : ProtocolInboxKey) :
    d'.inboxRow key = d.inboxRow key := by
  rcases enqueueReply_eq_ok.mp h with ⟨_, rfl⟩ | ⟨_, _, _, henqueue⟩
  · rfl
  · obtain ⟨_, _, _, _, rfl⟩ := enqueueOutbox_eq_ok.mp henqueue
    simp

theorem completeInbox_eq_ok {input : CompleteProtocolInbox} {record : ProtocolInboxRecord} :
    completeInbox input d = .ok (record, d') ↔
      ∃ row, d.inboxRow input.key = some row ∧
        row.ClaimedBy input.leaseOwner input.expectedRevision input.completedAt ∧
        ∃ d₁, enqueueReply row input.reply d = .ok (⟨⟩, d₁) ∧
          row.withColumns (row.complete input.completedAt (input.reply.map (·.frame.exchangeId))) =
            record ∧
          (d₁.setInbox input.key record.toInboxColumns).log
            (record.entry "inbox.completed" input.key.consumerId input.completedAt) = d' := by
  simp only [completeInbox, chain_eq_ok, requireInbox_eq_ok, lift_eq_ok, ensure_eq_ok,
    updateInbox_eq_ok, appendFrame_eq_ok]
  constructor
  · rintro ⟨row, _, ⟨hrow, rfl⟩, _, _, ⟨hclaimed, rfl⟩, _, d₁, hreply, _, _, hupdate, _, _, rfl,
      hrecord, rfl⟩
    have hrow₁ := (enqueueReply_inboxRow hreply input.key).trans hrow
    refine ⟨row, hrow, hclaimed, d₁, hreply, ?_⟩
    rcases hupdate with ⟨row', hrow', _, _, rfl⟩ | ⟨hnone, _, _⟩
    · cases hrow₁.symm.trans hrow'
      obtain rfl : row.withColumns (row.complete input.completedAt
          (input.reply.map (·.frame.exchangeId))) = record := by
        simpa [hrow₁] using hrecord
      exact ⟨rfl, rfl⟩
    · exact absurd hclaimed.2.2.1 (hnone row hrow₁)
  · rintro ⟨row, hrow, hclaimed, d₁, hreply, rfl, rfl⟩
    have hrow₁ := (enqueueReply_inboxRow hreply input.key).trans hrow
    exact ⟨row, d, ⟨hrow, rfl⟩, ⟨⟩, d, ⟨hclaimed, rfl⟩, ⟨⟩, d₁, hreply, _, _,
      .inl ⟨row, hrow₁, hclaimed.2.2.1, rfl, rfl⟩, ⟨⟩, _, rfl, by simp [hrow₁], rfl⟩

end Delivery

end Newide
