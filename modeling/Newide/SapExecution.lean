import Newide.BridgeRuns

/-!
# Executes and their inbox rows

What `beginExecute` and the acceptance of a result do to the agent inbox
row of an exchange: which admissions it grants, the lease that comes
with one, and the completed row an accepted result leaves for good.
-/

namespace Newide

open Fallible Transaction Delivery ProtocolDelivery Sap

variable {d d' : ProtocolDelivery} {options : BridgeOptions} {dispatch : SapExecuteDispatch}

/-! ## What a run of bridge calls keeps -/

theorem serve_complete {key : ProtocolInboxKey} {row : ProtocolInboxRecord}
    (hrow : d.inboxRow key = some row) (hcomplete : row.status = .complete) (call : DeliveryCall) :
    (serve d call).inboxRow key = some row := by
  have hmove := (Moves.serve d call).inbox key
  rw [hrow] at hmove
  generalize (serve d call).inboxRow key = after at hmove
  cases hmove with
  | stays => rfl
  | claimed _ _ _ _ hclaimable => rcases hclaimable with h | ⟨h, _⟩ <;> cases hcomplete.symm.trans h
  | renewed _ _ hclaimed => cases hcomplete.symm.trans hclaimed.1
  | completed _ _ hclaimed => cases hcomplete.symm.trans hclaimed.1

theorem Reaches.complete {key : ProtocolInboxKey} {row : ProtocolInboxRecord}
    (h : Reaches d d') (hrow : d.inboxRow key = some row) (hcomplete : row.status = .complete) :
    d'.inboxRow key = some row :=
  h.invariant (I := fun d => d.inboxRow key = some row) hrow fun _ call _ hrow =>
    serve_complete hrow hcomplete call

variable {id owner consumerId replyId : String} {row record : ProtocolOutboxRecord}
  {call : DeliveryCall} {expiry now receivedAt ts : Timestamp} {admission : SapExecutionAdmission}
  {frame : ProtocolFrame} {revision : Nat} {result : SapResultFrame} {u : PUnit} {cancelled : Bool}
  {disposition : SapResultDisposition}

theorem Reaches.outboxRow (h : Reaches d d') (hrow : d.outboxRow id = some row) :
    ∃ row', d'.outboxRow id = some row' ∧ row'.frame = row.frame := by
  refine h.invariant (I := fun d => ∃ row', d.outboxRow id = some row' ∧ row'.frame = row.frame)
    ⟨row, hrow, rfl⟩ fun d call _ hbefore => ?_
  obtain ⟨before, hrow, hframe⟩ := hbefore
  have hmove := (Moves.serve d call).outbox id
  rw [hrow] at hmove
  generalize (serve d call).outboxRow id = after at hmove
  cases hmove with
  | stays => exact ⟨before, rfl, hframe⟩
  | moves => exact ⟨_, rfl, hframe⟩
  | settled => exact ⟨_, rfl, hframe⟩

/-- The row of `key` is complete, or leased until `expiry` at least. -/
def LeasedUntil (key : ProtocolInboxKey) (expiry : Timestamp) (d : ProtocolDelivery) : Prop :=
  ∃ row, d.inboxRow key = some row ∧ (row.status = .complete ∨
    (row.status = .processing ∧ ∃ lease ∈ row.leaseExpiresAt, expiry ≤ lease))

theorem LeasedUntil.serve {key : ProtocolInboxKey} (h : LeasedUntil key expiry d)
    (hcall : call.OfBridge) :
    LeasedUntil key expiry (serve d call) := by
  obtain ⟨row, hrow, hleased⟩ := h
  have hmove := (Moves.serve d call).inbox key
  rw [hrow] at hmove
  generalize hafter : (Newide.serve d call).inboxRow key = after at hmove
  cases hmove with
  | stays => exact ⟨row, hafter, hleased⟩
  | claimed _ _ hlater _ hclaimable =>
      refine ⟨_, hafter, .inr ⟨rfl, _, rfl, ?_⟩⟩
      rcases hleased with hcomplete | ⟨hprocessing, lease, hlease, hle⟩
      · rcases hclaimable with h | ⟨h, _⟩ <;> cases hcomplete.symm.trans h
      · rcases hclaimable with h | ⟨_, hexpired⟩
        · cases hprocessing.symm.trans h
        · rw [Option.mem_def.mp hlease] at hexpired
          have hover : lease ≤ _ := of_decide_eq_true hexpired
          exact le_of_lt (lt_of_le_of_lt (hle.trans hover) hlater)
  | renewed => exact absurd hcall id
  | completed => exact ⟨_, hafter, .inl rfl⟩

theorem Reaches.leasedUntil {key : ProtocolInboxKey} (h : Reaches d d')
    (hleased : LeasedUntil key expiry d) : LeasedUntil key expiry d' :=
  h.invariant hleased fun _ _ hcall h => h.serve hcall

/-! ## Admissions -/

/-- The admission an agent inbox row becomes when it is claimed for `dispatch` at `now`. -/
structure Granted (options : BridgeOptions) (now : Timestamp) (dispatch : SapExecuteDispatch)
    (admission : SapExecutionAdmission) (d' : ProtocolDelivery) : Prop where
  owner : admission.leaseOwner = leaseOwner dispatch
  row : d'.inboxRow dispatch.inboxKey = some admission.executeInbox
  claimed : admission.executeInbox.ClaimedBy (leaseOwner dispatch)
    admission.executeInbox.revision now
  lease : admission.executeInbox.leaseExpiresAt = some (leaseExpiresAt options now dispatch)

theorem Granted.key (h : Granted options now dispatch admission d') :
    admission.executeInbox.key = dispatch.inboxKey :=
  inboxRow_key h.row

/-- The conditions under which the first delivery of `dispatch` at `now` is admitted. -/
structure Deliverable (options : BridgeOptions) (now : Timestamp) (dispatch : SapExecuteDispatch)
    (d : ProtocolDelivery) : Prop where
  frame : dispatch.frame.toFrame.Valid
  destination : dispatch.destination ≠ ""
  lease : now < leaseExpiresAt options now dispatch
  claimable : ∃ row, d.outboxRow dispatch.outboxId = some row ∧ row.Claimable now

theorem completeOriginal_of_command (h : frame.isReceipt = false) :
    completeOriginal frame receivedAt d = .ok (⟨⟩, d) := by
  refine chain_eq_ok.mpr ⟨none, d, query_eq_ok.mpr ⟨?_, rfl⟩, done_eq_ok.mpr ⟨rfl, rfl⟩⟩
  simp [originalOf, h]

theorem requireBridgeOutbox_eq_ok {name outboxId : String} :
    requireBridgeOutbox name outboxId d = .ok (record, d') ↔
      (∃ row, d.outboxRow outboxId = some row ∧ row.read = record) ∧ d = d' := by
  simp [requireBridgeOutbox]

theorem leaseOwner_ne (dispatch : SapExecuteDispatch) : leaseOwner dispatch ≠ "" := by
  simp [leaseOwner]

theorem markOutboxSent_inboxRow (h : markOutboxSent id owner revision ts d = .ok (record, d'))
    (key : ProtocolInboxKey) : d'.inboxRow key = d.inboxRow key := by
  have hexec : (DeliveryCall.markOutboxSent id owner revision ts).exec d = .ok ((), d') :=
    map_eq_ok.mpr ⟨record, h, rfl⟩
  have hmove := (Moves.exec hexec).inbox key
  generalize d.inboxRow key = before at hmove ⊢
  generalize d'.inboxRow key = after at hmove ⊢
  cases hmove
  rfl

theorem claimOutbox_inboxRow {out : Option ProtocolOutboxRecord}
    (h : claimOutbox id owner now expiry revision d = .ok (out, d')) (key : ProtocolInboxKey) :
    d'.inboxRow key = d.inboxRow key := by
  obtain ⟨_, ⟨_, _, _, _, _, _, rfl⟩ | ⟨_, _, rfl⟩⟩ := claimOutbox_eq_ok.mp h
  · rfl
  · rfl

theorem claimInbox_some {key : ProtocolInboxKey} {record : ProtocolInboxRecord}
    (h : claimInbox key owner now expiry revision d = .ok (some record, d')) :
    d'.inboxRow key = some record ∧ record.ClaimedBy owner record.revision now ∧
      record.leaseExpiresAt = some expiry ∧
      ∃ row, d.inboxRow key = some row ∧ row.Claimable now := by
  obtain ⟨hlease, ⟨row, hrow, hguard, _, rfl, hout, rfl⟩ | ⟨_, hout, _⟩⟩ := claimInbox_eq_ok.mp h
  · cases hout
    refine ⟨by simp [hrow], ⟨rfl, rfl, rfl, ?_⟩, rfl, row, hrow, hguard.2⟩
    simpa [leaseLive, InboxColumns.claim] using hlease.2
  · cases hout

theorem deliverExecute_admits (h : deliverExecute options now dispatch d = .ok (admission, d'))
    (hnone : d.inboxRow dispatch.inboxKey = none) (hgrant : admission.shouldExecute = true) :
    Deliverable options now dispatch d ∧ Granted options now dispatch admission d' := by
  unfold deliverExecute at h
  obtain ⟨outbox, d₀, hrequire, h⟩ := chain_eq_ok.mp h
  obtain ⟨⟨row, hrow, rfl⟩, rfl⟩ := requireBridgeOutbox_eq_ok.mp hrequire
  obtain ⟨claimedOutbox, d₁, hclaim, h⟩ := chain_eq_ok.mp h
  obtain ⟨received, d₂, hreceive, h⟩ := chain_eq_ok.mp h
  cases claimedOutbox with
  | none =>
      obtain ⟨rfl, rfl⟩ := done_eq_ok.mp h
      cases hgrant
  | some claimedOutbox =>
      obtain ⟨claimedInbox, d₃, hclaimInbox, h⟩ := chain_eq_ok.mp h
      cases claimedInbox with
      | none =>
          obtain ⟨rfl, rfl⟩ := done_eq_ok.mp h
          cases hgrant
      | some claimedInbox =>
          obtain ⟨sent, d₄, hsent, h⟩ := chain_eq_ok.mp h
          obtain ⟨rfl, rfl⟩ := done_eq_ok.mp h
          have hnone₁ := (claimOutbox_inboxRow hclaim dispatch.inboxKey).trans hnone
          obtain ⟨⟨hvalid, hdestination⟩, hreceived⟩ := receiveInbox_eq_ok.mp hreceive
          have hkey : received.1.key = dispatch.inboxKey := by
            rcases hreceived with ⟨_, rfl, _⟩ | ⟨inbox, hinbox, _, rfl, _⟩
            · rfl
            · cases hnone₁.symm.trans hinbox
          rw [hkey] at hclaimInbox
          obtain ⟨hrow₃, hclaimed, hlease, _⟩ := claimInbox_some hclaimInbox
          obtain ⟨hleased, hclaimable⟩ := claimOutbox_eq_ok.mp hclaim
          refine ⟨⟨hvalid, hdestination, hleased.2, ?_⟩, rfl, ?_, hclaimed, hlease⟩
          · rcases hclaimable with ⟨row, hrow, hguard, _⟩ | ⟨_, hnothing, _⟩
            · exact ⟨row, hrow, hguard.2⟩
            · cases hnothing
          · exact (markOutboxSent_inboxRow hsent dispatch.inboxKey).trans hrow₃

/-! ## Claims that go through -/

theorem claimOutbox_free (hrow : d.outboxRow id = some row) (howner : owner ≠ "")
    (hlater : now < expiry) (hfree : row.Claimable now) :
    ∃ d', claimOutbox id owner now expiry row.revision d =
        .ok (some (row.withColumns (row.claim owner expiry)).read, d') ∧
      d'.outboxRow id = some (row.withColumns (row.claim owner expiry)) ∧
      (∀ other, other ≠ id → d'.outboxRow other = d.outboxRow other) ∧
      ∀ key, d'.inboxRow key = d.inboxRow key := by
  refine ⟨_, claimOutbox_eq_ok.mpr ⟨⟨howner, hlater⟩,
    .inl ⟨row, hrow, ⟨rfl, hfree⟩, _, rfl, rfl, rfl⟩⟩, by simp [hrow], ?_, fun _ => rfl⟩
  intro other hne
  simp [hne]

theorem claimInbox_free {key : ProtocolInboxKey} {row : ProtocolInboxRecord}
    (hrow : d.inboxRow key = some row) (howner : owner ≠ "") (hlater : now < expiry)
    (hfree : row.Claimable now) :
    ∃ d', claimInbox key owner now expiry row.revision d =
        .ok (some (row.withColumns (row.claim owner expiry)), d') ∧
      d'.inboxRow key = some (row.withColumns (row.claim owner expiry)) ∧
      (∀ other, other ≠ key → d'.inboxRow other = d.inboxRow other) ∧
      ∀ id, d'.outboxRow id = d.outboxRow id := by
  refine ⟨_, claimInbox_eq_ok.mpr ⟨⟨howner, hlater⟩,
    .inl ⟨row, hrow, ⟨rfl, hfree⟩, _, rfl, rfl, rfl⟩⟩, by simp [hrow], ?_, fun _ => rfl⟩
  intro other hne
  simp [hne]

theorem markOutboxSent_claimed (hrow : d.outboxRow id = some row)
    (hclaimed : row.ClaimedBy owner row.revision ts) :
    ∃ record d', markOutboxSent id owner row.revision ts d = .ok (record, d') := by
  have hopen : row.status ≠ .complete := by
    rw [hclaimed.1]
    decide
  exact ⟨_, _, markOutboxSent_eq_ok.mpr ⟨row, hrow, .inr ⟨hopen, updateClaimedOutbox_eq_ok.mpr
    ⟨row, hrow, hclaimed, rfl, rfl⟩⟩⟩⟩

theorem receiveInbox_command (receivedAt : Timestamp) (hvalid : frame.Valid)
    (hconsumer : consumerId ≠ "") (hcommand : frame.isReceipt = false)
    (hnone : d.inboxRow ⟨consumerId, frame.protocol, frame.exchangeId⟩ = none) :
    ∃ d', receiveInbox consumerId frame receivedAt d =
        .ok ((receivedRow consumerId frame receivedAt, true), d') ∧
      d'.inboxRow ⟨consumerId, frame.protocol, frame.exchangeId⟩ =
        some (receivedRow consumerId frame receivedAt) ∧
      ∀ id, d'.outboxRow id = d.outboxRow id := by
  have hinserted : (d.addInbox (receivedRow consumerId frame receivedAt) hnone).inboxRow
      (receivedRow consumerId frame receivedAt).key =
        some (receivedRow consumerId frame receivedAt) :=
    (addInbox_inboxRow ..).trans (if_pos rfl)
  exact ⟨_, receiveInbox_eq_ok.mpr ⟨⟨hvalid, hconsumer⟩,
    .inl ⟨hnone, rfl, completeOriginal_of_command hcommand⟩⟩, hinserted, fun _ => rfl⟩

theorem deliverExecute_of_deliverable (hnone : d.inboxRow dispatch.inboxKey = none)
    (h : Deliverable options now dispatch d) :
    ∃ admission d', deliverExecute options now dispatch d = .ok (admission, d') ∧
      admission.shouldExecute = true := by
  obtain ⟨row, hrow, hclaimable⟩ := h.claimable
  obtain ⟨d₁, hclaim, hrow₁, _, hinbox₁⟩ :=
    claimOutbox_free hrow (leaseOwner_ne dispatch) h.lease hclaimable
  obtain ⟨d₂, hreceive, hrow₂, houtbox₂⟩ :=
    receiveInbox_command now h.frame h.destination rfl ((hinbox₁ _).trans hnone)
  obtain ⟨d₃, hclaimInbox, _, _, houtbox₃⟩ :=
    claimInbox_free hrow₂ (leaseOwner_ne dispatch) h.lease (.inl rfl)
  have hrow₃ := ((houtbox₃ _).trans (houtbox₂ _)).trans hrow₁
  have hclaimed : (row.claim (leaseOwner dispatch)
      (leaseExpiresAt options now dispatch)).ClaimedBy (leaseOwner dispatch)
      (row.revision + 1) now :=
    ⟨rfl, rfl, rfl, by simpa [leaseLive, OutboxColumns.claim] using h.lease⟩
  obtain ⟨sent, d₄, hsent⟩ := markOutboxSent_claimed hrow₃ hclaimed
  have hread : row.read.revision = row.revision := by simp
  have hread₁ : (row.withColumns (row.claim (leaseOwner dispatch)
      (leaseExpiresAt options now dispatch))).read.revision = row.revision + 1 := by
    simp [OutboxColumns.claim]
  let received := receivedRow dispatch.destination dispatch.frame.toFrame now
  refine ⟨⟨true, received.withColumns (received.claim (leaseOwner dispatch)
    (leaseExpiresAt options now dispatch)), sent, leaseOwner dispatch⟩, d₄, ?_, rfl⟩
  unfold deliverExecute
  refine chain_eq_ok.mpr ⟨_, d, requireBridgeOutbox_eq_ok.mpr ⟨⟨row, hrow, rfl⟩, rfl⟩, ?_⟩
  rw [hread]
  refine chain_eq_ok.mpr ⟨_, d₁, hclaim, chain_eq_ok.mpr ⟨_, d₂, hreceive,
    chain_eq_ok.mpr ⟨_, d₃, hclaimInbox, chain_eq_ok.mpr ⟨sent, d₄, ?_,
      done_eq_ok.mpr ⟨rfl, rfl⟩⟩⟩⟩⟩
  rw [hread₁]
  exact hsent

/-- The execute may be claimed again: it was received, no cancel is known and no lease runs. -/
structure Reclaimable (now : Timestamp) (dispatch : SapExecuteDispatch) (d : ProtocolDelivery) :
    Prop where
  claimable : ∃ row, d.inboxRow dispatch.inboxKey = some row ∧ row.Claimable now
  uncancelled : d.outboxRow (Sap.cancelOutboxId dispatch.frame.exchangeId) = none

theorem beginExecute_admits (h : beginExecute options now dispatch d = .ok (admission, d'))
    (hgrant : admission.shouldExecute = true) :
    Granted options now dispatch admission d' ∧ (Reclaimable now dispatch d ∨
      (d.inboxRow dispatch.inboxKey = none ∧ Deliverable options now dispatch d)) := by
  unfold beginExecute at h
  obtain ⟨existing, d₀, hget, h⟩ := chain_eq_ok.mp h
  obtain ⟨hexisting, rfl⟩ := getInbox_eq_ok.mp hget
  cases existing with
  | none =>
      obtain ⟨hdeliverable, hgranted⟩ := deliverExecute_admits h hexisting hgrant
      exact ⟨hgranted, .inr ⟨hexisting, hdeliverable⟩⟩
  | some existing =>
      obtain ⟨cancel, d₀, hget, h⟩ := chain_eq_ok.mp h
      obtain ⟨hcancel, rfl⟩ := getOutbox_eq_ok.mp hget
      rcases branch_eq_ok.mp h with ⟨_, h⟩ | ⟨hopen, h⟩
      · obtain ⟨_, _, _, h⟩ := chain_eq_ok.mp h
        obtain ⟨rfl, _⟩ := done_eq_ok.mp h
        cases hgrant
      · unfold reclaimExecute at h
        obtain ⟨outbox, d₁, hrequire, h⟩ := chain_eq_ok.mp h
        obtain ⟨_, rfl⟩ := requireBridgeOutbox_eq_ok.mp hrequire
        obtain ⟨reclaimed, d₂, hclaim, h⟩ := chain_eq_ok.mp h
        obtain ⟨rfl, rfl⟩ := done_eq_ok.mp h
        cases reclaimed with
        | none => cases hgrant
        | some reclaimed =>
            rw [inboxRow_key hexisting] at hclaim
            obtain ⟨hrow, hclaimed, hlease, hfree⟩ := claimInbox_some hclaim
            refine ⟨⟨rfl, hrow, hclaimed, hlease⟩, .inl ⟨hfree, ?_⟩⟩
            cases hfound : d.outboxRow (Sap.cancelOutboxId dispatch.frame.exchangeId) with
            | none => rfl
            | some row =>
                rw [hfound] at hcancel
                exact absurd (.inr (hcancel ▸ rfl)) hopen

theorem beginExecute_of_deliverable (hnone : d.inboxRow dispatch.inboxKey = none)
    (h : Deliverable options now dispatch d) :
    ∃ admission d', beginExecute options now dispatch d = .ok (admission, d') ∧
      admission.shouldExecute = true := by
  obtain ⟨admission, d', hdeliver, hgrant⟩ := deliverExecute_of_deliverable hnone h
  refine ⟨admission, d', ?_, hgrant⟩
  unfold beginExecute
  exact chain_eq_ok.mpr ⟨none, d, getInbox_eq_ok.mpr ⟨hnone, rfl⟩, hdeliver⟩

theorem beginExecute_key (h : beginExecute options now dispatch d = .ok (admission, d')) :
    admission.executeInbox.key = dispatch.inboxKey := by
  unfold beginExecute at h
  obtain ⟨existing, d₀, hget, h⟩ := chain_eq_ok.mp h
  obtain ⟨hexisting, rfl⟩ := getInbox_eq_ok.mp hget
  cases existing with
  | none =>
      unfold deliverExecute at h
      obtain ⟨outbox, d₀, hrequire, h⟩ := chain_eq_ok.mp h
      obtain ⟨_, rfl⟩ := requireBridgeOutbox_eq_ok.mp hrequire
      obtain ⟨claimedOutbox, d₁, hclaim, h⟩ := chain_eq_ok.mp h
      obtain ⟨received, d₂, hreceive, h⟩ := chain_eq_ok.mp h
      have hkey : received.1.key = dispatch.inboxKey := by
        rcases (receiveInbox_eq_ok.mp hreceive).2 with ⟨_, rfl, _⟩ | ⟨inbox, hinbox, _, rfl, _⟩
        · rfl
        · exact inboxRow_key hinbox
      cases claimedOutbox with
      | none =>
          obtain ⟨rfl, rfl⟩ := done_eq_ok.mp h
          exact hkey
      | some claimedOutbox =>
          obtain ⟨claimedInbox, d₃, hclaimInbox, h⟩ := chain_eq_ok.mp h
          cases claimedInbox with
          | none =>
              obtain ⟨rfl, rfl⟩ := done_eq_ok.mp h
              exact hkey
          | some claimedInbox =>
              obtain ⟨sent, d₄, hsent, h⟩ := chain_eq_ok.mp h
              obtain ⟨rfl, rfl⟩ := done_eq_ok.mp h
              rw [hkey] at hclaimInbox
              exact inboxRow_key (claimInbox_some hclaimInbox).1
  | some existing =>
      have hkey := inboxRow_key hexisting
      obtain ⟨cancel, d₀, hcancel, h⟩ := chain_eq_ok.mp h
      obtain ⟨_, rfl⟩ := getOutbox_eq_ok.mp hcancel
      rcases branch_eq_ok.mp h with ⟨_, h⟩ | ⟨_, h⟩
      · obtain ⟨_, _, _, h⟩ := chain_eq_ok.mp h
        obtain ⟨rfl, _⟩ := done_eq_ok.mp h
        exact hkey
      · unfold reclaimExecute at h
        obtain ⟨outbox, d₁, hrequire, h⟩ := chain_eq_ok.mp h
        obtain ⟨_, rfl⟩ := requireBridgeOutbox_eq_ok.mp hrequire
        obtain ⟨reclaimed, d₂, hclaim, h⟩ := chain_eq_ok.mp h
        obtain ⟨rfl, rfl⟩ := done_eq_ok.mp h
        cases reclaimed with
        | none => exact hkey
        | some reclaimed =>
            rw [hkey] at hclaim
            exact inboxRow_key (claimInbox_some hclaim).1

/-! ## Accepting a result -/

/-- The exchange of `key` is settled by the result `replyId`. -/
def SettledBy (key : ProtocolInboxKey) (replyId : String) (d : ProtocolDelivery) : Prop :=
  ∃ row, d.inboxRow key = some row ∧ row.status = .complete ∧ row.replyExchangeId = some replyId

theorem Reaches.settledBy {key : ProtocolInboxKey} (h : Reaches d d')
    (hsettled : SettledBy key replyId d) : SettledBy key replyId d' := by
  obtain ⟨row, hrow, hcomplete, hreply⟩ := hsettled
  exact ⟨row, h.complete hrow hcomplete, hcomplete, hreply⟩

theorem completeInbox_settles {input : CompleteProtocolInbox} {record : ProtocolInboxRecord}
    (h : completeInbox input d = .ok (record, d')) :
    d'.inboxRow input.key = some record ∧ record.status = .complete ∧
      record.replyExchangeId = input.reply.map (·.frame.exchangeId) := by
  obtain ⟨row, hrow, _, d₁, hreply, rfl, rfl⟩ := completeInbox_eq_ok.mp h
  have hrow₁ := (enqueueReply_inboxRow hreply input.key).trans hrow
  exact ⟨by simp [hrow₁], rfl, rfl⟩

theorem completeResult_settles (h : completeResult options admission result d = .ok (u, d')) :
    SettledBy admission.executeInbox.key result.exchangeId d' := by
  unfold completeResult at h
  obtain ⟨_, d₀, hbelongs, h⟩ := chain_eq_ok.mp h
  obtain ⟨_, rfl⟩ := lift_eq_ok.mp hbelongs
  obtain ⟨record, d₁, hcomplete, h⟩ := chain_eq_ok.mp h
  obtain ⟨hrow, hstatus, hreply⟩ := completeInbox_settles hcomplete
  exact (Reaches.deliverAccepted _ _ _ h).settledBy ⟨record, hrow, hstatus, hreply⟩

theorem completeResult_stores (h : completeResult options admission result d = .ok (u, d')) :
    ∃ row, d'.outboxRow (resultOutboxId result) = some row ∧
      row.exchangeId = result.exchangeId := by
  unfold completeResult at h
  obtain ⟨_, d₀, hbelongs, h⟩ := chain_eq_ok.mp h
  obtain ⟨_, rfl⟩ := lift_eq_ok.mp hbelongs
  obtain ⟨record, d₁, hcomplete, h⟩ := chain_eq_ok.mp h
  obtain ⟨_, _, _, d₂, hreply, _, rfl⟩ := completeInbox_eq_ok.mp hcomplete
  rcases enqueueReply_eq_ok.mp hreply with ⟨hnone, _⟩ | ⟨input, hinput, _, henqueue⟩
  · cases hnone
  · cases hinput
    obtain ⟨_, _, hid, hexchange, rfl⟩ := enqueueOutbox_eq_ok.mp henqueue
    obtain ⟨row', hrow', hframe⟩ := (Reaches.deliverAccepted _ _ _ h).outboxRow
      ((addOutbox_outboxRow d _ _ hid hexchange).trans (if_pos rfl))
    exact ⟨row', hrow', congrArg ProtocolFrame.exchangeId hframe⟩

theorem classifyResult_eq_ok {out : SapResultDisposition} :
    classifyResult admission result d = .ok (out, d') ↔
      result.causationId = some admission.executeInbox.exchangeId ∧
        Sap.disposition admission result (d.inboxRow admission.executeInbox.key)
          (d.outboxRow (Sap.cancelOutboxId admission.executeInbox.exchangeId)).isSome = out ∧
        d = d' := by
  simp only [classifyResult, chain_eq_ok, lift_eq_ok, ensure_eq_ok, getInbox_eq_ok,
    getOutbox_eq_ok, done_eq_ok]
  constructor
  · rintro ⟨_, _, ⟨hbelongs, rfl⟩, _, _, ⟨rfl, rfl⟩, _, _, ⟨rfl, rfl⟩, hout, rfl⟩
    exact ⟨hbelongs, by simpa using hout, rfl⟩
  · rintro ⟨hbelongs, hout, rfl⟩
    exact ⟨⟨⟩, d, ⟨hbelongs, rfl⟩, _, d, ⟨rfl, rfl⟩, _, d, ⟨rfl, rfl⟩, by simpa using hout, rfl⟩

/-- Once an exchange is settled, a result of it is a duplicate when it is the one that settled
it and late otherwise. -/
theorem disposition_settled (h : SettledBy admission.executeInbox.key replyId d) :
    Sap.disposition admission result (d.inboxRow admission.executeInbox.key) cancelled =
      if result.exchangeId = replyId then .duplicate else .late := by
  obtain ⟨row, hrow, hstatus, hreply⟩ := h
  simp [Sap.disposition, hrow, Option.filter, hstatus, hreply, eq_comm]

theorem acceptResult_eq_ok :
    acceptResult options admission result d = .ok (disposition, d') ↔
      classifyResult admission result d = .ok (disposition, d) ∧
        match disposition with
        | .accepted => completeResult options admission result d = .ok (⟨⟩, d')
        | .late => completeLateResult options result d = .ok (⟨⟩, d')
        | .duplicate => d = d' := by
  unfold acceptResult
  rw [chain_eq_ok]
  constructor
  · rintro ⟨classified, _, hclassify, h⟩
    obtain ⟨_, _, rfl⟩ := classifyResult_eq_ok.mp hclassify
    cases classified with
    | accepted =>
        obtain ⟨⟨⟩, _, hcomplete, h⟩ := chain_eq_ok.mp h
        obtain ⟨rfl, rfl⟩ := done_eq_ok.mp h
        exact ⟨hclassify, hcomplete⟩
    | late =>
        obtain ⟨⟨⟩, _, hcomplete, h⟩ := chain_eq_ok.mp h
        obtain ⟨rfl, rfl⟩ := done_eq_ok.mp h
        exact ⟨hclassify, hcomplete⟩
    | duplicate =>
        obtain ⟨rfl, rfl⟩ := done_eq_ok.mp h
        exact ⟨hclassify, rfl⟩
  · rintro ⟨hclassify, h⟩
    refine ⟨disposition, d, hclassify, ?_⟩
    cases disposition with
    | accepted => exact chain_eq_ok.mpr ⟨⟨⟩, d', h, done_eq_ok.mpr ⟨rfl, rfl⟩⟩
    | late => exact chain_eq_ok.mpr ⟨⟨⟩, d', h, done_eq_ok.mpr ⟨rfl, rfl⟩⟩
    | duplicate => exact done_eq_ok.mpr ⟨rfl, h⟩

/-! ## Results that are refused -/

theorem disposition_ne_accepted_iff {current : Option ProtocolInboxRecord} :
    Sap.disposition admission result current cancelled ≠ .accepted ↔
      (∃ row ∈ current, row.status = .complete) ∨ cancelled = true ∨
        admission.executeInbox.frame.deadlineAt < result.createdAt := by
  unfold Sap.disposition
  cases hfound : current.filter fun row => row.status = .complete with
  | none =>
      have hopen : ¬ ∃ row ∈ current, row.status = .complete := by
        rintro ⟨row, hrow, hcomplete⟩
        rw [Option.filter_eq_none_iff] at hfound
        exact hfound row hrow (decide_eq_true hcomplete)
      by_cases hlate : cancelled = true ∨
          admission.executeInbox.frame.deadlineAt < result.createdAt
      · exact iff_of_true (by simp only [if_pos hlate]; decide) (.inr hlate)
      · exact iff_of_false (by simp only [if_neg hlate]; decide) fun h => h.elim hopen hlate
  | some row =>
      obtain ⟨hrow, hcomplete⟩ := Option.filter_eq_some_iff.mp hfound
      have hsettled : ∃ row ∈ current, row.status = .complete :=
        ⟨row, hrow, of_decide_eq_true hcomplete⟩
      by_cases hreply : row.replyExchangeId = some result.exchangeId
      · simpa [hreply] using Or.inl hsettled
      · simpa [hreply] using Or.inl hsettled

/-- A result that the tables do not let through. -/
def Refused (admission : SapExecutionAdmission) (result : SapResultFrame) (d : ProtocolDelivery) :
    Prop :=
  Sap.disposition admission result (d.inboxRow admission.executeInbox.key)
    (d.outboxRow (Sap.cancelOutboxId admission.executeInbox.exchangeId)).isSome ≠ .accepted

theorem Refused.reaches (h : Refused admission result d) (hreach : Reaches d d') :
    Refused admission result d' := by
  refine disposition_ne_accepted_iff.mpr ?_
  rcases disposition_ne_accepted_iff.mp h with ⟨row, hrow, hcomplete⟩ | hcancelled | hdeadline
  · exact .inl ⟨row, hreach.complete hrow hcomplete, hcomplete⟩
  · obtain ⟨row, hrow⟩ := Option.isSome_iff_exists.mp hcancelled
    obtain ⟨row', hrow', _⟩ := hreach.outboxRow hrow
    exact .inr (.inl (Option.isSome_iff_exists.mpr ⟨row', hrow'⟩))
  · exact .inr (.inr hdeadline)

theorem disposition_duplicate (h : Sap.disposition admission result
      (d.inboxRow admission.executeInbox.key) cancelled = .duplicate) :
    SettledBy admission.executeInbox.key result.exchangeId d := by
  unfold Sap.disposition at h
  split at h
  next row hfound =>
    obtain ⟨hrow, hcomplete⟩ := Option.filter_eq_some_iff.mp hfound
    split at h
    next hreply => exact ⟨row, hrow, of_decide_eq_true hcomplete, hreply⟩
    next => cases h
  next =>
    split at h
    · cases h
    · cases h

/-! ## Exchanges that stay open -/

/-- Every settled exchange was settled before. -/
def KeepsOpen (d d' : ProtocolDelivery) : Prop :=
  ∀ key replyId, SettledBy key replyId d' → SettledBy key replyId d

namespace KeepsOpen

theorem refl (d : ProtocolDelivery) : KeepsOpen d d :=
  fun _ _ h => h

theorem trans {d'' : ProtocolDelivery} (h : KeepsOpen d d') (h' : KeepsOpen d' d'') :
    KeepsOpen d d'' :=
  fun key replyId hsettled => h key replyId (h' key replyId hsettled)

theorem moves {key : ProtocolInboxKey} (h : Moves call d d') (hsettled : SettledBy key replyId d') :
    SettledBy key replyId d ∨
      ∃ input, call = .completeInbox input ∧
        input.reply.map (·.frame.exchangeId) = some replyId := by
  obtain ⟨row, hrow, hcomplete, hreply⟩ := hsettled
  have hmove := h.inbox key
  rw [hrow] at hmove
  generalize hbefore : d.inboxRow key = before at hmove
  cases hmove with
  | stays => exact .inl ⟨row, hbefore, hcomplete, hreply⟩
  | received => cases hcomplete
  | claimed => cases hcomplete
  | renewed _ _ hclaimed => cases hclaimed.1.symm.trans hcomplete
  | completed => exact .inr ⟨_, rfl, hreply⟩

theorem op {α : Type} {x : Delivery α} (call : DeliveryCall)
    (hcall : ∀ input, call = .completeInbox input → input.reply = none)
    (hx : call.exec = (fun _ => ()) <$> x) : Keeps KeepsOpen x := by
  intro d a d' h key replyId hsettled
  have hexec : call.exec d = .ok ((), d') := by
    rw [hx]
    exact map_eq_ok.mpr ⟨a, h, rfl⟩
  rcases moves (Moves.exec hexec) hsettled with hbefore | ⟨input, hinput, hreply⟩
  · exact hbefore
  · rw [hcall input hinput] at hreply
    cases hreply

theorem enqueueOutbox {input : EnqueueProtocolOutbox} :
    Keeps KeepsOpen (Delivery.enqueueOutbox input) :=
  op (.enqueueOutbox input) (fun _ h => (by cases h)) rfl

theorem receiveInbox :
    Keeps KeepsOpen (Delivery.receiveInbox consumerId frame receivedAt) :=
  op (.receiveInbox consumerId frame receivedAt) (fun _ h => (by cases h)) rfl

theorem bridge : BridgeRelation KeepsOpen where
  refl := refl
  trans := trans
  claimOutbox := op (.claimOutbox _ _ _ _ _) (fun _ h => (by cases h)) rfl
  markOutboxSent := op (.markOutboxSent _ _ _ _) (fun _ h => (by cases h)) rfl
  activateOutbox := op (.activateOutbox _ _ _) (fun _ h => (by cases h)) rfl
  claimInbox := op (.claimInbox _ _ _ _ _) (fun _ h => (by cases h)) rfl
  settleInbox hreply := op (.completeInbox _) (fun _ h => (by cases h; exact hreply)) rfl

theorem enqueueExecute : Keeps KeepsOpen (enqueueExecute dispatch) :=
  bridge.enqueueExecute fun _ => enqueueOutbox

theorem beginExecute :
    Keeps KeepsOpen (beginExecute options now dispatch) :=
  bridge.beginExecute receiveInbox

theorem deliverAccepted :
    Keeps KeepsOpen (deliverAccepted options result) :=
  bridge.deliverAccepted fun _ => receiveInbox

theorem completeLateResult :
    Keeps KeepsOpen (completeLateResult options result) :=
  bridge.completeLateResult (fun _ => enqueueOutbox) fun _ => receiveInbox

end KeepsOpen

theorem completeResult_settles_only
    (h : completeResult options admission result d = .ok (u, d')) {key : ProtocolInboxKey}
    (hsettled : SettledBy key replyId d') :
    SettledBy key replyId d ∨ replyId = result.exchangeId := by
  unfold completeResult at h
  obtain ⟨_, d₀, hbelongs, h⟩ := chain_eq_ok.mp h
  obtain ⟨_, rfl⟩ := lift_eq_ok.mp hbelongs
  obtain ⟨record, d₁, hcomplete, h⟩ := chain_eq_ok.mp h
  have hexec : (DeliveryCall.completeInbox _).exec d = .ok ((), d₁) :=
    map_eq_ok.mpr ⟨record, hcomplete, rfl⟩
  rcases KeepsOpen.moves (Moves.exec hexec)
    (KeepsOpen.deliverAccepted _ _ _ h key replyId hsettled) with hbefore | ⟨input, hinput, hreply⟩
  · exact .inl hbefore
  · cases hinput
    exact .inr (Option.some.inj hreply).symm

theorem acceptResult_keepsOpen (hrefused : Refused admission result d)
    (h : acceptResult options admission result d = .ok (disposition, d')) :
    disposition ≠ .accepted ∧ KeepsOpen d d' ∧ (disposition = .duplicate →
      SettledBy admission.executeInbox.key result.exchangeId d) := by
  obtain ⟨hclassify, h⟩ := acceptResult_eq_ok.mp h
  obtain ⟨_, hdisposition, _⟩ := classifyResult_eq_ok.mp hclassify
  cases disposition with
  | accepted => exact absurd hdisposition hrefused
  | late =>
      exact ⟨(fun h => (by cases h)), KeepsOpen.completeLateResult _ _ _ h, (fun h => (by cases h))⟩
  | duplicate =>
      obtain rfl : d = d' := h
      exact ⟨(fun h => (by cases h)), KeepsOpen.refl d, fun _ => disposition_duplicate hdisposition⟩

end Newide
