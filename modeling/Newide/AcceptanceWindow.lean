import Newide.SapAdmission

/-!
# The window of an acceptance

A receipt that is classified `accepted` also has to complete the inbox
row of its command, which takes a lease that still runs.  The lease is
granted once, at the admission, and ends at the deadline at the latest;
the classification goes by the deadline alone.
-/

namespace Newide

open Fallible Transaction Delivery Aap ProtocolDelivery Sap

variable {d d' : ProtocolDelivery}

/-! ## Operations that go through -/

/-- An enqueue that goes through: a valid frame under an id and an exchange not used before. -/
structure Enqueueable (input : EnqueueProtocolOutbox) (d : ProtocolDelivery) : Prop where
  frame : input.frame.Valid
  id : input.id ≠ ""
  destination : input.destination ≠ ""
  attempt : input.frame.attempt = 1
  newId : d.outboxRow input.id = none
  newExchange : d.exchangeRow input.row.exchange = none

variable {row : ProtocolInboxRecord}

theorem completeInbox_replies (input : CompleteProtocolInbox) {reply : EnqueueProtocolOutbox}
    (hrow : d.inboxRow input.key = some row)
    (hclaimed : row.ClaimedBy input.leaseOwner input.expectedRevision input.completedAt)
    (hreply : input.reply = some reply) (hfits : ReplyFits row reply.frame)
    (hnew : Enqueueable reply d) :
    ∃ record d', completeInbox input d = .ok (record, d') ∧
      d'.outboxRow reply.id = some reply.row ∧
      ∀ key, key ≠ input.key → d'.inboxRow key = d.inboxRow key := by
  have henqueue := enqueueOutbox_eq_ok.mpr ⟨⟨hnew.frame, hnew.id, hnew.destination, hnew.attempt⟩,
    rfl, hnew.newId, hnew.newExchange, rfl⟩
  have hreplied := (enqueueReply_eq_ok (u := ⟨⟩)).mpr (.inr ⟨reply, hreply, hfits, henqueue⟩)
  refine ⟨_, _, completeInbox_eq_ok.mpr ⟨row, hrow, hclaimed, _, hreplied, rfl, rfl⟩, ?_, ?_⟩
  · simp only [log_outboxRow, setInbox_outboxRow]
    exact (d.addOutbox_outboxRow reply.id reply.row hnew.newId hnew.newExchange).trans (if_pos rfl)
  · intro key hne
    simp only [log_inboxRow, setInbox_inboxRow, if_neg hne]
    rfl

theorem completeInbox_settled (input : CompleteProtocolInbox)
    (hrow : d.inboxRow input.key = some row)
    (hclaimed : row.ClaimedBy input.leaseOwner input.expectedRevision input.completedAt)
    (hreply : input.reply = none) : ∃ record d', completeInbox input d = .ok (record, d') := by
  have hreplied : enqueueReply row input.reply d = .ok (⟨⟩, d) :=
    enqueueReply_eq_ok.mpr (.inl ⟨hreply, rfl⟩)
  exact ⟨_, _, completeInbox_eq_ok.mpr ⟨row, hrow, hclaimed, d, hreplied, rfl, rfl⟩⟩

theorem outbox_sent {id owner : String} {now expiry : Timestamp} {row : ProtocolOutboxRecord}
    (hrow : d.outboxRow id = some row) (howner : owner ≠ "") (hlater : now < expiry)
    (hfree : row.Claimable now) :
    ∃ claimed d₁, claimOutbox id owner now expiry row.revision d = .ok (some claimed, d₁) ∧
      ∃ record d₂, markOutboxSent claimed.id owner claimed.revision now d₁ = .ok (record, d₂) ∧
        ∀ key, d₂.inboxRow key = d.inboxRow key := by
  obtain ⟨d₁, hclaim, hrow₁, _, hinbox⟩ := claimOutbox_free hrow howner hlater hfree
  have hclaimed : (row.claim owner expiry).ClaimedBy owner (row.claim owner expiry).revision now :=
    ⟨rfl, rfl, rfl, decide_eq_true hlater⟩
  obtain ⟨record, d₂, hsent⟩ := markOutboxSent_claimed hrow₁ hclaimed
  have hread := ProtocolOutboxRecord.read_columns (row.withColumns (row.claim owner expiry))
  have hid := (ProtocolOutboxRecord.read_id _).trans (outboxRow_id hrow₁)
  refine ⟨_, d₁, hclaim, record, d₂, ?_, ?_⟩
  · rw [hid, hread]
    exact hsent
  · intro key
    exact (markOutboxSent_inboxRow hsent key).trans (hinbox key)

theorem inbox_settled {consumerId owner : String} {frame : ProtocolFrame} {now expiry : Timestamp}
    (hvalid : frame.Valid) (hconsumer : consumerId ≠ "") (howner : owner ≠ "")
    (hlater : now < expiry) (hnew : d.inboxRow (receivedRow consumerId frame now).key = none) :
    ∃ d₁, receiveInbox consumerId frame now d =
        .ok ((receivedRow consumerId frame now, true), d₁) ∧
      ∃ claimed d₂, claimInbox (receivedRow consumerId frame now).key owner now expiry 1 d₁ =
          .ok (some claimed, d₂) ∧
        ∃ record d₃, completeInbox
          { key := claimed.key, leaseOwner := owner, expectedRevision := claimed.revision
            completedAt := now } d₂ = .ok (record, d₃) := by
  obtain ⟨d₁, hcomplete⟩ := completeOriginal_total frame now
    ((d.addInbox (receivedRow consumerId frame now) hnew).log
      ((receivedRow consumerId frame now).entry "inbox.received" consumerId now))
  have hreceive := receiveInbox_eq_ok.mpr ⟨⟨hvalid, hconsumer⟩, .inl ⟨hnew, rfl, hcomplete⟩⟩
  have hrow₁ : d₁.inboxRow (receivedRow consumerId frame now).key =
      some (receivedRow consumerId frame now) := by
    rw [(Moves.completeOriginal hcomplete).2]
    simp
  obtain ⟨d₂, hclaim, hrow₂, _, _⟩ := claimInbox_free hrow₁ howner hlater (.inl rfl)
  have hclaimed : ((receivedRow consumerId frame now).claim owner expiry).ClaimedBy owner
      ((receivedRow consumerId frame now).claim owner expiry).revision now :=
    ⟨rfl, rfl, rfl, decide_eq_true hlater⟩
  obtain ⟨record, d₃, hsettled⟩ := completeInbox_settled
    { key := (receivedRow consumerId frame now).key, leaseOwner := owner
      expectedRevision := 2, completedAt := now } hrow₂ hclaimed rfl
  exact ⟨d₁, hreceive, _, d₂, hclaim, record, d₃, hsettled⟩

/-! ## Results of an execute -/

variable {options : BridgeOptions} {dispatch : SapExecuteDispatch} {now : Timestamp}
  {admission : SapExecutionAdmission} {result : SapResultFrame}

theorem systemOwner_ne (result : SapResultFrame) : systemOwner result ≠ "" := by
  simp [systemOwner]

theorem resultOutboxId_ne (result : SapResultFrame) : resultOutboxId result ≠ "" := by
  simp [resultOutboxId]

def resultReply (result : SapResultFrame) : EnqueueProtocolOutbox where
  id := resultOutboxId result
  destination := "system"
  frame := result.toFrame

def systemKey (frame : ProtocolFrame) : ProtocolInboxKey where
  consumerId := "system"
  protocol := frame.protocol
  exchangeId := frame.exchangeId

theorem deliverAccepted_goes (hrow : d.outboxRow (resultOutboxId result) =
      some (resultReply result).row) (hvalid : result.toFrame.Valid)
    (hnew : d.inboxRow (systemKey result.toFrame) = none)
    (hlater : result.createdAt < minTimestamp (options.leaseAfter result.createdAt)
      result.deadlineAt) :
    ∃ d', Sap.deliverAccepted options result d = .ok (⟨⟩, d') := by
  have hfree : (resultReply result).row.Claimable result.createdAt :=
    ⟨le_refl _, .inl rfl, .inl rfl⟩
  obtain ⟨claimed, d₁, hclaim, sent, d₂, hsent, hinbox⟩ :=
    outbox_sent hrow (systemOwner_ne result) hlater hfree
  obtain ⟨d₃, hreceive, held, d₄, hheld, record, d₅, hsettled⟩ :=
    inbox_settled (d := d₂) hvalid (by decide : "system" ≠ "") (systemOwner_ne result) hlater
      ((hinbox _).trans hnew)
  refine ⟨d₅, ?_⟩
  unfold Sap.deliverAccepted Sap.requireOutbox
  refine chain_eq_ok.mpr ⟨_, d, requireBridgeOutbox_eq_ok.mpr ⟨⟨_, hrow, rfl⟩, rfl⟩, ?_⟩
  refine chain_eq_ok.mpr ⟨_, d₁, hclaim, chain_eq_ok.mpr ⟨claimed, d₁, ?_, ?_⟩⟩
  · exact lift_eq_ok.mpr ⟨rfl, rfl⟩
  refine chain_eq_ok.mpr ⟨sent, d₂, hsent, chain_eq_ok.mpr ⟨_, d₃, hreceive, ?_⟩⟩
  refine chain_eq_ok.mpr ⟨_, d₄, hheld, chain_eq_ok.mpr ⟨held, d₄, ?_, ?_⟩⟩
  · exact lift_eq_ok.mpr ⟨rfl, rfl⟩
  exact chain_eq_ok.mpr ⟨record, d₅, hsettled, done_eq_ok.mpr ⟨rfl, rfl⟩⟩

/-- `result` is created at `ts` for the execute the admission holds. -/
def ResultFor (admission : SapExecutionAdmission) (ts : Timestamp) (result : SapResultFrame) :
    Prop :=
  ∃ newId input, admission.executeInbox.frame = input.execute.toFrame ∧
    createResult ts newId input = .ok result

/-- No receipt with the exchange id of `frame` was stored before. -/
structure ReceiptUnused (outboxId : String) (frame : ProtocolFrame)
    (d : ProtocolDelivery) : Prop where
  outbox : d.outboxRow outboxId = none
  exchange : d.exchangeRow (frame.protocol, frame.exchangeId) = none
  inbox : d.inboxRow (systemKey frame) = none

/-- What `createResult` makes of the execute it is given. -/
structure ResultFits (row : ProtocolInboxRecord) (ts : Timestamp) (result : SapResultFrame) :
    Prop where
  valid : result.toFrame.Valid
  attempt : result.attempt = 1
  created : result.createdAt = ts
  deadline : result.deadlineAt = row.frame.deadlineAt
  belongs : result.causationId = some row.exchangeId
  fits : ReplyFits row result.toFrame

theorem ResultFor.resultFits {ts : Timestamp} (h : ResultFor admission ts result) :
    ResultFits admission.executeInbox ts result := by
  obtain ⟨newId, input, hframe, hcreate⟩ := h
  unfold createResult at hcreate
  obtain ⟨_, hparse, hcreate⟩ := bind_eq_ok.mp hcreate
  obtain ⟨hvalid, _⟩ := parseProtocolFrame_eq_ok.mp hparse
  have hresult := pure_eq_ok.mp hcreate
  have hexchange : admission.executeInbox.exchangeId = input.execute.exchangeId := by
    unfold ProtocolInboxRecord.exchangeId
    rw [hframe]
    rfl
  subst hresult
  refine ⟨hvalid, rfl, rfl, ?_, ?_, rfl, ?_, ?_, ?_⟩
  · rw [hframe]
    rfl
  · rw [hexchange]
  · rw [hexchange]
    rfl
  · rw [hframe]
    rfl
  · rw [hframe]
    rfl

/-- The tables between an admission and the result made for it. -/
structure Untouched (dispatch : SapExecuteDispatch) (d d' : ProtocolDelivery) : Prop where
  inbox : d'.inboxRow dispatch.inboxKey = d.inboxRow dispatch.inboxKey
  cancel : Cancelled dispatch d' ↔ Cancelled dispatch d

namespace Granted

variable {ts : Timestamp}

theorem untouched (h : Granted options now dispatch admission d) (hquiet : Untouched dispatch d d') :
    Granted options now dispatch admission d' :=
  ⟨h.owner, hquiet.inbox.trans h.row, h.claimed, h.lease⟩

theorem stored (h : Granted options now dispatch admission d) :
    d.inboxRow admission.executeInbox.key = some admission.executeInbox := by
  rw [h.key]
  exact h.row

theorem cancelled_iff (h : Granted options now dispatch admission d) :
    (d.outboxRow (cancelOutboxId admission.executeInbox.exchangeId)).isSome = true ↔
      Cancelled dispatch d := by
  have hexchange : admission.executeInbox.exchangeId = dispatch.frame.exchangeId :=
    congrArg ProtocolInboxKey.exchangeId h.key
  rw [hexchange]
  rfl

theorem classify_iff (h : Granted options now dispatch admission d)
    (hfits : ResultFits admission.executeInbox ts result) :
    classifyResult admission result d = .ok (.accepted, d) ↔
      ts ≤ admission.executeInbox.frame.deadlineAt ∧ ¬ Cancelled dispatch d := by
  have hopen : ¬ admission.executeInbox.status = .complete := by
    rw [h.claimed.1]
    decide
  rw [classifyResult_eq_ok, ← h.cancelled_iff, ← hfits.created, ← not_lt]
  simp only [hfits.belongs, disposition, h.stored, Option.filter, hopen, decide_false,
    true_and, and_true]
  by_cases hcancel : (d.outboxRow (cancelOutboxId admission.executeInbox.exchangeId)).isSome
  · simp [hcancel]
  · by_cases hlate : admission.executeInbox.frame.deadlineAt < result.createdAt
    · simp [hlate]
    · simp [hcancel, hlate]

theorem accepts_in_lease (h : Granted options now dispatch admission d)
    (hfits : ResultFits admission.executeInbox ts result)
    (haccept : acceptResult options admission result d = .ok (.accepted, d')) :
    ts < leaseExpiresAt options now dispatch ∧
      ts < admission.executeInbox.frame.deadlineAt ∧ ¬ Cancelled dispatch d := by
  obtain ⟨hclassify, hcomplete⟩ := acceptResult_eq_ok.mp haccept
  unfold completeResult at hcomplete
  obtain ⟨_, _, hbelongs, hcomplete⟩ := chain_eq_ok.mp hcomplete
  obtain ⟨_, rfl⟩ := lift_eq_ok.mp hbelongs
  obtain ⟨_, _, hinbox, hdeliver⟩ := chain_eq_ok.mp hcomplete
  obtain ⟨row, hrow, hclaimed, _⟩ := completeInbox_eq_ok.mp hinbox
  cases h.stored.symm.trans hrow
  have hlive := hclaimed.2.2.2
  rw [h.lease, hfits.created] at hlive
  have hbefore : ts < leaseExpiresAt options now dispatch := of_decide_eq_true hlive
  unfold Sap.deliverAccepted at hdeliver
  obtain ⟨_, _, _, hdeliver⟩ := chain_eq_ok.mp hdeliver
  obtain ⟨_, _, hclaim, _⟩ := chain_eq_ok.mp hdeliver
  -- the reply takes a lease of its own, which ends at the deadline too
  have hend := lt_of_lt_of_le (claimOutbox_eq_ok.mp hclaim).1.2 (minTimestamp_le_right _ _)
  rw [hfits.created, hfits.deadline] at hend
  exact ⟨hbefore, hend, ((h.classify_iff hfits).mp hclassify).2⟩

theorem accepts (h : Granted options now dispatch admission d)
    (hfits : ResultFits admission.executeInbox ts result)
    (hunused : ReceiptUnused (resultOutboxId result) result.toFrame d)
    (hlease : ts < options.leaseAfter ts) (hbefore : ts < leaseExpiresAt options now dispatch)
    (hend : ts < admission.executeInbox.frame.deadlineAt) (hcancel : ¬ Cancelled dispatch d) :
    ∃ d', acceptResult options admission result d = .ok (.accepted, d') := by
  have hclassify := (h.classify_iff hfits).mpr ⟨le_of_lt hend, hcancel⟩
  have hclaimed : admission.executeInbox.ClaimedBy admission.leaseOwner
      admission.executeInbox.revision result.createdAt := by
    refine ⟨h.claimed.1, h.owner ▸ h.claimed.2.1, rfl, ?_⟩
    rw [h.lease, hfits.created]
    exact decide_eq_true hbefore
  have hnew : Enqueueable (resultReply result) d :=
    ⟨hfits.valid, resultOutboxId_ne result, (by decide : "system" ≠ ""), hfits.attempt,
      hunused.outbox, hunused.exchange⟩
  obtain ⟨record, d₁, hinbox, hrow₁, hothers⟩ := completeInbox_replies
    { key := admission.executeInbox.key, leaseOwner := admission.leaseOwner
      expectedRevision := admission.executeInbox.revision
      completedAt := result.createdAt, reply := some (resultReply result) }
    h.stored hclaimed rfl hfits.fits hnew
  have hother : systemKey result.toFrame ≠ admission.executeInbox.key := by
    intro hsame
    have hnone := hunused.inbox
    rw [hsame, h.stored] at hnone
    cases hnone
  have hreplyLease : result.createdAt <
      minTimestamp (options.leaseAfter result.createdAt) result.deadlineAt := by
    rw [hfits.created, hfits.deadline]
    unfold minTimestamp
    split
    next => exact hlease
    next => exact hend
  obtain ⟨d₂, hdeliver⟩ := deliverAccepted_goes hrow₁ hfits.valid
    ((hothers _ hother).trans hunused.inbox) hreplyLease
  refine ⟨d₂, acceptResult_eq_ok.mpr ⟨hclassify, ?_⟩⟩
  unfold completeResult
  refine chain_eq_ok.mpr ⟨⟨⟩, d, lift_eq_ok.mpr ⟨ensure_eq_ok.mpr hfits.belongs, rfl⟩, ?_⟩
  exact chain_eq_ok.mpr ⟨record, d₁, hinbox, hdeliver⟩

end Granted

/-! ## Replies to an ask -/

section
variable {options : AapOptions} {dispatch : AapAskDispatch} {expiry now ts : Timestamp}
  {admission : AapAskAdmission} {reply : AapReplyFrame}

/-- The admission holds the inbox row of its ask, under a lease until `expiry`. -/
structure AskGranted (expiry now : Timestamp) (dispatch : AapAskDispatch)
    (admission : AapAskAdmission) (d : ProtocolDelivery) : Prop where
  owner : admission.leaseOwner = leaseOwner dispatch
  row : d.inboxRow dispatch.inboxKey = some admission.askInbox
  claimed : admission.askInbox.ClaimedBy (leaseOwner dispatch) admission.askInbox.revision now
  lease : admission.askInbox.leaseExpiresAt = some expiry

theorem AskGranted.stored (h : AskGranted expiry now dispatch admission d) :
    d.inboxRow admission.askInbox.key = some admission.askInbox := by
  rw [inboxRow_key h.row]
  exact h.row

theorem admitAsk_grants {outbox : ProtocolOutboxRecord}
    {claimedOutbox : Option ProtocolOutboxRecord} {received : ProtocolInboxRecord}
    (hkey : received.key = dispatch.inboxKey)
    (h : admitAsk options now dispatch outbox claimedOutbox received d = .ok (admission, d'))
    (hgrant : admission.shouldExecute = true) :
    AskGranted (leaseExpiresAt options now dispatch) now dispatch admission d' := by
  unfold admitAsk at h
  obtain ⟨claimedInbox, d₁, hclaim, h⟩ := chain_eq_ok.mp h
  cases claimedInbox with
  | none =>
      obtain ⟨rfl, rfl⟩ := done_eq_ok.mp h
      cases hgrant
  | some claimedInbox =>
      rw [hkey] at hclaim
      obtain ⟨hrow, hclaimed, hlease, _⟩ := claimInbox_some hclaim
      cases claimedOutbox with
      | none =>
          obtain ⟨rfl, rfl⟩ := done_eq_ok.mp h
          exact ⟨rfl, hrow, hclaimed, hlease⟩
      | some claimedOutbox =>
          obtain ⟨sent, d₂, hsent, h⟩ := chain_eq_ok.mp h
          obtain ⟨rfl, rfl⟩ := done_eq_ok.mp h
          exact ⟨rfl, (markOutboxSent_inboxRow hsent _).trans hrow, hclaimed, hlease⟩

theorem beginAsk_grants (h : beginAsk options now dispatch d = .ok (admission, d'))
    (hgrant : admission.shouldExecute = true) :
    AskGranted (leaseExpiresAt options now dispatch) now dispatch admission d' := by
  unfold beginAsk at h
  obtain ⟨existing, _, hget, h⟩ := chain_eq_ok.mp h
  obtain ⟨hexisting, rfl⟩ := getInbox_eq_ok.mp hget
  obtain ⟨outbox, _, hrequire, h⟩ := chain_eq_ok.mp h
  obtain ⟨_, rfl⟩ := requireBridgeOutbox_eq_ok.mp hrequire
  cases existing with
  | some existing =>
      rcases branch_eq_ok.mp h with ⟨_, h⟩ | ⟨_, h⟩
      · obtain ⟨rfl, _⟩ := done_eq_ok.mp h
        cases hgrant
      · unfold reclaimAsk at h
        obtain ⟨reclaimed, d₁, hclaim, h⟩ := chain_eq_ok.mp h
        obtain ⟨rfl, rfl⟩ := done_eq_ok.mp h
        cases reclaimed with
        | none => cases hgrant
        | some reclaimed =>
            rw [inboxRow_key hexisting] at hclaim
            obtain ⟨hrow, hclaimed, hlease, _⟩ := claimInbox_some hclaim
            exact ⟨rfl, hrow, hclaimed, hlease⟩
  | none =>
      unfold deliverAsk at h
      obtain ⟨claimedOutbox, d₁, hclaim, h⟩ := chain_eq_ok.mp h
      obtain ⟨received, d₂, hreceive, h⟩ := chain_eq_ok.mp h
      have hkey : received.1.key = dispatch.inboxKey := by
        rcases (receiveInbox_eq_ok.mp hreceive).2 with ⟨_, rfl, _⟩ | ⟨inbox, hinbox, _, rfl, _⟩
        · rfl
        · exact inboxRow_key hinbox
      rcases branch_eq_ok.mp h with ⟨_, h⟩ | ⟨_, h⟩
      · obtain ⟨rfl, _⟩ := done_eq_ok.mp h
        cases hgrant
      · exact admitAsk_grants hkey h hgrant

/-- `reply` is created at `ts` for the ask the admission holds. -/
def ReplyFor (admission : AapAskAdmission) (ts : Timestamp) (reply : AapReplyFrame) : Prop :=
  ∃ input, admission.askInbox.frame = input.ask.toFrame ∧ createReply ts input = .ok reply

/-- What `createReply` makes of the ask it is given. -/
structure AskReplyFits (row : ProtocolInboxRecord) (ts : Timestamp) (reply : AapReplyFrame) :
    Prop where
  valid : reply.toFrame.Valid
  attempt : reply.attempt = 1
  created : reply.createdAt = ts
  belongs : reply.causationId = some row.exchangeId
  fits : ReplyFits row reply.toFrame

theorem ReplyFor.fits (h : ReplyFor admission ts reply) :
    AskReplyFits admission.askInbox ts reply := by
  obtain ⟨input, hframe, hcreate⟩ := h
  unfold createReply at hcreate
  obtain ⟨_, hparse, hcreate⟩ := bind_eq_ok.mp hcreate
  obtain ⟨hvalid, _⟩ := parseProtocolFrame_eq_ok.mp hparse
  have hreply := pure_eq_ok.mp hcreate
  have hexchange : admission.askInbox.exchangeId = input.ask.exchangeId := by
    unfold ProtocolInboxRecord.exchangeId
    rw [hframe]
    rfl
  subst hreply
  refine ⟨hvalid, rfl, rfl, ?_, rfl, ?_, ?_, ?_⟩
  · rw [hexchange]
  · rw [hexchange]
    rfl
  · rw [hframe]
    rfl
  · rw [hframe]
    rfl

theorem classifyReply_eq_ok {out : AapReplyDisposition} :
    classifyReply admission reply d = .ok (out, d') ↔
      reply.causationId = some admission.askInbox.exchangeId ∧
        (match (d.inboxRow admission.askInbox.key).filter fun row => row.status = .complete with
          | some row => if row.replyExchangeId = some reply.exchangeId then .duplicate else .late
          | none => if admission.askInbox.frame.deadlineAt < reply.createdAt then .late
              else .accepted) = out ∧ d = d' := by
  unfold classifyReply
  rw [chain_eq_ok]
  constructor
  · rintro ⟨_, _, hcheck, h⟩
    obtain ⟨hbelongs, rfl⟩ := lift_eq_ok.mp hcheck
    obtain ⟨current, _, hget, h⟩ := chain_eq_ok.mp h
    obtain ⟨hcurrent, rfl⟩ := getInbox_eq_ok.mp hget
    refine ⟨ensure_eq_ok.mp hbelongs, ?_⟩
    rw [hcurrent]
    generalize current.filter (fun row => row.status = .complete) = complete at h ⊢
    cases complete with
    | none => exact done_eq_ok.mp h
    | some row => exact done_eq_ok.mp h
  · rintro ⟨hbelongs, hout, rfl⟩
    refine ⟨⟨⟩, d, lift_eq_ok.mpr ⟨ensure_eq_ok.mpr hbelongs, rfl⟩, ?_⟩
    refine chain_eq_ok.mpr ⟨_, d, getInbox_eq_ok.mpr ⟨rfl, rfl⟩, ?_⟩
    generalize (d.inboxRow admission.askInbox.key).filter (fun row => row.status = .complete) =
      complete at hout ⊢
    cases complete with
    | none => exact done_eq_ok.mpr ⟨hout, rfl⟩
    | some row => exact done_eq_ok.mpr ⟨hout, rfl⟩

theorem acceptReply_eq_ok {disposition : AapReplyDisposition} :
    acceptReply options admission reply d = .ok (disposition, d') ↔
      classifyReply admission reply d = .ok (disposition, d) ∧
        match disposition with
        | .accepted => completeReply options admission reply d = .ok (⟨⟩, d')
        | .late => recordLateReply options reply d = .ok (⟨⟩, d')
        | .duplicate => d = d' := by
  unfold acceptReply
  rw [chain_eq_ok]
  constructor
  · rintro ⟨classified, _, hclassify, h⟩
    obtain ⟨_, _, rfl⟩ := classifyReply_eq_ok.mp hclassify
    cases classified with
    | accepted =>
        obtain ⟨⟨⟩, _, hcomplete, h⟩ := chain_eq_ok.mp h
        obtain ⟨rfl, rfl⟩ := done_eq_ok.mp h
        exact ⟨hclassify, hcomplete⟩
    | late =>
        obtain ⟨⟨⟩, _, hrecord, h⟩ := chain_eq_ok.mp h
        obtain ⟨rfl, rfl⟩ := done_eq_ok.mp h
        exact ⟨hclassify, hrecord⟩
    | duplicate =>
        obtain ⟨rfl, rfl⟩ := done_eq_ok.mp h
        exact ⟨hclassify, rfl⟩
  · rintro ⟨hclassify, h⟩
    refine ⟨disposition, d, hclassify, ?_⟩
    cases disposition with
    | accepted => exact chain_eq_ok.mpr ⟨⟨⟩, d', h, done_eq_ok.mpr ⟨rfl, rfl⟩⟩
    | late => exact chain_eq_ok.mpr ⟨⟨⟩, d', h, done_eq_ok.mpr ⟨rfl, rfl⟩⟩
    | duplicate => exact done_eq_ok.mpr ⟨rfl, h⟩

namespace AskGranted

theorem classify_iff (h : AskGranted expiry now dispatch admission d)
    (hfits : AskReplyFits admission.askInbox ts reply) :
    classifyReply admission reply d = .ok (.accepted, d) ↔
      ts ≤ admission.askInbox.frame.deadlineAt := by
  have hopen : ¬ admission.askInbox.status = .complete := by
    rw [h.claimed.1]
    decide
  rw [classifyReply_eq_ok, ← hfits.created, ← not_lt]
  simp only [hfits.belongs, h.stored, Option.filter, hopen, decide_false, true_and, and_true]
  by_cases hlate : admission.askInbox.frame.deadlineAt < reply.createdAt
  · simp [hlate]
  · simp [hlate]

theorem accepts_in_lease (h : AskGranted expiry now dispatch admission d)
    (hfits : AskReplyFits admission.askInbox ts reply)
    (haccept : acceptReply options admission reply d = .ok (.accepted, d')) :
    ts < expiry := by
  obtain ⟨_, hcomplete⟩ := acceptReply_eq_ok.mp haccept
  unfold completeReply at hcomplete
  obtain ⟨_, _, hinbox, _⟩ := chain_eq_ok.mp hcomplete
  obtain ⟨row, hrow, hclaimed, _⟩ := completeInbox_eq_ok.mp hinbox
  cases h.stored.symm.trans hrow
  have hlive := hclaimed.2.2.2
  rw [h.lease, hfits.created] at hlive
  exact of_decide_eq_true hlive

def outboxRow (reply : AapReplyFrame) : EnqueueProtocolOutbox where
  id := replyOutboxId reply
  destination := reply.consumerRoleId.getD "system"
  frame := reply.toFrame

theorem destination_ne (hvalid : reply.toFrame.Valid) :
    reply.consumerRoleId.getD "system" ≠ "" := by
  have hrole : reply.consumerRoleId ≠ some "" := hvalid.2.2.2.2.2.1
  cases hconsumer : reply.consumerRoleId with
  | none => decide
  | some role =>
      intro hempty
      rw [hconsumer] at hrole
      exact hrole (congrArg some hempty)

theorem deliverReply_goes (hrow : d.outboxRow (replyOutboxId reply) = some (outboxRow reply).row)
    (hvalid : reply.toFrame.Valid) (hnew : d.inboxRow (systemKey reply.toFrame) = none)
    (hlater : reply.createdAt < options.leaseAfter reply.createdAt) :
    ∃ d', deliverReplyToSystem options reply d = .ok (⟨⟩, d') := by
  have howner : "aap-system:" ++ reply.exchangeId ≠ "" := by simp
  have hfree : (outboxRow reply).row.Claimable reply.createdAt := ⟨le_refl _, .inl rfl, .inl rfl⟩
  obtain ⟨claimed, d₁, hclaim, sent, d₂, hsent, hinbox⟩ := outbox_sent hrow howner hlater hfree
  obtain ⟨d₃, hreceive, held, d₄, hheld, record, d₅, hsettled⟩ :=
    inbox_settled (d := d₂) hvalid (by decide : "system" ≠ "") howner hlater
      ((hinbox _).trans hnew)
  refine ⟨d₅, ?_⟩
  unfold deliverReplyToSystem deliverToSystem
  refine chain_eq_ok.mpr ⟨_, d, requireBridgeOutbox_eq_ok.mpr ⟨⟨_, hrow, rfl⟩, rfl⟩, ?_⟩
  refine chain_eq_ok.mpr ⟨⟨⟩, d₂, ?_, chain_eq_ok.mpr ⟨_, d₃, hreceive, ?_⟩⟩
  · refine branch_eq_ok.mpr (.inl ⟨rfl, chain_eq_ok.mpr ⟨_, d₁, hclaim, ?_⟩⟩)
    exact chain_eq_ok.mpr ⟨sent, d₂, hsent, done_eq_ok.mpr ⟨rfl, rfl⟩⟩
  · refine branch_eq_ok.mpr (.inl ⟨(by decide : ProtocolInboxStatus.received ≠ .complete),
      chain_eq_ok.mpr ⟨_, d₄, hheld, ?_⟩⟩)
    exact chain_eq_ok.mpr ⟨record, d₅, hsettled, done_eq_ok.mpr ⟨rfl, rfl⟩⟩

theorem accepts (h : AskGranted expiry now dispatch admission d)
    (hfits : AskReplyFits admission.askInbox ts reply)
    (hunused : ReceiptUnused (replyOutboxId reply) reply.toFrame d)
    (hdeadline : ts ≤ admission.askInbox.frame.deadlineAt) (hlease : ts < options.leaseAfter ts)
    (hbefore : ts < expiry) :
    ∃ d', acceptReply options admission reply d = .ok (.accepted, d') := by
  have hclassify := (h.classify_iff hfits).mpr hdeadline
  have hclaimed : admission.askInbox.ClaimedBy admission.leaseOwner admission.askInbox.revision
      reply.createdAt := by
    refine ⟨h.claimed.1, h.owner ▸ h.claimed.2.1, rfl, ?_⟩
    rw [h.lease, hfits.created]
    exact decide_eq_true hbefore
  have hid : replyOutboxId reply ≠ "" := by simp [replyOutboxId]
  have hnew : Enqueueable (outboxRow reply) d :=
    ⟨hfits.valid, hid, destination_ne hfits.valid, hfits.attempt, hunused.outbox, hunused.exchange⟩
  obtain ⟨record, d₁, hinbox, hrow₁, hothers⟩ := completeInbox_replies
    { key := admission.askInbox.key, leaseOwner := admission.leaseOwner
      expectedRevision := admission.askInbox.revision
      completedAt := reply.createdAt, reply := some (outboxRow reply) }
    h.stored hclaimed rfl hfits.fits hnew
  have hother : systemKey reply.toFrame ≠ admission.askInbox.key := by
    intro hsame
    have hnone := hunused.inbox
    rw [hsame, h.stored] at hnone
    cases hnone
  have hreplyLease : reply.createdAt < options.leaseAfter reply.createdAt := by
    rw [hfits.created]
    exact hlease
  obtain ⟨d₂, hdeliver⟩ := deliverReply_goes hrow₁ hfits.valid
    ((hothers _ hother).trans hunused.inbox) hreplyLease
  refine ⟨d₂, acceptReply_eq_ok.mpr ⟨hclassify, ?_⟩⟩
  unfold completeReply
  exact chain_eq_ok.mpr ⟨record, d₁, hinbox, hdeliver⟩

end AskGranted

end

/-! ## The window -/

/-- Between an admission and the first receipt made for it, with nothing else on that exchange, a
result is accepted exactly when it was created inside the lease the admission granted, before the
deadline of the execute, and no cancel preceded the admission; a reply is accepted exactly when
it was created inside the lease. -/
theorem accepted_in_lease_iff (options : AapOptions) :
    (∀ (dispatch : SapExecuteDispatch) (admission : SapExecutionAdmission)
        (result : SapResultFrame) (now ts : Timestamp) (d₀ d₁ d₂ : ProtocolDelivery),
      beginExecute options.toBridgeOptions now dispatch d₀ = .ok (admission, d₁) →
      admission.shouldExecute = true → Untouched dispatch d₁ d₂ →
      ResultFor admission ts result → ReceiptUnused (resultOutboxId result) result.toFrame d₂ →
      ts ≤ admission.executeInbox.frame.deadlineAt → ts < options.leaseAfter ts →
      ((∃ d₃, acceptResult options.toBridgeOptions admission result d₂ =
          .ok (.accepted, d₃)) ↔
        ts < leaseExpiresAt options.toBridgeOptions now dispatch ∧
          ts < admission.executeInbox.frame.deadlineAt ∧ ¬ Cancelled dispatch d₁)) ∧
    (∀ (dispatch : AapAskDispatch) (admission : AapAskAdmission) (reply : AapReplyFrame)
        (now ts : Timestamp) (d₀ d₁ d₂ : ProtocolDelivery),
      beginAsk options now dispatch d₀ = .ok (admission, d₁) →
      admission.shouldExecute = true →
      d₂.inboxRow dispatch.inboxKey = d₁.inboxRow dispatch.inboxKey →
      ReplyFor admission ts reply → ReceiptUnused (replyOutboxId reply) reply.toFrame d₂ →
      ts ≤ admission.askInbox.frame.deadlineAt → ts < options.leaseAfter ts →
      ((∃ d₃, acceptReply options admission reply d₂ = .ok (.accepted, d₃)) ↔
        ts < leaseExpiresAt options now dispatch)) := by
  constructor
  · intro dispatch admission result now ts d₀ d₁ d₂ hbegin hgrant hquiet hresult hunused _ hlease
    have hgranted := (beginExecute_admits hbegin hgrant).1.untouched hquiet
    have hfits := hresult.resultFits
    rw [← hquiet.cancel]
    constructor
    · rintro ⟨d₃, haccept⟩
      exact hgranted.accepts_in_lease hfits haccept
    · rintro ⟨hbefore, hend, hcancel⟩
      exact hgranted.accepts hfits hunused hlease hbefore hend hcancel
  · intro dispatch admission reply now ts d₀ d₁ d₂ hbegin hgrant hquiet hreply hunused hdeadline
      hlease
    have hbegun := beginAsk_grants hbegin hgrant
    have hgranted : AskGranted (leaseExpiresAt options now dispatch) now dispatch admission
        d₂ := ⟨hbegun.owner, hquiet.trans hbegun.row, hbegun.claimed, hbegun.lease⟩
    constructor
    · rintro ⟨d₃, haccept⟩
      exact hgranted.accepts_in_lease hreply.fits haccept
    · intro hbefore
      exact hgranted.accepts hreply.fits hunused hdeadline hlease hbefore

def sampleAapOptions : AapOptions where
  toBridgeOptions := sampleOptions
  notAfter left right := left ≤ right

/-- The sample execute admitted at `now`. -/
def sampleAdmission (now : Timestamp) : Delivery SapExecutionAdmission := do
  let _ ← enqueueExecute sampleDispatch
  beginExecute sampleOptions now sampleDispatch

/-- The result of the sample execute created at `now`. -/
def sampleResultAt (ts : Timestamp) : Except Thrown SapResultFrame :=
  createResult ts "r" { execute := sampleExecute, status := .completed, summary := "Done" }

/-- Ten minutes after its admission the sample execute accepts its result. -/
theorem accepted_in_lease_sample :
    ∃ admission result d₁ d₃,
      acceptResult sampleOptions admission result d₁ = .ok (.accepted, d₃) := by
  have hchecked : (sampleAdmission "2026-01-01T00:00:00.000Z" .empty).map (fun out => decide
      (out.1.shouldExecute = true ∧ out.1.executeInbox.frame = sampleExecute.toFrame ∧
        ¬ Cancelled sampleDispatch out.2 ∧ out.2.outboxRow "outbox_r" = none ∧
        out.2.exchangeRow (.systemAgent, "r") = none ∧
        out.2.inboxRow ⟨"system", .systemAgent, "r"⟩ = none)) = .ok true := by decide
  obtain ⟨⟨admission, d₁⟩, hrun, hfacts⟩ := mapped_eq_ok.mp hchecked
  obtain ⟨hgrant, hframe, hcancel, hid, hexchange, hinbox⟩ := of_decide_eq_true hfacts
  obtain ⟨_, d₀, _, hbegin⟩ := chain_eq_ok.mp hrun
  have hresult : ResultFor admission sampleResult.createdAt sampleResult :=
    ⟨"r", { execute := sampleExecute, status := .completed, summary := "Done" }, hframe,
      by decide⟩
  have haccepted := ((accepted_in_lease_iff sampleAapOptions).1 sampleDispatch admission
    sampleResult _ sampleResult.createdAt d₀ d₁ d₁ hbegin hgrant ⟨rfl, Iff.rfl⟩ hresult
    ⟨hid, hexchange, hinbox⟩ (by rw [hframe]; decide) (by decide)).mpr
      ⟨by decide, by rw [hframe]; decide, hcancel⟩
  obtain ⟨d₃, haccept⟩ := haccepted
  exact ⟨admission, sampleResult, d₁, d₃, haccept⟩

/-- An execute admitted at midnight for half an hour throws away the result of 00:30, and one
admitted at 00:40 the result of its deadline, 01:00. -/
theorem result_lost_in_time :
    let attempt (begun created : Timestamp) : Delivery SapResultDisposition := do
      let admission ← sampleAdmission begun
      let result ← lift (sampleResultAt created)
      acceptResult sampleOptions admission result
    (attempt "2026-01-01T00:00:00.000Z" "2026-01-01T00:30:00.000Z" .empty).map (·.1) =
        .error (.error "Inbox x lease or revision conflict") ∧
      (attempt "2026-01-01T00:40:00.000Z" "2026-01-01T01:00:00.000Z" .empty).map (·.1) =
        .error (.error "Inbox x lease or revision conflict") := by
  decide

end Newide
