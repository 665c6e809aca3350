import Newide.MailboxService

/-!
# Requests and replies of the mailbox

What a call of the mailbox service can do to the tables, said once; from
it the invariant of the tables over any sequence of calls: deliveries
only move forward, a message has at most one reply, and a message that
has one is acknowledged.
-/

namespace Newide

open Fallible Statement MailboxTables

inductive MailboxDeliveryStatus.Moves : MailboxDeliveryStatus → MailboxDeliveryStatus → Prop
  | stay (status : MailboxDeliveryStatus) : Moves status status
  | inject : Moves .pending .injected
  | acknowledge : Moves .injected .acknowledged
  | failPending : Moves .pending .failed
  | failInjected : Moves .injected .failed

/-- The later row of a delivery: same delivery, same message, a status it may move to. -/
structure PersistedMailboxDelivery.Later (old new : PersistedMailboxDelivery) : Prop where
  deliveryId : new.deliveryId = old.deliveryId
  messageId : new.messageId = old.messageId
  taskId : new.taskId = old.taskId
  workspacePath : new.workspacePath = old.workspacePath
  recipientRoleId : new.recipientRoleId = old.recipientRoleId
  moves : old.status.Moves new.status

/-- A message and its delivery, inserted together. -/
structure Posted (s : MailboxTables) (message : PersistedMailboxMessage)
    (delivery : PersistedMailboxDelivery) : Prop where
  fits : s.MessageFits message
  fresh : ∀ old ∈ s.deliveries, old.deliveryId ≠ delivery.deliveryId
  messageId : delivery.messageId = message.messageId
  taskId : delivery.taskId = message.taskId
  workspacePath : delivery.workspacePath = message.workspacePath

def MailboxTables.post (s : MailboxTables) (message : PersistedMailboxMessage)
    (delivery : PersistedMailboxDelivery) : MailboxTables where
  messages := s.messages ++ [message]
  deliveries := s.deliveries ++ [delivery]

def acknowledgeRow (acknowledgedAt : Timestamp) (row : PersistedMailboxDelivery) :
    PersistedMailboxDelivery :=
  { row with
    status := .acknowledged
    acknowledgedAt := some acknowledgedAt
    updatedAt := acknowledgedAt }

/-- The reply answers the source: in its task, workspace and thread, from its recipient, and
delivered to its sender. -/
structure Answers (source : PersistedMailboxMessage) (sourceDelivery : PersistedMailboxDelivery)
    (reply : PersistedMailboxMessage) (replyDelivery : PersistedMailboxDelivery) : Prop where
  sender : reply.fromRoleId = sourceDelivery.recipientRoleId
  recipient : replyDelivery.recipientRoleId = source.fromRoleId
  taskId : reply.taskId = source.taskId
  workspacePath : reply.workspacePath = source.workspacePath
  threadId : reply.threadId = source.threadId

/-- An update of one delivery keeps its identity and moves its status on. -/
structure Updates (s : MailboxTables) (deliveryId : String)
    (f : PersistedMailboxDelivery → PersistedMailboxDelivery) : Prop where
  key : ∀ row, (f row).deliveryId = row.deliveryId
  later : ∀ row ∈ s.deliveries, row.deliveryId = deliveryId → row.Later (f row)

inductive MailboxEffect (s : MailboxTables) : MailboxTables → Prop
  | updated {deliveryId : String} {f : PersistedMailboxDelivery → PersistedMailboxDelivery}
      (hf : Updates s deliveryId f) : MailboxEffect s (s.updateDelivery deliveryId f)
  | sent {message : PersistedMailboxMessage} {delivery : PersistedMailboxDelivery}
      (hposted : Posted s message delivery) (hno : message.replyToMessageId = none) :
      MailboxEffect s (s.post message delivery)
  | replied {row : PersistedMailboxDelivery} {source message : PersistedMailboxMessage}
      {delivery : PersistedMailboxDelivery}
      {f : PersistedMailboxDelivery → PersistedMailboxDelivery}
      (hrow : s.delivery? row.deliveryId = some row) (hf : Updates s row.deliveryId f)
      (hacknowledged : (f row).status = .acknowledged)
      (hsource : s.message? row.messageId = some source)
      (hanswers : Answers source row message delivery)
      (hreply : message.replyToMessageId = some row.messageId)
      (hposted : Posted (s.updateDelivery row.deliveryId f) message delivery) :
      MailboxEffect s ((s.updateDelivery row.deliveryId f).post message delivery)

/-! ## Each call has such an effect, or throws and changes nothing -/

variable {acknowledgedAt : Timestamp} {input : MailboxSendInput} {recipientRoleId text : String}
  {u : PUnit} {α : Type} {old : PersistedMailboxDelivery}

section
variable {s t : MailboxTables} {env : MailboxEnv} {deliveryId : String}
  {row delivery : PersistedMailboxDelivery} {message : PersistedMailboxMessage}

@[simp] theorem check_ok {x : Except MailboxError PUnit} {u : PUnit} :
    check x s = (.ok u, t) ↔ x = .ok u ∧ t = s := read_eq

@[simp] theorem requireDeliveryRow_ok :
    requireDeliveryRow deliveryId s = (.ok delivery, t) ↔
      (∃ row, s.delivery? deliveryId = some row ∧ readMailboxDelivery row = delivery) ∧ t = s := by
  rw [requireDeliveryRow, read_eq]
  simp only [requireMailboxDelivery, bind_eq_ok, orThrow_eq_ok, pure_eq_ok]

theorem atomicAt_check {x : Except MailboxError PUnit} {f : PUnit → MailboxStatement α}
    (h : x = .ok ⟨⟩ → AtomicAt s (f ⟨⟩)) : AtomicAt s (check x >>= f) :=
  atomicAt_chain fun _ hx => h hx

variable {f : PersistedMailboxDelivery → PersistedMailboxDelivery}

theorem delivery?_update
    (hf : ∀ row : PersistedMailboxDelivery, (f row).deliveryId = row.deliveryId) {other : String} :
    (s.updateDelivery deliveryId f).delivery? other =
      if other = deliveryId then (s.delivery? other).map f else s.delivery? other :=
  Rows.lookup_update hf

theorem requireMailboxDelivery_update
    (hf : ∀ row : PersistedMailboxDelivery, (f row).deliveryId = row.deliveryId)
    (hrow : s.delivery? deliveryId = some row) :
    ∃ delivery, (s.updateDelivery deliveryId f).requireMailboxDelivery deliveryId = .ok delivery := by
  refine ⟨readMailboxDelivery (f row), ?_⟩
  simp only [requireMailboxDelivery, bind_eq_ok, orThrow_eq_ok, pure_eq_ok]
  exact ⟨f row, by rw [delivery?_update hf, if_pos rfl, hrow]; rfl, rfl⟩

theorem PersistedMailboxDelivery.Later.refl (row : PersistedMailboxDelivery) : row.Later row :=
  ⟨rfl, rfl, rfl, rfl, rfl, .stay _⟩

theorem Updates.of_later (hf : ∀ row : PersistedMailboxDelivery, row.Later (f row)) :
    Updates s deliveryId f :=
  ⟨fun row => (hf row).deliveryId, fun row _ _ => hf row⟩

theorem Updates.of_row (hd : Rows.Distinct PersistedMailboxDelivery.deliveryId s.deliveries)
    (hrow : s.delivery? deliveryId = some row)
    (hkey : ∀ row : PersistedMailboxDelivery, (f row).deliveryId = row.deliveryId)
    (hf : row.Later (f row)) : Updates s deliveryId f := by
  refine ⟨hkey, fun other hother hid => ?_⟩
  obtain rfl := hd.eq_of_key hother (Rows.lookup_mem hrow) (hid.trans (Rows.lookup_key hrow).symm)
  exact hf

theorem updateDelivery_id : s.updateDelivery deliveryId id = s := by
  simp [updateDelivery, Rows.update]

theorem MailboxEffect.same : MailboxEffect s s := by
  have h : MailboxEffect s (s.updateDelivery "" id) := .updated (.of_later .refl)
  rwa [updateDelivery_id] at h

/-! ### Marking -/

theorem later_inject (recipientSessionId : String) (injectedAt : Timestamp)
    (row : PersistedMailboxDelivery) :
    row.Later (if row.status = .pending then
      { row with
        status := .injected
        recipientSessionId := some recipientSessionId
        injectedAt := row.injectedAt <|> some injectedAt
        lastError := none
        updatedAt := injectedAt }
      else row) := by
  split
  · next h => exact ⟨rfl, rfl, rfl, rfl, rfl, by rw [h]; exact .inject⟩
  · exact .refl row

theorem markMailboxDeliveryInjected_effect {recipientSessionId : String} {injectedAt : Timestamp}
    (h : markMailboxDeliveryInjected deliveryId recipientRoleId recipientSessionId injectedAt s =
      (.ok delivery, t)) : MailboxEffect s t := by
  simp only [markMailboxDeliveryInjected, chain_ok, requireDeliveryRow_ok, check_ok] at h
  obtain ⟨read, _, ⟨_, rfl⟩, _, _, ⟨_, rfl⟩, h⟩ := h
  rcases branch_eq.mp h with ⟨_, h⟩ | ⟨_, h⟩
  · obtain ⟨_, _, hcheck, hdone⟩ := chain_ok.mp h
    obtain rfl := (check_ok.mp hcheck).2
    obtain ⟨_, rfl⟩ := done_eq.mp hdone
    exact .same
  · simp only [chain_ok, check_ok, write_ok, requireDeliveryRow_ok] at h
    obtain ⟨_, _, ⟨_, rfl⟩, _, _, hwrite, _, rfl⟩ := h
    cases hwrite
    exact .updated (.of_later (later_inject recipientSessionId injectedAt))

theorem markMailboxDeliveryInjected_atomic (recipientRoleId recipientSessionId : String)
    (injectedAt : Timestamp) :
    AtomicAt s
      (markMailboxDeliveryInjected deliveryId recipientRoleId recipientSessionId injectedAt) := by
  refine atomicAt_chain fun read hread => atomicAt_check fun _ => ?_
  refine atomicAt_branch (fun _ => atomicAt_check fun _ => atomicAt_done s _) fun _ => ?_
  refine atomicAt_check fun _ => atomicAt_write fun u hu => ?_
  cases hu
  simp only [requireMailboxDelivery, bind_eq_ok, orThrow_eq_ok] at hread
  obtain ⟨row, hrow, _⟩ := hread
  exact requireMailboxDelivery_update
    (fun row => (later_inject recipientSessionId injectedAt row).deliveryId) hrow

theorem later_open
    (hf : ∀ row : PersistedMailboxDelivery, row.status.open? = true → row.Later (f row))
    (row : PersistedMailboxDelivery) : row.Later (if row.status.open? then f row else row) := by
  split
  · next h => exact hf row h
  · exact .refl row

theorem updateOpenDelivery_effect
    (hf : ∀ row : PersistedMailboxDelivery, row.status.open? = true → row.Later (f row))
    (h : updateOpenDelivery deliveryId text f s = (.ok delivery, t)) : MailboxEffect s t := by
  simp only [updateOpenDelivery, chain_ok, write_ok, requireDeliveryRow_ok, bind_eq_ok,
    ensure_eq_ok, pure_eq_ok] at h
  obtain ⟨_, _, ⟨_, _, rfl⟩, _, rfl⟩ := h
  exact .updated (.of_later (later_open hf))

theorem updateOpenDelivery_atomic
    (hf : ∀ row : PersistedMailboxDelivery, row.status.open? = true → row.Later (f row)) :
    AtomicAt s (updateOpenDelivery deliveryId text f) := by
  refine atomicAt_write fun u hu => ?_
  simp only [bind_eq_ok, ensure_eq_ok, pure_eq_ok] at hu
  obtain ⟨_, hany, rfl⟩ := hu
  obtain ⟨row, hrow, _⟩ := (Option.any_eq_true _ _).mp hany
  exact requireMailboxDelivery_update (fun row => (later_open hf row).deliveryId) hrow

theorem later_failed (error : PersistedTaskError) (failedAt : Timestamp)
    (row : PersistedMailboxDelivery) (h : row.status.open? = true) :
    row.Later { row with status := .failed, lastError := some error, updatedAt := failedAt } := by
  refine ⟨rfl, rfl, rfl, rfl, rfl, ?_⟩
  cases hs : row.status with
  | pending => exact .failPending
  | injected => exact .failInjected
  | acknowledged | failed => simp [MailboxDeliveryStatus.open?, hs] at h

theorem later_attempted (error : Option PersistedTaskError) (attemptedAt : Timestamp)
    (row : PersistedMailboxDelivery) (_ : row.status.open? = true) :
    row.Later
      { row with retryCount := row.retryCount + 1, lastError := error, updatedAt := attemptedAt } :=
  ⟨rfl, rfl, rfl, rfl, rfl, .stay _⟩

/-! ### Acknowledging -/

theorem acknowledgeInjected_ok (hd : Rows.Distinct PersistedMailboxDelivery.deliveryId s.deliveries)
    (hrow : s.delivery? deliveryId = some row) (hpending : row.status ≠ .pending)
    (hfailed : row.status ≠ .failed)
    (h : acknowledgeInjected (readMailboxDelivery row) acknowledgedAt s = (.ok u, t)) :
    ∃ f, Updates s deliveryId f ∧ (f row).status = .acknowledged ∧
      t = s.updateDelivery deliveryId f := by
  rcases branch_eq.mp h with ⟨hinjected, h⟩ | ⟨hnot, h⟩
  · have hinjected : row.status = .injected := hinjected
    have hkey : row.deliveryId = deliveryId := Rows.lookup_key hrow
    refine ⟨acknowledgeRow acknowledgedAt, .of_row hd hrow (fun _ => rfl) ?_, rfl, ?_⟩
    · exact ⟨rfl, rfl, rfl, rfl, rfl, by rw [hinjected]; exact .acknowledge⟩
    · have hwrite := write_ok.mp h
      cases hwrite
      rw [show (readMailboxDelivery row).deliveryId = deliveryId from hkey]
      rfl
  · have hnot : row.status ≠ .injected := hnot
    refine ⟨id, .of_later .refl, ?_, ?_⟩
    · cases hs : row.status with
      | acknowledged => exact hs
      | pending => exact absurd hs hpending
      | injected => exact absurd hs hnot
      | failed => exact absurd hs hfailed
    · rw [updateDelivery_id]
      exact (done_eq.mp h).2

theorem acknowledgeMailboxDelivery_effect
    (hd : Rows.Distinct PersistedMailboxDelivery.deliveryId s.deliveries)
    (h : acknowledgeMailboxDelivery deliveryId recipientRoleId acknowledgedAt s =
      (.ok delivery, t)) : MailboxEffect s t := by
  simp only [acknowledgeMailboxDelivery, transaction_ok, chain_ok, requireDeliveryRow_ok, check_ok,
    ensure_eq_ok] at h
  obtain ⟨_, _, ⟨⟨row, hrow, rfl⟩, rfl⟩, _, _, ⟨_, rfl⟩, _, _, ⟨hpending, rfl⟩, _, _,
    ⟨hfailed, rfl⟩, _, _, hack, _, rfl⟩ := h
  obtain ⟨f, hf, _, rfl⟩ := acknowledgeInjected_ok hd hrow hpending hfailed hack
  exact .updated hf

/-! ### Posting -/

theorem posted_of_writes {u : MailboxTables} {a b : PUnit}
    (hvalid : validateMailboxWrite message [delivery] = .ok a)
    (hmessage : writeMailboxMessage message s = (.ok b, u)) {c : PUnit}
    (hdelivery : writeMailboxDelivery delivery u = (.ok c, t)) :
    Posted s message delivery ∧ t = s.post message delivery := by
  simp only [writeMailboxMessage, write_ok, insertMessage, bind_eq_ok, ensure_eq_ok,
    pure_eq_ok] at hmessage
  obtain ⟨_, hfits, rfl⟩ := hmessage
  simp only [writeMailboxDelivery, write_ok, insertDelivery, bind_eq_ok, ensure_eq_ok,
    pure_eq_ok] at hdelivery
  obtain ⟨_, hfresh, rfl⟩ := hdelivery
  simp only [validateMailboxWrite, bind_eq_ok, ensure_eq_ok, forM_eq_ok, List.mem_singleton,
    forall_eq] at hvalid
  obtain ⟨_, _, _, _, _, _, _, hid, _, ⟨htask, hworkspace⟩, _⟩ := hvalid
  exact ⟨⟨hfits, hfresh.1, hid, htask, hworkspace⟩, rfl⟩

theorem saveMailboxMessage_effect (hno : message.replyToMessageId = none)
    (h : saveMailboxMessage message delivery s = (.ok u, t)) : MailboxEffect s t := by
  simp only [saveMailboxMessage, chain_ok, check_ok, transaction_ok] at h
  obtain ⟨_, _, ⟨hvalid, rfl⟩, _, _, hmessage, hdelivery⟩ := h
  obtain ⟨hposted, rfl⟩ := posted_of_writes hvalid hmessage hdelivery
  exact .sent hposted hno

theorem sendMailbox_effect {result : MailboxSendResult}
    (h : sendMailbox env input s = (.ok result, t)) : MailboxEffect s t := by
  simp only [sendMailbox, chain_ok, read_eq] at h
  obtain ⟨normalized, _, ⟨_, rfl⟩, existing, _, ⟨_, rfl⟩, h⟩ := h
  cases existing with
  | some existing =>
      simp only [chain_ok, check_ok, done_eq] at h
      obtain ⟨_, _, ⟨_, rfl⟩, _, rfl⟩ := h
      exact .same
  | none =>
      simp only [chain_ok, read_eq, done_eq] at h
      obtain ⟨_, _, ⟨_, rfl⟩, _, _, hsave, _, rfl⟩ := h
      exact saveMailboxMessage_effect rfl hsave

theorem saveMailboxMessage_atomic : AtomicAt s (saveMailboxMessage message delivery) :=
  atomicAt_check fun _ => atomicAt_transaction s _

theorem atomicAt_saved {β : Type} {x : MailboxStatement α} {f : α → β} (h : AtomicAt s x) :
    AtomicAt s (x >>= fun a => pure (f a)) := by
  intro e t hchain
  rcases chain_eq.mp hchain with ⟨a, u, _, hdone⟩ | ⟨e', hx, _⟩
  · cases (done_eq.mp hdone).1
  · exact h e' t hx

theorem sendMailbox_atomic (input : MailboxSendInput) : AtomicAt s (sendMailbox env input) := by
  refine atomicAt_chain fun normalized _ => atomicAt_chain fun existing _ => ?_
  cases existing with
  | some existing => exact atomicAt_check fun _ => atomicAt_done s _
  | none => exact atomicAt_chain fun delivery _ => atomicAt_saved saveMailboxMessage_atomic

theorem requireDelivery_ok {envelope : PersistedMailboxEnvelope}
    (h : requireDelivery deliveryId s = (.ok envelope, t)) :
    t = s ∧ ∃ row message, s.delivery? deliveryId = some row ∧
      s.message? row.messageId = some message ∧
      envelope = { message := readMailboxMessage message, delivery := readMailboxDelivery row } := by
  simp only [requireDelivery, read_eq, bind_eq_ok, orThrow_eq_ok] at h
  obtain ⟨⟨found, hfound, rfl⟩, rfl⟩ := h
  refine ⟨rfl, ?_⟩
  unfold getMailboxEnvelope at hfound
  split at hfound
  · cases hfound
  · obtain ⟨read, hread, hsome⟩ := mapped_eq_ok.mp hfound
    cases hsome
    simp only [readMailboxEnvelope, requireMailboxDelivery, bind_eq_ok, orThrow_eq_ok,
      pure_eq_ok] at hread
    obtain ⟨_, ⟨row, hrow, rfl⟩, message, hmessage, rfl⟩ := hread
    exact ⟨row, message, hrow, hmessage, rfl⟩

theorem ackDelivery_effect (hd : Rows.Distinct PersistedMailboxDelivery.deliveryId s.deliveries)
    (h : ackDelivery env deliveryId recipientRoleId s = (.ok delivery, t)) : MailboxEffect s t := by
  simp only [ackDelivery, chain_ok, check_ok] at h
  obtain ⟨envelope, _, hread, _, _, ⟨_, rfl⟩, _, _, ⟨_, rfl⟩, hack⟩ := h
  obtain ⟨rfl, _⟩ := requireDelivery_ok hread
  exact acknowledgeMailboxDelivery_effect hd hack

theorem prepareSend_ok {normalized : RequiredMailboxSendInput}
    (h : prepareSend env input = .ok normalized) :
    normalized.taskId = input.taskId ∧ normalized.workspacePath = input.workspacePath ∧
      normalized.threadId = input.threadId ∧ normalized.fromRoleId = input.fromRoleId ∧
      normalized.toRoleId = input.toRoleId := by
  simp only [prepareSend, normalizeSendInput, bind_eq_ok, pure_eq_ok] at h
  obtain ⟨_, ⟨_, _, _, _, rfl⟩, _, _, rfl⟩ := h
  exact ⟨rfl, rfl, rfl, rfl, rfl⟩

theorem createDelivery_ok {messageId : String} {input : RequiredMailboxSendInput}
    {createdAt : Timestamp} (h : createDelivery env messageId input createdAt = .ok delivery) :
    delivery.recipientRoleId = input.toRoleId := by
  simp only [createDelivery, bind_eq_ok, pure_eq_ok] at h
  obtain ⟨_, _, rfl⟩ := h
  rfl

theorem replyMailbox_effect {input : MailboxReplyInput} {result : MailboxReplyResult}
    (hd : Rows.Distinct PersistedMailboxDelivery.deliveryId s.deliveries)
    (h : replyMailbox env input s = (.ok result, t)) : MailboxEffect s t := by
  simp only [replyMailbox, chain_ok, check_ok, read_eq] at h
  obtain ⟨envelope, _, hread, _, _, ⟨hrecipient, rfl⟩, normalized, _, ⟨hprepare, rfl⟩, existing, _,
    ⟨_, rfl⟩, h⟩ := h
  obtain ⟨rfl, row, source, hrow, hsource, rfl⟩ := requireDelivery_ok hread
  cases existing with
  | some existing =>
      simp only [chain_ok, check_ok, done_eq] at h
      obtain ⟨_, _, ⟨_, rfl⟩, _, _, ⟨_, rfl⟩, _, rfl⟩ := h
      exact .same
  | none =>
      simp only [chain_ok, check_ok, read_eq, done_eq, saveMailboxReply, transaction_ok,
        requireDeliveryRow_ok, ensure_eq_ok] at h
      obtain ⟨_, _, ⟨_, rfl⟩, delivery, _, ⟨hdelivery, rfl⟩, _, _, hsave, _, rfl⟩ := h
      obtain ⟨_, _, ⟨hvalid, rfl⟩, _, _, ⟨⟨found, hfound, rfl⟩, rfl⟩, _, _, ⟨_, rfl⟩, _, _,
        ⟨hpending, rfl⟩, _, _, ⟨hfailed, rfl⟩, _, _, ⟨hreply, rfl⟩, _, _, hack, _, _, hmessage, _, _,
        hwritten, _, rfl⟩ := hsave
      obtain rfl := Option.some.inj (hrow.symm.trans hfound)
      have hkey : row.deliveryId = input.sourceDeliveryId := Rows.lookup_key hrow
      obtain ⟨f, hf, hacknowledged, rfl⟩ := acknowledgeInjected_ok hd hrow hpending hfailed hack
      obtain ⟨hposted, rfl⟩ := posted_of_writes hvalid hmessage hwritten
      rw [← hkey] at hf hposted ⊢
      obtain ⟨htask, hworkspace, hthread, hfrom, hto⟩ := prepareSend_ok hprepare
      have hsender : row.recipientRoleId = input.fromRoleId :=
        ensure_eq_ok.mp hrecipient
      refine .replied (hkey ▸ hrow) hf hacknowledged hsource ?_ hreply hposted
      exact
        { sender := hfrom.trans hsender.symm
          recipient := (createDelivery_ok hdelivery).trans hto
          taskId := htask
          workspacePath := hworkspace
          threadId := hthread }

theorem replyMailbox_atomic (input : MailboxReplyInput) : AtomicAt s (replyMailbox env input) := by
  refine atomicAt_chain fun source _ => atomicAt_check fun _ => ?_
  refine atomicAt_chain fun normalized _ => atomicAt_chain fun existing _ => ?_
  cases existing with
  | some existing => exact atomicAt_check fun _ => atomicAt_check fun _ => atomicAt_done s _
  | none =>
      refine atomicAt_check fun _ => atomicAt_chain fun delivery _ => atomicAt_saved ?_
      exact atomicAt_check fun _ => atomicAt_transaction s _

theorem MailboxCall.effect {call : MailboxCall}
    (hd : Rows.Distinct PersistedMailboxDelivery.deliveryId s.deliveries)
    (h : call.exec env s = (.ok u, t)) : MailboxEffect s t := by
  cases call with
  | send input =>
      obtain ⟨result, h⟩ := forget_ok h
      exact sendMailbox_effect h
  | reply input =>
      obtain ⟨result, h⟩ := forget_ok h
      exact replyMailbox_effect hd h
  | markInjected deliveryId recipientRoleId recipientSessionId =>
      obtain ⟨delivery, h⟩ := forget_ok h
      simp only [Newide.markInjected, chain_ok, check_ok] at h
      obtain ⟨_, _, ⟨_, rfl⟩, _, _, ⟨_, rfl⟩, hmark⟩ := h
      exact markMailboxDeliveryInjected_effect hmark
  | ack deliveryId recipientRoleId =>
      obtain ⟨delivery, h⟩ := forget_ok h
      exact ackDelivery_effect hd h
  | markFailed deliveryId error =>
      obtain ⟨delivery, h⟩ := forget_ok h
      exact updateOpenDelivery_effect (later_failed error env.now) h
  | recordDeliveryAttempt deliveryId error =>
      obtain ⟨delivery, h⟩ := forget_ok h
      exact updateOpenDelivery_effect (later_attempted error env.now) h

theorem MailboxCall.atomic (call : MailboxCall) : AtomicAt s (call.exec env) := by
  cases call with
  | send input => exact atomicAt_forget (sendMailbox_atomic input)
  | reply input => exact atomicAt_forget (replyMailbox_atomic input)
  | markInjected deliveryId recipientRoleId recipientSessionId =>
      exact atomicAt_forget (atomicAt_check fun _ => atomicAt_check fun _ =>
        markMailboxDeliveryInjected_atomic recipientRoleId recipientSessionId env.now)
  | ack deliveryId recipientRoleId =>
      exact atomicAt_forget (atomicAt_chain fun envelope _ => atomicAt_check fun _ =>
        atomicAt_check fun _ => atomicAt_transaction s _)
  | markFailed deliveryId error =>
      exact atomicAt_forget (updateOpenDelivery_atomic (later_failed error env.now))
  | recordDeliveryAttempt deliveryId error =>
      exact atomicAt_forget (updateOpenDelivery_atomic (later_attempted error env.now))

end

/-! ## The invariant of the tables -/

/-- A reply to `source`, as far as the tables show it. -/
structure RepliedTo (s : MailboxTables) (source reply : PersistedMailboxMessage) : Prop where
  /-- The delivery of the source is acknowledged, and the reply comes from its recipient. -/
  acknowledged : ∀ delivery ∈ s.deliveries, delivery.messageId = source.messageId →
    delivery.status = .acknowledged ∧ reply.fromRoleId = delivery.recipientRoleId
  /-- The reply goes to the sender of the source. -/
  delivered : ∀ delivery ∈ s.deliveries, delivery.messageId = reply.messageId →
    delivery.recipientRoleId = source.fromRoleId
  taskId : reply.taskId = source.taskId
  workspacePath : reply.workspacePath = source.workspacePath
  threadId : reply.threadId = source.threadId

structure MailboxTables.Kept (s : MailboxTables) : Prop where
  messageIds : Rows.Distinct PersistedMailboxMessage.messageId s.messages
  deliveryIds : Rows.Distinct PersistedMailboxDelivery.deliveryId s.deliveries
  /-- Every message has a delivery, and only one. -/
  delivered : ∀ message ∈ s.messages, ∃ delivery ∈ s.deliveries,
    delivery.messageId = message.messageId
  oneDelivery : ∀ a ∈ s.deliveries, ∀ b ∈ s.deliveries, a.messageId = b.messageId → a = b
  sent : ∀ delivery ∈ s.deliveries, ∃ message ∈ s.messages,
    message.messageId = delivery.messageId
  oneReply : ∀ a ∈ s.messages, ∀ b ∈ s.messages, ∀ source,
    a.replyToMessageId = some source → b.replyToMessageId = some source → a = b
  replied : ∀ reply ∈ s.messages, ∀ sourceId, reply.replyToMessageId = some sourceId →
    ∃ source ∈ s.messages, source.messageId = sourceId ∧ RepliedTo s source reply

section
variable {s t : MailboxTables} {deliveryId : String} {message : PersistedMailboxMessage}
  {delivery : PersistedMailboxDelivery}
  {f : PersistedMailboxDelivery → PersistedMailboxDelivery}

theorem MailboxTables.Kept.empty : MailboxTables.Kept {} where
  messageIds := .nil
  deliveryIds := .nil
  delivered message h := by cases h
  oneDelivery a h := by cases h
  sent delivery h := by cases h
  oneReply a h := by cases h
  replied reply h := by cases h

theorem mem_updateDelivery (hf : Updates s deliveryId f) {new : PersistedMailboxDelivery}
    (h : new ∈ (s.updateDelivery deliveryId f).deliveries) :
    ∃ old ∈ s.deliveries, old.Later new ∧
      new = if old.deliveryId = deliveryId then f old else old := by
  obtain ⟨old, hold, rfl⟩ := List.mem_map.mp h
  refine ⟨old, hold, ?_, rfl⟩
  split
  · next hid => exact hf.later old hold hid
  · exact .refl old

theorem updateDelivery_mem (hf : Updates s deliveryId f) (h : old ∈ s.deliveries) :
    ∃ new ∈ (s.updateDelivery deliveryId f).deliveries, old.Later new := by
  refine ⟨_, List.mem_map_of_mem h, ?_⟩
  split
  · next hid => exact hf.later old h hid
  · exact .refl old

theorem MailboxDeliveryStatus.Moves.acknowledged {new : MailboxDeliveryStatus}
    (h : MailboxDeliveryStatus.acknowledged.Moves new) : new = .acknowledged := by
  cases h
  rfl

theorem MailboxTables.Kept.update (h : s.Kept) (hf : Updates s deliveryId f) :
    (s.updateDelivery deliveryId f).Kept where
  messageIds := h.messageIds
  deliveryIds := h.deliveryIds.update hf.key
  delivered message hmessage := by
    obtain ⟨old, hold, hid⟩ := h.delivered message hmessage
    obtain ⟨new, hnew, hlater⟩ := updateDelivery_mem hf hold
    exact ⟨new, hnew, hlater.messageId.trans hid⟩
  oneDelivery a ha b hb hab := by
    obtain ⟨a', ha', hla, rfl⟩ := mem_updateDelivery hf ha
    obtain ⟨b', hb', hlb, rfl⟩ := mem_updateDelivery hf hb
    obtain rfl := h.oneDelivery a' ha' b' hb' (hla.messageId.symm.trans (hab.trans hlb.messageId))
    rfl
  sent delivery hdelivery := by
    obtain ⟨old, hold, hlater, _⟩ := mem_updateDelivery hf hdelivery
    obtain ⟨message, hmessage, hid⟩ := h.sent old hold
    exact ⟨message, hmessage, hid.trans hlater.messageId.symm⟩
  oneReply := h.oneReply
  replied reply hreply sourceId hsourceId := by
    obtain ⟨source, hsource, hid, hrep⟩ := h.replied reply hreply sourceId hsourceId
    refine ⟨source, hsource, hid, ?_⟩
    exact
      { acknowledged := fun delivery hdelivery hmid => by
          obtain ⟨old, hold, hlater, _⟩ := mem_updateDelivery hf hdelivery
          obtain ⟨hack, hfrom⟩ := hrep.acknowledged old hold (hlater.messageId.symm.trans hmid)
          have hmoves := hlater.moves
          rw [hack] at hmoves
          exact ⟨hmoves.acknowledged, hfrom.trans hlater.recipientRoleId.symm⟩
        delivered := fun delivery hdelivery hmid => by
          obtain ⟨old, hold, hlater, _⟩ := mem_updateDelivery hf hdelivery
          exact hlater.recipientRoleId.trans
            (hrep.delivered old hold (hlater.messageId.symm.trans hmid))
        taskId := hrep.taskId
        workspacePath := hrep.workspacePath
        threadId := hrep.threadId }

/-- A new message keeps it, given that a reply answers its source. -/
theorem MailboxTables.Kept.post (h : s.Kept) (hposted : Posted s message delivery)
    (hreply : ∀ sourceId, message.replyToMessageId = some sourceId →
      ∃ source ∈ s.messages, source.messageId = sourceId ∧
        ∃ row ∈ s.deliveries, row.messageId = sourceId ∧ row.status = .acknowledged ∧
          Answers source row message delivery) : (s.post message delivery).Kept := by
  obtain ⟨⟨hnew, _, hfirst⟩, hfresh, hmid, htask, hworkspace⟩ := hposted
  have hunused : ∀ old ∈ s.deliveries, old.messageId ≠ message.messageId := by
    intro old hold hid
    obtain ⟨sender, hsender, hsid⟩ := h.sent old hold
    exact hnew sender hsender (hsid.trans hid)
  refine
    { messageIds := h.messageIds.append_new hnew
      deliveryIds := h.deliveryIds.append_new hfresh
      delivered := ?_
      oneDelivery := ?_
      sent := ?_
      oneReply := ?_
      replied := ?_ }
  · intro m hm
    rcases List.mem_append.mp hm with hm | hm
    · obtain ⟨d, hd, hid⟩ := h.delivered m hm
      exact ⟨d, List.mem_append_left _ hd, hid⟩
    · obtain rfl := List.mem_singleton.mp hm
      exact ⟨delivery, List.mem_append_right _ (List.mem_singleton_self _), hmid⟩
  · intro a ha b hb hab
    rcases List.mem_append.mp ha with hold | ha
    · rcases List.mem_append.mp hb with hb | hb
      · exact h.oneDelivery a hold b hb hab
      · obtain rfl := List.mem_singleton.mp hb
        exact absurd (hab.trans hmid) (hunused a hold)
    · obtain rfl := List.mem_singleton.mp ha
      rcases List.mem_append.mp hb with hb | hb
      · exact absurd (hab.symm.trans hmid) (hunused b hb)
      · exact (List.mem_singleton.mp hb).symm
  · intro d hd
    rcases List.mem_append.mp hd with hd | hd
    · obtain ⟨m, hm, hid⟩ := h.sent d hd
      exact ⟨m, List.mem_append_left _ hm, hid⟩
    · obtain rfl := List.mem_singleton.mp hd
      exact ⟨message, List.mem_append_right _ (List.mem_singleton_self _), hmid.symm⟩
  · intro a ha b hb source hsa hsb
    rcases List.mem_append.mp ha with hold | ha
    · rcases List.mem_append.mp hb with hb | hb
      · exact h.oneReply a hold b hb source hsa hsb
      · obtain rfl := List.mem_singleton.mp hb
        exact absurd hsa ((hfirst source hsb).2 a hold)
    · obtain rfl := List.mem_singleton.mp ha
      rcases List.mem_append.mp hb with hb | hb
      · exact absurd hsb ((hfirst source hsa).2 b hb)
      · exact (List.mem_singleton.mp hb).symm
  · intro reply hreplyMem sourceId hsourceId
    rcases List.mem_append.mp hreplyMem with hold | hlast
    · obtain ⟨source, hsource, hid, hrep⟩ := h.replied reply hold sourceId hsourceId
      refine ⟨source, List.mem_append_left _ hsource, hid, ?_⟩
      exact
        { acknowledged := fun d hd hdid => by
            rcases List.mem_append.mp hd with hd | hd
            · exact hrep.acknowledged d hd hdid
            · obtain rfl := List.mem_singleton.mp hd
              exact absurd (hdid.symm.trans hmid) (hnew source hsource)
          delivered := fun d hd hdid => by
            rcases List.mem_append.mp hd with hd | hd
            · exact hrep.delivered d hd hdid
            · obtain rfl := List.mem_singleton.mp hd
              exact absurd (hdid.symm.trans hmid) (hnew reply hold)
          taskId := hrep.taskId
          workspacePath := hrep.workspacePath
          threadId := hrep.threadId }
    · obtain rfl := List.mem_singleton.mp hlast
      obtain ⟨source, hsource, hid, row, hrow, hrowId, hstatus, hanswers⟩ := hreply sourceId hsourceId
      refine ⟨source, List.mem_append_left _ hsource, hid, ?_⟩
      exact
        { acknowledged := fun d hd hdid => by
            rcases List.mem_append.mp hd with hd | hd
            · obtain rfl := h.oneDelivery d hd row hrow (hdid.trans (hid.trans hrowId.symm))
              exact ⟨hstatus, hanswers.sender⟩
            · obtain rfl := List.mem_singleton.mp hd
              exact absurd (hdid.symm.trans hmid) (hnew source hsource)
          delivered := fun d hd hdid => by
            rcases List.mem_append.mp hd with hd | hd
            · exact absurd hdid (hunused d hd)
            · obtain rfl := List.mem_singleton.mp hd
              exact hanswers.recipient
          taskId := hanswers.taskId
          workspacePath := hanswers.workspacePath
          threadId := hanswers.threadId }

theorem MailboxEffect.kept (he : MailboxEffect s t) (h : s.Kept) : t.Kept := by
  cases he with
  | updated hf => exact h.update hf
  | sent hposted hno => exact h.post hposted fun sourceId hsource => by simp [hno] at hsource
  | @replied row source _ _ f hrow hf hacknowledged hsource hanswers hreply hposted =>
      refine (h.update hf).post hposted fun sourceId hsourceId => ?_
      obtain rfl := Option.some.inj (hreply.symm.trans hsourceId)
      have hmem := Rows.lookup_mem hrow
      have hlater := hf.later row hmem rfl
      refine ⟨source, Rows.lookup_mem hsource, Rows.lookup_key hsource, f row, ?_,
        hlater.messageId, hacknowledged, ?_⟩
      · exact List.mem_map.mpr ⟨row, hmem, if_pos rfl⟩
      · exact { hanswers with sender := hanswers.sender.trans hlater.recipientRoleId.symm }

theorem MailboxEffect.later (he : MailboxEffect s t) (hold : old ∈ s.deliveries) :
    ∃ new ∈ t.deliveries, old.Later new := by
  cases he with
  | updated hf => exact updateDelivery_mem hf hold
  | sent => exact ⟨old, List.mem_append_left _ hold, .refl old⟩
  | replied hrow hf =>
      obtain ⟨new, hnew, hlater⟩ := updateDelivery_mem hf hold
      exact ⟨new, List.mem_append_left _ hnew, hlater⟩

end

/-! ## Whole runs -/

structure MailboxStep where
  env : MailboxEnv
  call : MailboxCall

/-- The tables after a call, however it ended. -/
def MailboxTables.step (s : MailboxTables) (step : MailboxStep) : MailboxTables :=
  (step.call.exec step.env s).2

theorem MailboxTables.Kept.step {s : MailboxTables} (h : s.Kept) (step : MailboxStep) :
    (s.step step).Kept := by
  unfold MailboxTables.step
  rcases hexec : step.call.exec step.env s with ⟨_ | ⟨⟩, t⟩
  · obtain rfl := step.call.atomic _ t hexec
    exact h
  · exact (step.call.effect h.deliveryIds hexec).kept h

/-- What one call does: nothing when it throws, and otherwise every delivery it finds moves on
as it may. -/
structure CallSafe (s : MailboxTables) (step : MailboxStep) : Prop where
  atomic : ∀ error, (step.call.exec step.env s).1 = .error error → s.step step = s
  moves : ∀ old ∈ s.deliveries, ∃ new ∈ (s.step step).deliveries, old.Later new

theorem MailboxTables.Kept.callSafe {s : MailboxTables} (h : s.Kept) (step : MailboxStep) :
    CallSafe s step := by
  rcases hexec : step.call.exec step.env s with ⟨error | ⟨⟩, t⟩
  · obtain rfl := step.call.atomic _ t hexec
    have hsame : t.step step = t := by simp [MailboxTables.step, hexec]
    exact ⟨fun _ _ => hsame, fun old hold => ⟨old, by rwa [hsame], .refl old⟩⟩
  · have hstep : s.step step = t := by simp [MailboxTables.step, hexec]
    refine ⟨fun error herror => ?_, fun old hold => ?_⟩
    · rw [hexec] at herror
      cases herror
    · rw [hstep]
      exact (step.call.effect h.deliveryIds hexec).later hold

/-- After any sequence of calls a message has at most one delivery and one reply; once it has
a reply its delivery is acknowledged and the reply answers it; and every further call moves
deliveries on as it may, or throws and changes nothing. -/
theorem mailbox_replies_safe (steps : List MailboxStep) :
    let s := steps.foldl MailboxTables.step {}
    s.Kept ∧ ∀ step, CallSafe s step := by
  intro s
  have hkept : s.Kept := by
    induction steps using List.reverseRecOn with
    | nil => exact .empty
    | append_singleton steps step ih =>
        simp only [s, List.foldl_append, List.foldl_cons, List.foldl_nil]
        exact ih.step step
  exact ⟨hkept, hkept.callSafe⟩

end Newide
