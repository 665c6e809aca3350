import Newide.AcceptanceWindow
import Newide.Mailbox

/-!
# Replies to a mailbox wait

`continueMailboxWait` of `src/app/newide-backend-service.ts` carries a
saved mailbox reply through the AAP bridge before it continues the Task.
It may be run again, after a crash and at any later time, so a run here
is any sequence of attempts, each stopped after any of its transactions.
-/

namespace Newide

open Fallible Transaction Delivery Aap ProtocolDelivery AapReplyFrame

/-! ## The attempt -/

structure TextOptions where
  /-- `text.trim()` -/
  trim : String → String
  /-- `JSON.stringify(payload)` -/
  stringify : Payload → String

def messageText (text : TextOptions) (message : PersistedMailboxMessage) : String :=
  match (message.content.map text.trim).filter (· ≠ "") with
  | some content => content
  | none =>
      match message.payload.get? "content" with
      | some (.str content) => content
      | _ => text.stringify message.payload

/-- A mailbox request with a deadline, the Run that waits on it and its reply, saved in time.  The
request passed `validateSend`. -/
structure AnsweredWait (text : TextOptions) where
  runId : String
  source : PersistedMailboxEnvelope
  reply : PersistedMailboxEnvelope
  deadlineAt : Timestamp
  deadline_eq : source.delivery.deadlineAt = some deadlineAt
  onTime : reply.message.createdAt ≤ deadlineAt
  run_ne : runId ≠ ""
  task_ne : source.message.taskId ≠ ""
  sender_ne : source.message.fromRoleId ≠ ""
  recipient_ne : source.delivery.recipientRoleId ≠ ""
  text_ne : messageText text source.message ≠ ""

/-- The transactions an attempt makes before the process stops. -/
inductive Reached where
  | persistAsk | beginAsk | acceptReply
deriving DecidableEq

/-- An attempt: the clock readings of `createAsk`, `beginAsk` and `createReply`. -/
structure WaitAttempt where
  asked : Timestamp
  begun : Timestamp
  replied : Timestamp
  reached : Reached := .acceptReply

/-- How an attempt ends: the Task is continued with the reply, `expireMailboxWait` fails it, or the
error goes to `blockMailboxDeadlock`. -/
inductive WaitOutcome where
  | stopped | continued | expired
  | threw (error : Thrown)
deriving DecidableEq

namespace AnsweredWait

variable {text : TextOptions} (wait : AnsweredWait text)

def askId : String := "aap_ask_" ++ wait.source.message.messageId

def replyId : String := "aap_reply_" ++ wait.reply.message.messageId

def askInput : AapAskInput where
  taskId := wait.source.message.taskId
  runId := wait.runId
  fromRoleId := wait.source.message.fromRoleId
  toRoleId := wait.source.delivery.recipientRoleId
  messageId := wait.source.message.messageId
  deliveryId := wait.source.delivery.deliveryId
  content := messageText text wait.source.message
  deadlineAt := wait.source.delivery.deadlineAt
  exchangeId := wait.askId

def replyInput (ask : AapAskFrame) : Aap.ReplyInput where
  ask
  status := .completed
  summary := messageText text wait.reply.message
  exchangeId := wait.replyId

def answer (options : AapOptions) (ask : AapAskFrame) (admission : AapAskAdmission)
    (replied : Timestamp) (d : ProtocolDelivery) : WaitOutcome × ProtocolDelivery :=
  match createReply replied (wait.replyInput ask) with
  | .error e => (.threw e, d)
  | .ok reply =>
      match acceptReply options admission reply d with
      | .error e => (.threw e, d)
      | .ok (.late, d') => (.expired, d')
      | .ok (_, d') => (.continued, d')

/-- What `continueMailboxWait` does with a reply that is there. -/
def attempt (options : AapOptions) (a : WaitAttempt) (d : ProtocolDelivery) :
    WaitOutcome × ProtocolDelivery :=
  match createAsk options a.asked wait.askInput with
  | .error e => (.threw e, d)
  | .ok dispatch =>
      match Aap.persistAsk dispatch d with
      | .error e => (.threw e, d)
      | .ok (_, d₁) =>
          if a.reached = .persistAsk then (.stopped, d₁)
          else
            match Aap.beginAsk options a.begun dispatch d₁ with
            | .error e => (.threw e, d₁)
            | .ok (admission, d₂) =>
                if a.reached = .beginAsk then (.stopped, d₂)
                else wait.answer options dispatch.frame admission a.replied d₂

/-! ## The frames of the wait -/

def askFrame (asked : Timestamp) : AapAskFrame where
  exchangeId := wait.askId
  causationId := none
  taskId := wait.source.message.taskId
  runId := wait.runId
  producerRoleId := some wait.source.message.fromRoleId
  consumerRoleId := some wait.source.delivery.recipientRoleId
  createdAt := asked
  deadlineAt := wait.deadlineAt
  instruction := { text := messageText text wait.source.message }

def ask (asked : Timestamp) : AapAskDispatch where
  outboxId := "outbox_" ++ wait.askId
  destination := wait.source.delivery.recipientRoleId
  messageId := wait.source.message.messageId
  deliveryId := wait.source.delivery.deliveryId
  frame := wait.askFrame asked

def replyFrame (replied : Timestamp) : AapReplyFrame where
  exchangeId := wait.replyId
  causationId := some wait.askId
  taskId := wait.source.message.taskId
  runId := wait.runId
  producerRoleId := some wait.source.delivery.recipientRoleId
  consumerRoleId := some wait.source.message.fromRoleId
  createdAt := replied
  deadlineAt := wait.deadlineAt
  status := .completed
  summary := messageText text wait.reply.message

def askKey : ProtocolInboxKey where
  consumerId := wait.source.delivery.recipientRoleId
  protocol := .agentAgent
  exchangeId := wait.askId

theorem askId_ne : wait.askId ≠ "" := by
  simp [askId]

theorem replyId_ne : wait.replyId ≠ "" := by
  simp [replyId]

theorem askId_ne_replyId : wait.askId ≠ wait.replyId := by
  intro h
  have hdata := congrArg String.toList h
  simp [askId, replyId] at hdata

theorem askFrame_valid (asked : Timestamp) : (wait.askFrame asked).toFrame.Valid := by
  refine ⟨wait.askId_ne, by simp [askFrame, AapAskFrame.toFrame], wait.task_ne, wait.run_ne, ?_, ?_,
    le_refl 1, ⟨rfl, rfl, rfl⟩, wait.text_ne⟩
  · simpa [askFrame, AapAskFrame.toFrame] using wait.sender_ne
  · simpa [askFrame, AapAskFrame.toFrame] using wait.recipient_ne

theorem replyFrame_valid (replied : Timestamp) : (wait.replyFrame replied).toFrame.Valid := by
  refine ⟨wait.replyId_ne, ?_, wait.task_ne, wait.run_ne, ?_, ?_, le_refl 1, ?_⟩
  · simpa [replyFrame, toFrame] using wait.askId_ne
  · simpa [replyFrame, toFrame] using wait.recipient_ne
  · simpa [replyFrame, toFrame] using wait.sender_ne
  · refine ⟨by simp [replyFrame], by simp [replyFrame], ⟨rfl, rfl, rfl⟩, by simp [replyFrame], ?_⟩
    intro _
    rfl

theorem createAsk_eq (options : AapOptions) (asked : Timestamp) :
    createAsk options asked wait.askInput = .ok (wait.ask asked) := by
  unfold createAsk
  have hdeadline : wait.askInput.deadlineAt.getD (options.deadlineAfter asked) =
      wait.deadlineAt := by
    simp [askInput, wait.deadline_eq]
  rw [hdeadline]
  exact bind_eq_ok.mpr ⟨_, parseProtocolFrame_eq_ok.mpr ⟨wait.askFrame_valid asked, rfl⟩, rfl⟩

theorem createReply_eq (asked replied : Timestamp) :
    createReply replied (wait.replyInput (wait.askFrame asked)) =
      .ok (wait.replyFrame replied) := by
  unfold createReply
  exact bind_eq_ok.mpr ⟨_, parseProtocolFrame_eq_ok.mpr ⟨wait.replyFrame_valid replied, rfl⟩, rfl⟩

end AnsweredWait

/-! ## What the bridge leaves alone -/

variable {entry : ProtocolJournalRecord} {asked expiry : Timestamp} {row : ProtocolOutboxRecord}

section
variable {d d' : ProtocolDelivery} {outboxId : String} {receipt : ProtocolFrame}

def Spares (outboxId : String) (receipt : ProtocolFrame) (d d' : ProtocolDelivery) : Prop :=
  ReceiptUnused outboxId receipt d → ReceiptUnused outboxId receipt d'

namespace Spares

theorem setOutbox {id : String} {columns : OutboxColumns} :
    Spares outboxId receipt d ((d.setOutbox id columns).log entry) := by
  intro h
  refine ⟨?_, ?_, h.inbox⟩
  · simp [h.outbox]
  · simp [h.exchange]

theorem setInbox {key : ProtocolInboxKey} {columns : InboxColumns} :
    Spares outboxId receipt d ((d.setInbox key columns).log entry) := by
  intro h
  refine ⟨h.outbox, h.exchange, ?_⟩
  simp [h.inbox]

theorem bridge : BridgeRelation (Spares outboxId receipt) where
  refl _ := id
  trans h h' hunused := h' (h hunused)
  claimOutbox := by
    intro id owner now expiry revision d out d' h
    obtain ⟨_, ⟨_, _, _, _, _, _, rfl⟩ | ⟨_, _, rfl⟩⟩ := claimOutbox_eq_ok.mp h
    · exact setOutbox
    · exact fun hunused => hunused
  markOutboxSent := by
    intro id owner revision ts d record d' h
    obtain ⟨_, _, ⟨_, _, rfl⟩ | ⟨_, hsent⟩⟩ := markOutboxSent_eq_ok.mp h
    · exact fun hunused => hunused
    · obtain ⟨_, _, _, _, rfl⟩ := updateClaimedOutbox_eq_ok.mp hsent
      exact setOutbox
  activateOutbox := by
    intro id revision ts d record d' h
    obtain ⟨_, _, _, _, rfl⟩ := activateOutbox_eq_ok.mp h
    exact setOutbox
  claimInbox := by
    intro key owner now expiry revision d out d' h
    obtain ⟨_, ⟨_, _, _, _, _, _, rfl⟩ | ⟨_, _, rfl⟩⟩ := claimInbox_eq_ok.mp h
    · exact setInbox
    · exact fun hunused => hunused
  settleInbox := by
    intro input hreply d record d' h
    obtain ⟨_, _, _, d₁, henqueue, _, rfl⟩ := completeInbox_eq_ok.mp h
    rcases enqueueReply_eq_ok.mp henqueue with ⟨_, rfl⟩ | ⟨reply, hsome, _⟩
    · exact setInbox
    · cases hreply.symm.trans hsome

theorem enqueueOutbox {input : EnqueueProtocolOutbox} (hid : outboxId ≠ input.id)
    (hexchange : (receipt.protocol, receipt.exchangeId) ≠
      (input.frame.protocol, input.frame.exchangeId)) :
    Keeps (Spares outboxId receipt) (Delivery.enqueueOutbox input) := by
  intro d record d' h hunused
  obtain ⟨_, _, hfree, hnone, rfl⟩ := enqueueOutbox_eq_ok.mp h
  refine ⟨?_, ?_, hunused.inbox⟩
  · rw [log_outboxRow, d.addOutbox_outboxRow _ _ hfree hnone]
    exact (if_neg hid).trans hunused.outbox
  · rw [log_exchangeRow, d.addOutbox_exchangeRow _ _ hfree hnone]
    exact (if_neg hexchange).trans hunused.exchange

theorem receiveInbox {consumerId : String} {frame : ProtocolFrame} {receivedAt : Timestamp}
    (hkey : systemKey receipt ≠ (receivedRow consumerId frame receivedAt).key) :
    Keeps (Spares outboxId receipt) (Delivery.receiveInbox consumerId frame receivedAt) := by
  intro d out d' h hunused
  rcases (receiveInbox_eq_ok.mp h).2 with ⟨hnone, _, hcomplete⟩ | ⟨_, _, _, _, rfl⟩
  · have hadded : ReceiptUnused outboxId receipt ((d.addInbox (receivedRow consumerId frame receivedAt)
        hnone).log ((receivedRow consumerId frame receivedAt).entry "inbox.received" consumerId
          receivedAt)) := by
      refine ⟨hunused.outbox, hunused.exchange, ?_⟩
      rw [log_inboxRow, d.addInbox_inboxRow _ _ hnone]
      exact (if_neg hkey).trans hunused.inbox
    rcases completeOriginal_cases hcomplete with rfl | ⟨_, _, _, _, rfl⟩
    · exact hadded
    · exact setOutbox hadded
  · exact hunused

end Spares

end

/-! ## The phases of a wait -/

namespace AnsweredWait

variable {text : TextOptions} (wait : AnsweredWait text) {options : AapOptions}
  {d d' : ProtocolDelivery} {now ts : Timestamp}

/-- The reply is not in the tables. -/
def ReplyUnused (d : ProtocolDelivery) : Prop :=
  ∀ replied, ReceiptUnused ("outbox_" ++ wait.replyId) (wait.replyFrame replied).toFrame d

/-- The outbox row of the ask, once it was persisted. -/
def AskStored (d : ProtocolDelivery) (row : ProtocolOutboxRecord) : Prop :=
  d.outboxRow ("outbox_" ++ wait.askId) = some row ∧ row.exchangeId = wait.askId ∧
    ¬ (row.status = .held ∧ row.activatedAt = none)

structure Undelivered (now : Timestamp) (d : ProtocolDelivery) : Prop where
  inbox : d.inboxRow wait.askKey = none
  outbox : (d.outboxRow ("outbox_" ++ wait.askId) = none ∧
      d.exchangeRow (.agentAgent, wait.askId) = none) ∨
    ∃ row, wait.AskStored d row ∧ ∀ later, now ≤ later → row.Claimable later
  unused : wait.ReplyUnused d

/-- The recipient has the ask under a lease until `expiry`, which may be over. -/
structure Leased (expiry : Timestamp) (d : ProtocolDelivery) : Prop where
  inbox : ∃ row, d.inboxRow wait.askKey = some row ∧ row.status = .processing ∧
    row.leaseOwner = some (Aap.leaseOwner (wait.ask expiry)) ∧ row.leaseExpiresAt = some expiry ∧
    ∃ asked, row.frame = (wait.askFrame asked).toFrame
  within : expiry ≤ wait.deadlineAt
  outbox : ∃ row, wait.AskStored d row
  unused : wait.ReplyUnused d

/-- The reply was accepted. -/
structure Answered (d : ProtocolDelivery) : Prop where
  settled : SettledBy wait.askKey wait.replyId d
  outbox : ∃ row, wait.AskStored d row

/-- Where a wait can be. -/
inductive Phase (now : Timestamp) (d : ProtocolDelivery) : Prop where
  | undelivered (h : wait.Undelivered now d)
  | leased (expiry : Timestamp) (h : wait.Leased expiry d)
  | answered (h : wait.Answered d)
  | late (hover : wait.deadlineAt < now) (hopen : ¬ SettledBy wait.askKey wait.replyId d)

/-! ### What every call keeps -/

variable {wait}

theorem Undelivered.mono (h : wait.Undelivered now d) (hle : now ≤ ts) :
    wait.Undelivered ts d := by
  refine ⟨h.inbox, h.outbox.imp_right ?_, h.unused⟩
  rintro ⟨row, hrow, hclaimable⟩
  exact ⟨row, hrow, fun later hlater => hclaimable later (hle.trans hlater)⟩

theorem Phase.mono (h : wait.Phase now d) (hle : now ≤ ts) : wait.Phase ts d := by
  cases h with
  | undelivered h => exact .undelivered (h.mono hle)
  | leased expiry h => exact .leased expiry h
  | answered h => exact .answered h
  | late hover hopen => exact .late (lt_of_lt_of_le hover hle) hopen

theorem AskStored.reaches (h : wait.AskStored d row) (hreach : Reaches d d') :
    ∃ row', wait.AskStored d' row' := by
  refine hreach.invariant (I := fun d => ∃ row, wait.AskStored d row) ⟨row, h⟩ fun d call _ hd => ?_
  obtain ⟨row, hrow, hexchange, hactive⟩ := hd
  have hmove := (Moves.serve d call).outbox ("outbox_" ++ wait.askId)
  rw [hrow] at hmove
  generalize hafter : (serve d call).outboxRow ("outbox_" ++ wait.askId) = after at hmove
  cases hmove with
  | stays => exact ⟨row, hafter, hexchange, hactive⟩
  | moves _ hcolumns =>
      refine ⟨_, hafter, hexchange, ?_⟩
      rintro ⟨hheld, hnone⟩
      cases hcolumns with
      | activate => cases hnone
      | claim => cases hheld
      | renew => exact hactive ⟨hheld, hnone⟩
      | release status _ hstatus =>
          obtain rfl : status = .held := hheld
          exact absurd hstatus (by decide)
  | settled =>
      refine ⟨_, hafter, hexchange, ?_⟩
      rintro ⟨hheld, _⟩
      cases hheld

theorem Undelivered.open (h : wait.Undelivered now d) :
    ¬ SettledBy wait.askKey wait.replyId d := by
  rintro ⟨row, hrow, _⟩
  rw [h.inbox] at hrow
  cases hrow

theorem Leased.open (h : wait.Leased expiry d) :
    ¬ SettledBy wait.askKey wait.replyId d := by
  rintro ⟨row, hrow, hcomplete, _⟩
  obtain ⟨row', hrow', hprocessing, _⟩ := h.inbox
  cases hrow.symm.trans hrow'
  cases hcomplete.symm.trans hprocessing

/-! ### Persisting the ask -/

theorem AskStored.persistAsk (h : wait.AskStored d row) (asked : Timestamp) :
    Aap.persistAsk (wait.ask asked) d = .ok (row.read, d) := by
  obtain ⟨hrow, hexchange, hactive⟩ := h
  have henqueue : enqueueAsk (wait.ask asked) d = .ok (row.read, d) := by
    unfold enqueueAsk
    refine chain_eq_ok.mpr ⟨some row.read, d, getOutbox_eq_ok.mpr ⟨by rw [ask, hrow]; rfl, rfl⟩, ?_⟩
    refine chain_eq_ok.mpr ⟨⟨⟩, d, lift_eq_ok.mpr ⟨ensure_eq_ok.mpr ?_, rfl⟩,
      done_eq_ok.mpr ⟨rfl, rfl⟩⟩
    exact row.read_exchangeId.trans hexchange
  unfold Aap.persistAsk
  refine chain_eq_ok.mpr ⟨row.read, d, henqueue, branch_eq_ok.mpr (.inr ⟨?_, ?_⟩)⟩
  · rw [row.read_columns]
    exact hactive
  · exact done_eq_ok.mpr ⟨rfl, rfl⟩

theorem persistAsk_new (hid : d.outboxRow ("outbox_" ++ wait.askId) = none)
    (hexchange : d.exchangeRow (.agentAgent, wait.askId) = none) :
    ∃ record d₁ row, Aap.persistAsk (wait.ask asked) d = .ok (record, d₁) ∧
      wait.AskStored d₁ row ∧ (∀ later, asked ≤ later → row.Claimable later) ∧
      ∀ key, d₁.inboxRow key = d.inboxRow key := by
  let input : EnqueueProtocolOutbox :=
    { id := (wait.ask asked).outboxId
      destination := (wait.ask asked).destination
      frame := (wait.ask asked).frame.toFrame
      held := true }
  have hne : (wait.ask asked).outboxId ≠ "" := by simp [ask]
  obtain ⟨d₀, henqueue, hrow₀, hinbox₀⟩ : ∃ d₀, enqueueOutbox input d = .ok (input.row, d₀) ∧
      d₀.outboxRow (wait.ask asked).outboxId = some input.row ∧
      ∀ key, d₀.inboxRow key = d.inboxRow key :=
    ⟨_, enqueueOutbox_eq_ok.mpr ⟨⟨wait.askFrame_valid asked, hne, wait.recipient_ne, rfl⟩, rfl, hid,
      hexchange, rfl⟩, (d.addOutbox_outboxRow input.id input.row hid hexchange).trans (if_pos rfl),
      fun _ => rfl⟩
  obtain ⟨d₁, hactivate, hrow₁, hinbox₁⟩ : ∃ d₁,
      activateOutbox input.row.id input.row.revision asked d₀ =
        .ok ((input.row.withColumns (input.row.activate asked)).read, d₁) ∧
      d₁.outboxRow input.id = some (input.row.withColumns (input.row.activate asked)) ∧
      ∀ key, d₁.inboxRow key = d₀.inboxRow key :=
    ⟨_, activateOutbox_eq_ok.mpr ⟨input.row, hrow₀, ⟨rfl, rfl, rfl⟩, rfl, rfl⟩, by
      simp [input, EnqueueProtocolOutbox.row, hrow₀], fun _ => rfl⟩
  have henqueueAsk : enqueueAsk (wait.ask asked) d = .ok (input.row, d₀) := by
    unfold enqueueAsk
    exact chain_eq_ok.mpr ⟨none, d, getOutbox_eq_ok.mpr ⟨by rw [ask, hid]; rfl, rfl⟩, henqueue⟩
  have hpersist : Aap.persistAsk (wait.ask asked) d =
      .ok ((input.row.withColumns (input.row.activate asked)).read, d₁) := by
    unfold Aap.persistAsk
    exact chain_eq_ok.mpr ⟨input.row, d₀, henqueueAsk,
      branch_eq_ok.mpr (.inl ⟨⟨rfl, rfl⟩, hactivate⟩)⟩
  have hactive : ¬ ((input.row.activate asked).status = .held ∧
      (input.row.activate asked).activatedAt = none) := by
    rintro ⟨_, hnone⟩
    cases hnone
  refine ⟨_, d₁, _, hpersist, ⟨hrow₁, rfl, hactive⟩, ?_,
    fun key => (hinbox₁ key).trans (hinbox₀ key)⟩
  intro later hle
  exact ⟨hle, .inr ⟨rfl, rfl⟩, .inl rfl⟩

theorem ReplyUnused.persistAsk {record : ProtocolOutboxRecord} (h : wait.ReplyUnused d)
    (hpersist : Aap.persistAsk (wait.ask asked) d = .ok (record, d')) :
    wait.ReplyUnused d' := by
  intro replied
  refine Spares.bridge.persistAsk (fun input hid hframe => ?_) _ _ _ hpersist (h replied)
  refine Spares.enqueueOutbox ?_ ?_
  · rw [hid]
    intro hsame
    exact wait.askId_ne_replyId (String.append_right_inj _ |>.mp hsame.symm)
  · rw [hframe]
    intro hsame
    exact wait.askId_ne_replyId (Prod.mk.inj hsame).2.symm

theorem Undelivered.persistAsk (h : wait.Undelivered now d) (hle : now ≤ asked) :
    ∃ record d₁ row, Aap.persistAsk (wait.ask asked) d = .ok (record, d₁) ∧
      wait.AskStored d₁ row ∧ (∀ later, asked ≤ later → row.Claimable later) ∧
      wait.Undelivered asked d₁ := by
  rcases h.outbox with ⟨hid, hexchange⟩ | ⟨row, hrow, hclaimable⟩
  · obtain ⟨record, d₁, row, hpersist, hrow, hclaimable, hinbox⟩ := persistAsk_new hid hexchange
    exact ⟨record, d₁, row, hpersist, hrow, hclaimable, (hinbox _).trans h.inbox,
      .inr ⟨row, hrow, hclaimable⟩, h.unused.persistAsk hpersist⟩
  · exact ⟨_, d, row, hrow.persistAsk asked, hrow,
      fun later hlater => hclaimable later (hle.trans hlater), h.mono hle⟩

/-! ### Beginning the ask -/

theorem beginAsk_window {dispatch : AapAskDispatch} {admission : AapAskAdmission}
    (h : Aap.beginAsk options now dispatch d = .ok (admission, d')) :
    now < Aap.leaseExpiresAt options now dispatch ∨
      (d.inboxRow dispatch.inboxKey = some admission.askInbox ∧
        admission.askInbox.status = .complete) := by
  unfold Aap.beginAsk at h
  obtain ⟨existing, _, hget, h⟩ := chain_eq_ok.mp h
  obtain ⟨hexisting, rfl⟩ := getInbox_eq_ok.mp hget
  obtain ⟨outbox, _, hrequire, h⟩ := chain_eq_ok.mp h
  obtain ⟨_, rfl⟩ := requireBridgeOutbox_eq_ok.mp hrequire
  cases existing with
  | none =>
      obtain ⟨_, _, hclaim, _⟩ := chain_eq_ok.mp h
      exact .inl (claimOutbox_eq_ok.mp hclaim).1.2
  | some existing =>
      rcases branch_eq_ok.mp h with ⟨hcomplete, h⟩ | ⟨_, h⟩
      · obtain ⟨rfl, _⟩ := done_eq_ok.mp h
        exact .inr ⟨hexisting, hcomplete⟩
      · obtain ⟨_, _, hclaim, _⟩ := chain_eq_ok.mp h
        exact .inl (claimInbox_eq_ok.mp hclaim).1.2

variable (wait) in
/-- The end of the lease an attempt works under: the one that runs, or the one it gets. -/
def leaseEnd (options : AapOptions) (begun : Timestamp) (d : ProtocolDelivery) : Timestamp :=
  (((d.inboxRow wait.askKey).bind (·.leaseExpiresAt)).filter (begun < ·)).getD
    (Aap.leaseExpiresAt options begun (wait.ask begun))

theorem Undelivered.leaseEnd_eq (h : wait.Undelivered now d) (begun : Timestamp) :
    wait.leaseEnd options begun d = Aap.leaseExpiresAt options begun (wait.ask begun) := by
  simp [leaseEnd, h.inbox]

theorem Leased.leaseEnd_eq (h : wait.Leased expiry d) (begun : Timestamp) :
    wait.leaseEnd options begun d =
      if begun < expiry then expiry else Aap.leaseExpiresAt options begun (wait.ask begun) := by
  obtain ⟨row, hrow, _, _, hexpiry, _⟩ := h.inbox
  unfold leaseEnd
  rw [hrow, Option.bind_some, hexpiry]
  by_cases hlive : begun < expiry
  · simp [Option.filter, hlive]
  · simp [Option.filter, hlive]

structure Begun (wait : AnsweredWait text) (expiry begun asked : Timestamp)
    (admission : AapAskAdmission) (d : ProtocolDelivery) : Prop where
  granted : AskGranted expiry begun (wait.ask asked) admission d
  frame : ∃ asked, admission.askInbox.frame = (wait.askFrame asked).toFrame

theorem leaseOwner_ne (asked : Timestamp) : Aap.leaseOwner (wait.ask asked) ≠ "" := by
  simp [Aap.leaseOwner]

theorem Undelivered.beginAsk {begun : Timestamp} (h : wait.Undelivered now d)
    (hrow : wait.AskStored d row) (hclaimable : row.Claimable begun)
    (hlease : begun < Aap.leaseExpiresAt options begun (wait.ask begun)) :
    ∃ admission d₂, Aap.beginAsk options begun (wait.ask asked) d = .ok (admission, d₂) ∧
      Begun wait (Aap.leaseExpiresAt options begun (wait.ask begun)) begun asked admission d₂ := by
  let owner := Aap.leaseOwner (wait.ask asked)
  let expiry := Aap.leaseExpiresAt options begun (wait.ask asked)
  obtain ⟨d₁, hclaim, hrow₁, _, hinbox₁⟩ :=
    claimOutbox_free hrow.1 (leaseOwner_ne asked) hlease hclaimable
  obtain ⟨d₂, hreceive, hrow₂, houtbox₂⟩ := receiveInbox_command begun (wait.askFrame_valid asked)
    wait.recipient_ne rfl ((hinbox₁ _).trans h.inbox)
  obtain ⟨d₃, hclaimInbox, hrow₃, _, houtbox₃⟩ :=
    claimInbox_free hrow₂ (leaseOwner_ne asked) hlease (.inl rfl)
  have hclaimed : (row.claim owner expiry).ClaimedBy owner (row.revision + 1) begun :=
    ⟨rfl, rfl, rfl, decide_eq_true hlease⟩
  obtain ⟨sent, d₄, hsent⟩ :=
    markOutboxSent_claimed (((houtbox₃ _).trans (houtbox₂ _)).trans hrow₁) hclaimed
  let received := receivedRow (wait.ask asked).destination (wait.askFrame asked).toFrame begun
  have hread : row.read.revision = row.revision := by rw [row.read_columns]
  have hread₁ : (row.withColumns (row.claim owner expiry)).read.revision = row.revision + 1 := by
    rw [ProtocolOutboxRecord.read_columns]
    rfl
  let admission : AapAskAdmission :=
    { shouldExecute := true
      askInbox := received.withColumns (received.claim owner expiry)
      askOutbox := sent
      leaseOwner := owner }
  have hadmit : admitAsk options begun (wait.ask asked) row.read
      (some (row.withColumns (row.claim owner expiry)).read) received d₂ = .ok (admission, d₄) := by
    unfold admitAsk
    refine chain_eq_ok.mpr ⟨_, d₃, hclaimInbox, chain_eq_ok.mpr ⟨sent, d₄, ?_,
      done_eq_ok.mpr ⟨rfl, rfl⟩⟩⟩
    rw [hread₁]
    exact hsent
  refine ⟨admission, d₄, ?_, ⟨rfl, (markOutboxSent_inboxRow hsent _).trans hrow₃,
    ⟨rfl, rfl, rfl, decide_eq_true hlease⟩, rfl⟩, asked, rfl⟩
  unfold Aap.beginAsk Aap.requireOutbox
  refine chain_eq_ok.mpr ⟨none, d, getInbox_eq_ok.mpr ⟨h.inbox, rfl⟩, chain_eq_ok.mpr ⟨row.read, d,
    requireBridgeOutbox_eq_ok.mpr ⟨⟨row, hrow.1, rfl⟩, rfl⟩, ?_⟩⟩
  unfold deliverAsk
  rw [hread]
  refine chain_eq_ok.mpr ⟨_, d₁, hclaim, chain_eq_ok.mpr ⟨_, d₂, hreceive,
    branch_eq_ok.mpr (.inr ⟨?_, hadmit⟩)⟩⟩
  rintro ⟨hnone, _⟩
  cases hnone

theorem Leased.beginAsk {begun : Timestamp} (h : wait.Leased expiry d)
    (hlease : begun < Aap.leaseExpiresAt options begun (wait.ask begun)) :
    ∃ admission d₂, Aap.beginAsk options begun (wait.ask asked) d = .ok (admission, d₂) ∧
      Begun wait (wait.leaseEnd options begun d) begun asked admission d₂ := by
  obtain ⟨row, hrow, hprocessing, howner, hexpiry, askedBefore, hframe⟩ := h.inbox
  obtain ⟨outbox, houtbox⟩ := h.outbox
  have hopen : ¬ row.status = .complete := by
    rw [hprocessing]
    decide
  have hkey : row.key = wait.askKey := inboxRow_key hrow
  rw [h.leaseEnd_eq]
  have hbegin : ∀ {reclaimed d₂}, claimInbox row.key (Aap.leaseOwner (wait.ask asked)) begun
      (Aap.leaseExpiresAt options begun (wait.ask asked)) row.revision d = .ok (reclaimed, d₂) →
      Aap.beginAsk options begun (wait.ask asked) d =
        .ok (⟨reclaimed.isSome, reclaimed.getD row, outbox.read, Aap.leaseOwner (wait.ask asked)⟩,
          d₂) := by
    intro reclaimed d₂ hclaim
    unfold Aap.beginAsk Aap.requireOutbox
    refine chain_eq_ok.mpr ⟨some row, d, getInbox_eq_ok.mpr ⟨hrow, rfl⟩, chain_eq_ok.mpr
      ⟨outbox.read, d, requireBridgeOutbox_eq_ok.mpr ⟨⟨outbox, houtbox.1, rfl⟩, rfl⟩, ?_⟩⟩
    refine branch_eq_ok.mpr (.inr ⟨hopen, ?_⟩)
    unfold reclaimAsk
    exact chain_eq_ok.mpr ⟨reclaimed, d₂, hclaim, done_eq_ok.mpr ⟨rfl, rfl⟩⟩
  by_cases hlive : begun < expiry
  · have hclaim : claimInbox row.key (Aap.leaseOwner (wait.ask asked)) begun
        (Aap.leaseExpiresAt options begun (wait.ask asked)) row.revision d = .ok (none, d) := by
      refine claimInbox_eq_ok.mpr ⟨⟨leaseOwner_ne asked, hlease⟩, .inr ⟨?_, rfl, rfl⟩⟩
      rintro other hother ⟨_, hfree⟩
      rw [hkey] at hother
      cases hrow.symm.trans hother
      rcases hfree with hreceived | ⟨_, hexpired⟩
      · cases hprocessing.symm.trans hreceived
      · rw [hexpiry] at hexpired
        exact absurd (of_decide_eq_true hexpired) (not_le_of_gt hlive)
    have hleaseLive : leaseLive row.leaseExpiresAt begun = true := by
      rw [hexpiry]
      exact decide_eq_true hlive
    refine ⟨_, d, hbegin hclaim, ?_, askedBefore, hframe⟩
    rw [if_pos hlive]
    exact ⟨rfl, hrow, ⟨hprocessing, howner, rfl, hleaseLive⟩, hexpiry⟩
  · have hfree : row.Claimable begun := by
      refine .inr ⟨hprocessing, ?_⟩
      rw [hexpiry]
      exact decide_eq_true (not_lt.mp hlive)
    obtain ⟨d₂, hclaim, hrow₂, _⟩ := claimInbox_free (hkey ▸ hrow) (leaseOwner_ne asked) hlease
      hfree
    refine ⟨_, d₂, hbegin hclaim, ?_, askedBefore, hframe⟩
    rw [if_neg hlive]
    refine ⟨rfl, ?_, ⟨rfl, rfl, rfl, decide_eq_true hlease⟩, rfl⟩
    rw [hkey] at hrow₂
    exact hrow₂

end AnsweredWait

end Newide
