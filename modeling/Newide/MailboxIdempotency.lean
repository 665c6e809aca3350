import Newide.MailboxReplies

/-!
# Sending and replying once

A send or a reply names itself by its task, its sender and an idempotency
key.  There is at most one message for each such name, and what a call
has answered is what every later call of that name and content answers,
however far its delivery has come; with any other content it throws.
-/

namespace Newide

open Fallible Statement MailboxTables

/-! ## Calls by name and content -/

/-- What a process draws for one call. -/
structure MailboxDraw where
  now : Timestamp
  createMessageId : String
  createDeliveryId : String

def MailboxEnv.draw (env : MailboxEnv) (draw : MailboxDraw) : MailboxEnv :=
  { env with
    now := draw.now
    createMessageId := draw.createMessageId
    createDeliveryId := draw.createDeliveryId }

/-- Date arithmetic: a time has a text, and different spans end at different times. -/
structure MailboxEnv.LawfulTime (env : MailboxEnv) : Prop where
  nonempty : ∀ start seconds, env.addSeconds start seconds ≠ some ""
  injective : ∀ start a b time, env.addSeconds start a = some time →
    env.addSeconds start b = some time → a = b

/-- The columns of the unique index over `messages`. -/
structure IdempotencyKey where
  taskId : String
  fromRoleId : String
  idempotencyKey : String

def PersistedMailboxMessage.key (message : PersistedMailboxMessage) : IdempotencyKey where
  taskId := message.taskId
  fromRoleId := message.fromRoleId
  idempotencyKey := message.idempotencyKey

def RequiredMailboxSendInput.key (input : RequiredMailboxSendInput) : IdempotencyKey where
  taskId := input.taskId
  fromRoleId := input.fromRoleId
  idempotencyKey := input.idempotencyKey

/-- The normalized content of a call next to its key; the payload as its JSON text. -/
structure MailboxContent where
  workspacePath : String
  threadId : String
  toRoleId : String
  kind : MailboxMessageKind
  content : String
  type : String
  payload : String
  artifactRefs : List String
  requiresAck : Bool
  deadlineSeconds : Option Int
deriving DecidableEq

def RequiredMailboxSendInput.contents (env : MailboxEnv) (input : RequiredMailboxSendInput) :
    MailboxContent where
  workspacePath := input.workspacePath
  threadId := input.threadId
  toRoleId := input.toRoleId
  kind := input.kind
  content := input.content
  type := input.type
  payload := env.stringify input.payload
  artifactRefs := input.artifactRefs.getD []
  requiresAck := input.requiresAck
  deadlineSeconds := input.deadlineSeconds

inductive MailboxPost where
  | send (input : MailboxSendInput)
  | reply (input : MailboxReplyInput)

open MailboxPost

def MailboxPost.exec (env : MailboxEnv) : MailboxPost → MailboxStatement MailboxSendResult
  | .send input => sendMailbox env input
  | .reply input => do
      let result ← replyMailbox env input
      return result.reply

structure PreparedPost where
  normalized : RequiredMailboxSendInput
  replyTo : Option String

def MailboxPost.prepare (env : MailboxEnv) (tables : MailboxTables) :
    MailboxPost → Except MailboxError PreparedPost
  | .send input => do
      let normalized ← prepareSend env input
      return { normalized, replyTo := none }
  | .reply input => do
      let envelope ← tables.getMailboxEnvelope input.sourceDeliveryId
      let source ← orThrow envelope (.deliveryNotFound input.sourceDeliveryId)
      assertRecipient source.delivery input.fromRoleId
      let normalized ← prepareSend env (input.toSend source.message)
      return { normalized, replyTo := some source.message.messageId }

/-- The call repeats what was posted; a reply also answers the same message. -/
def PreparedPost.Repeats (env : MailboxEnv) (post : PreparedPost) (content : MailboxContent)
    (posted : MailboxSendResult) : Prop :=
  post.normalized.contents env = content ∧
    ∀ source ∈ post.replyTo, posted.message.replyToMessageId = some source

instance (env : MailboxEnv) (post : PreparedPost) (content : MailboxContent)
    (posted : MailboxSendResult) : Decidable (post.Repeats env content posted) :=
  inferInstanceAs (Decidable (_ ∧ ∀ source ∈ post.replyTo, _))

/-! ## The content of a message -/

/-- A message and its delivery carry a content. -/
structure Carries (env : MailboxEnv) (message : PersistedMailboxMessage)
    (delivery : PersistedMailboxDelivery) (contents : MailboxContent) : Prop where
  workspacePath : message.workspacePath = contents.workspacePath
  threadId : message.threadId = contents.threadId
  toRoleId : delivery.recipientRoleId = contents.toRoleId
  kind : message.kind = some contents.kind
  content : message.content = some contents.content
  type : message.type = contents.type
  payload : env.stringify message.payload = contents.payload
  artifactRefs : message.artifactRefs = contents.artifactRefs
  requiresAck : message.requiresAck = contents.requiresAck
  deadline : deadlineAfter env message.createdAt contents.deadlineSeconds = .ok delivery.deadlineAt

section
variable {env : MailboxEnv} {message : PersistedMailboxMessage}
  {delivery : PersistedMailboxDelivery} {content : MailboxContent}
  {input : RequiredMailboxSendInput}

theorem deadlineAfter_injective (htime : env.LawfulTime) {start : Timestamp} {a b : Option Int}
    {deadline : Option Timestamp} (ha : deadlineAfter env start a = .ok deadline)
    (hb : deadlineAfter env start b = .ok deadline) : a = b := by
  have hsome {seconds : Int} {deadline : Option Timestamp}
      (h : deadlineAfter env start (some seconds) = .ok deadline) :
      ∃ time, env.addSeconds start seconds = some time ∧ deadline = some time := by
    obtain ⟨time, htime, hdeadline⟩ := mapped_eq_ok.mp h
    exact ⟨time, orThrow_eq_ok.mp htime, hdeadline.symm⟩
  have hnone {deadline : Option Timestamp} (h : deadlineAfter env start none = .ok deadline) :
      deadline = none := by
    cases h
    rfl
  cases a with
  | none =>
      obtain rfl := hnone ha
      cases b with
      | none => rfl
      | some seconds =>
          obtain ⟨_, _, h⟩ := hsome hb
          cases h
  | some seconds =>
      obtain ⟨time, hadd, rfl⟩ := hsome ha
      cases b with
      | none => cases hnone hb
      | some other =>
          obtain ⟨_, hother, h⟩ := hsome hb
          cases h
          rw [htime.injective start seconds other time hadd hother]

theorem Carries.unique (htime : env.LawfulTime) {other : MailboxContent}
    (h : Carries env message delivery content) (h' : Carries env message delivery other) :
    content = other := by
  have hdeadline := deadlineAfter_injective htime h.deadline h'.deadline
  have hkind := Option.some.inj (h.kind.symm.trans h'.kind)
  have hcontent := Option.some.inj (h.content.symm.trans h'.content)
  cases content
  cases other
  simp only [MailboxContent.mk.injEq]
  exact ⟨h.workspacePath.symm.trans h'.workspacePath, h.threadId.symm.trans h'.threadId,
    h.toRoleId.symm.trans h'.toRoleId, hkind, hcontent, h.type.symm.trans h'.type,
    h.payload.symm.trans h'.payload, h.artifactRefs.symm.trans h'.artifactRefs,
    h.requiresAck.symm.trans h'.requiresAck, hdeadline⟩

theorem assertIdempotentReplay_ok_iff (hfrom : message.fromRoleId = input.fromRoleId) {u : PUnit} :
    assertIdempotentReplay env { message, deliveries := [delivery] } input = .ok u ↔
      Carries env message delivery (input.contents env) := by
  simp only [assertIdempotentReplay, bind_eq_ok, ensure_eq_ok, List.head?_cons, Option.map_some,
    Option.bind_some, Option.some.injEq]
  constructor
  · rintro ⟨_, hexpected, hworkspace, hthread, _, hkind, hcontent, htype, hpayload, hrefs, hack, hto,
      rfl⟩
    exact ⟨hworkspace, hthread, hto, hkind, hcontent, htype, hpayload, hrefs, hack, hexpected⟩
  · intro h
    exact ⟨_, h.deadline, h.workspacePath, h.threadId, hfrom, h.kind, h.content, h.type, h.payload,
      h.artifactRefs, h.requiresAck, h.toRoleId, rfl⟩

theorem carries_draw (draw : MailboxDraw) :
    Carries (env.draw draw) message delivery content ↔ Carries env message delivery content := by
  constructor
  · intro h
    exact ⟨h.workspacePath, h.threadId, h.toRoleId, h.kind, h.content, h.type, h.payload,
      h.artifactRefs, h.requiresAck, h.deadline⟩
  · intro h
    exact ⟨h.workspacePath, h.threadId, h.toRoleId, h.kind, h.content, h.type, h.payload,
      h.artifactRefs, h.requiresAck, h.deadline⟩

end

/-! ## What every call keeps -/

/-- The later row of a delivery, in the columns that no call changes. -/
structure PersistedMailboxDelivery.SamePost (old new : PersistedMailboxDelivery) : Prop where
  deliveryId : new.deliveryId = old.deliveryId
  messageId : new.messageId = old.messageId
  taskId : new.taskId = old.taskId
  workspacePath : new.workspacePath = old.workspacePath
  recipientRoleId : new.recipientRoleId = old.recipientRoleId
  deadlineAt : new.deadlineAt = old.deadlineAt
  createdAt : new.createdAt = old.createdAt

theorem PersistedMailboxDelivery.SamePost.refl (row : PersistedMailboxDelivery) :
    row.SamePost row :=
  ⟨rfl, rfl, rfl, rfl, rfl, rfl, rfl⟩

theorem PersistedMailboxDelivery.SamePost.trans {a b c : PersistedMailboxDelivery}
    (h : a.SamePost b) (h' : b.SamePost c) : a.SamePost c :=
  ⟨h'.deliveryId.trans h.deliveryId, h'.messageId.trans h.messageId, h'.taskId.trans h.taskId,
    h'.workspacePath.trans h.workspacePath, h'.recipientRoleId.trans h.recipientRoleId,
    h'.deadlineAt.trans h.deadlineAt, h'.createdAt.trans h.createdAt⟩

/-- No message changes, and no delivery is lost. -/
structure KeepsPosts (s t : MailboxTables) : Prop where
  messages : ∀ message ∈ s.messages, message ∈ t.messages
  deliveries : ∀ old ∈ s.deliveries, ∃ new ∈ t.deliveries, old.SamePost new

instance : Std.Refl KeepsPosts where
  refl _ := ⟨fun _ h => h, fun old h => ⟨old, h, .refl old⟩⟩

instance : IsTrans MailboxTables KeepsPosts where
  trans _ _ _ h h' := by
    refine ⟨fun message hin => h'.messages message (h.messages message hin), fun old hold => ?_⟩
    obtain ⟨mid, hmid, hm⟩ := h.deliveries old hold
    obtain ⟨new, hnew, hn⟩ := h'.deliveries mid hmid
    exact ⟨new, hnew, hm.trans hn⟩

/-- And the only new delivery is the one named `fresh`. -/
structure PostsAdvance (fresh : String) (s t : MailboxTables) : Prop extends KeepsPosts s t where
  added : ∀ new ∈ t.deliveries, new.deliveryId = fresh ∨
    ∃ old ∈ s.deliveries, old.SamePost new

instance (fresh : String) : Std.Refl (PostsAdvance fresh) where
  refl s := { toKeepsPosts := Std.Refl.refl s, added := fun new h => .inr ⟨new, h, .refl new⟩ }

instance (fresh : String) : IsTrans MailboxTables (PostsAdvance fresh) where
  trans a b c h h' := by
    refine ⟨IsTrans.trans a b c h.toKeepsPosts h'.toKeepsPosts, fun new hnew => ?_⟩
    rcases h'.added new hnew with hfresh | ⟨mid, hmid, hn⟩
    · exact .inl hfresh
    · rcases h.added mid hmid with hfresh | ⟨old, hold, hm⟩
      · exact .inl (hn.deliveryId.trans hfresh)
      · exact .inr ⟨old, hold, hm.trans hn⟩

variable {f : PersistedMailboxDelivery → PersistedMailboxDelivery}

section
variable {s t : MailboxTables} {deliveryId fresh : String}

theorem PostsAdvance.update (hf : ∀ row, PersistedMailboxDelivery.SamePost row (f row)) :
    PostsAdvance fresh s (s.updateDelivery deliveryId f) := by
  have hrow (old : PersistedMailboxDelivery) :
      old.SamePost (if old.deliveryId = deliveryId then f old else old) := by
    split
    · exact hf old
    · exact .refl old
  refine ⟨⟨fun _ h => h, fun old hold => ⟨_, List.mem_map_of_mem hold, hrow old⟩⟩, fun new hnew => ?_⟩
  obtain ⟨old, hold, rfl⟩ := List.mem_map.mp hnew
  exact .inr ⟨old, hold, hrow old⟩

theorem samePost_ite {p : Prop} [Decidable p] {row changed : PersistedMailboxDelivery}
    (h : row.SamePost changed) : row.SamePost (if p then changed else row) := by
  split
  · exact h
  · exact .refl row

theorem within_check (x : Except MailboxError PUnit) : Within (PostsAdvance fresh) (check x) :=
  within_read _

theorem within_acknowledgeInjected (delivery : PersistedMailboxDelivery) (at' : Timestamp) :
    Within (PostsAdvance fresh) (acknowledgeInjected delivery at') := by
  refine within_branch (within_write fun s t h => ?_) (within_done _)
  cases h
  exact .update fun row => ⟨rfl, rfl, rfl, rfl, rfl, rfl, rfl⟩

theorem within_writeMailboxMessage (message : PersistedMailboxMessage) :
    Within (PostsAdvance fresh) (writeMailboxMessage message) := by
  refine within_write fun s t h => ?_
  simp only [insertMessage, bind_eq_ok, pure_eq_ok] at h
  obtain ⟨_, _, rfl⟩ := h
  exact ⟨⟨fun _ hin => List.mem_append_left _ hin, fun old hold => ⟨old, hold, .refl old⟩⟩,
    fun new hnew => .inr ⟨new, hnew, .refl new⟩⟩

variable {delivery : PersistedMailboxDelivery}

theorem within_writeMailboxDelivery (hfresh : delivery.deliveryId = fresh) :
    Within (PostsAdvance fresh) (writeMailboxDelivery delivery) := by
  refine within_write fun s t h => ?_
  simp only [insertDelivery, bind_eq_ok, pure_eq_ok] at h
  obtain ⟨_, _, rfl⟩ := h
  refine ⟨⟨fun _ hin => hin, fun old hold => ⟨old, List.mem_append_left _ hold, .refl old⟩⟩,
    fun new hnew => ?_⟩
  rcases List.mem_append.mp hnew with hold | hlast
  · exact .inr ⟨new, hold, .refl new⟩
  · rw [List.mem_singleton.mp hlast]
    exact .inl hfresh

theorem within_saveMailboxMessage {message : PersistedMailboxMessage}
    (hfresh : delivery.deliveryId = fresh) :
    Within (PostsAdvance fresh) (saveMailboxMessage message delivery) :=
  within_chain (within_check _) fun _ => within_transaction <|
    within_chain (within_writeMailboxMessage message) fun _ => within_writeMailboxDelivery hfresh

theorem within_saveMailboxReply {input : SaveMailboxReplyInput}
    (hfresh : input.delivery.deliveryId = fresh) :
    Within (PostsAdvance fresh) (saveMailboxReply input) :=
  within_chain (within_check _) fun _ => within_transaction <|
    within_chain (within_read _) fun source =>
    within_chain (within_check _) fun _ =>
    within_chain (within_check _) fun _ =>
    within_chain (within_check _) fun _ =>
    within_chain (within_check _) fun _ =>
    within_chain (within_acknowledgeInjected source _) fun _ =>
    within_chain (within_writeMailboxMessage _) fun _ =>
    within_chain (within_writeMailboxDelivery hfresh) fun _ => within_read _

theorem within_updateOpenDelivery (text : String)
    (hf : ∀ row, PersistedMailboxDelivery.SamePost row (f row)) :
    Within (PostsAdvance fresh) (updateOpenDelivery deliveryId text f) := by
  refine within_chain (within_write fun s t h => ?_) fun _ => within_read _
  simp only [bind_eq_ok, pure_eq_ok] at h
  obtain ⟨_, _, rfl⟩ := h
  exact .update fun row => samePost_ite (hf row)

theorem within_markMailboxDeliveryFailed (failedAt : Timestamp) (error : PersistedTaskError) :
    Within (PostsAdvance fresh) (markMailboxDeliveryFailed deliveryId failedAt error) :=
  within_updateOpenDelivery _ fun _ => ⟨rfl, rfl, rfl, rfl, rfl, rfl, rfl⟩

theorem within_recordMailboxDeliveryAttempt (attemptedAt : Timestamp)
    (error : Option PersistedTaskError) :
    Within (PostsAdvance fresh) (recordMailboxDeliveryAttempt deliveryId attemptedAt error) :=
  within_updateOpenDelivery _ fun _ => ⟨rfl, rfl, rfl, rfl, rfl, rfl, rfl⟩

theorem createDelivery_deliveryId {env : MailboxEnv} {messageId : String}
    {input : RequiredMailboxSendInput} {createdAt : Timestamp}
    (h : createDelivery env messageId input createdAt = .ok delivery) :
    delivery.deliveryId = env.createDeliveryId := by
  simp only [createDelivery, bind_eq_ok, pure_eq_ok] at h
  obtain ⟨_, _, rfl⟩ := h
  rfl

theorem within_sendMailbox (env : MailboxEnv) (input : MailboxSendInput) :
    Within (PostsAdvance env.createDeliveryId) (sendMailbox env input) := by
  refine within_chain (within_read _) fun normalized => within_chain (within_read _) fun existing => ?_
  cases existing with
  | some existing => exact within_chain (within_check _) fun _ => within_done _
  | none =>
      refine within_read_chain fun _ delivery hcreated => ?_
      have hfresh := createDelivery_deliveryId hcreated
      exact within_chain (within_saveMailboxMessage hfresh) fun _ => within_done _

theorem within_replyMailbox (env : MailboxEnv) (input : MailboxReplyInput) :
    Within (PostsAdvance env.createDeliveryId) (replyMailbox env input) := by
  refine within_chain (within_read _) fun source => within_chain (within_check _) fun _ => ?_
  refine within_chain (within_read _) fun normalized => within_chain (within_read _) fun existing => ?_
  cases existing with
  | some existing =>
      exact within_chain (within_check _) fun _ => within_chain (within_check _) fun _ =>
        within_done _
  | none =>
      refine within_chain (within_check _) fun _ => within_read_chain fun _ delivery hcreated => ?_
      have hfresh := createDelivery_deliveryId hcreated
      exact within_chain (within_saveMailboxReply hfresh) fun _ => within_done _

theorem within_markMailboxDeliveryInjected (recipientRoleId sessionId : String) (at' : Timestamp) :
    Within (PostsAdvance fresh)
      (markMailboxDeliveryInjected deliveryId recipientRoleId sessionId at') := by
  refine within_chain (within_read _) fun delivery => within_chain (within_check _) fun _ => ?_
  refine within_branch (within_chain (within_check _) fun _ => within_done _) ?_
  refine within_chain (within_check _) fun _ => within_chain (within_write fun s t h => ?_)
    fun _ => within_read _
  cases h
  exact .update fun row => samePost_ite ⟨rfl, rfl, rfl, rfl, rfl, rfl, rfl⟩

theorem within_acknowledgeMailboxDelivery (recipientRoleId : String) (at' : Timestamp) :
    Within (PostsAdvance fresh) (acknowledgeMailboxDelivery deliveryId recipientRoleId at') :=
  within_transaction <|
    within_chain (within_read _) fun delivery =>
    within_chain (within_check _) fun _ =>
    within_chain (within_check _) fun _ =>
    within_chain (within_check _) fun _ =>
    within_chain (within_acknowledgeInjected delivery _) fun _ => within_read _

/-- Every call keeps what was posted, however it ends, and adds its own delivery at most. -/
theorem MailboxCall.advances (env : MailboxEnv) (call : MailboxCall) (s : MailboxTables) :
    PostsAdvance env.createDeliveryId s (call.exec env s).2 := by
  cases call with
  | send input => exact within_forget (within_sendMailbox env input) s
  | reply input => exact within_forget (within_replyMailbox env input) s
  | markInjected deliveryId recipientRoleId sessionId =>
      exact within_forget (within_chain (within_check _) fun _ => within_chain (within_check _) fun _ =>
        within_markMailboxDeliveryInjected recipientRoleId sessionId env.now) s
  | ack deliveryId recipientRoleId =>
      exact within_forget (within_chain (within_read _) fun _ => within_chain (within_check _) fun _ =>
        within_chain (within_check _) fun _ =>
        within_acknowledgeMailboxDelivery recipientRoleId env.now) s
  | markFailed deliveryId error =>
      exact within_forget (within_markMailboxDeliveryFailed env.now error) s
  | recordDeliveryAttempt deliveryId error =>
      exact within_forget (within_recordMailboxDeliveryAttempt env.now error) s

end

/-! ## What a call answered -/

structure Holds (env : MailboxEnv) (s : MailboxTables) (posted : MailboxSendResult)
    (contents : MailboxContent) (message : PersistedMailboxMessage)
    (row : PersistedMailboxDelivery) : Prop where
  message_mem : message ∈ s.messages
  row_mem : row ∈ s.deliveries
  messageId : row.messageId = message.messageId
  answered : readMailboxMessage message = posted.message
  deliveryIds : posted.deliveries.map (·.deliveryId) = [row.deliveryId]
  carries : Carries env posted.message (readMailboxDelivery row) contents

/-- One message for each task, sender and idempotency key. -/
def MailboxTables.OnePerKey (s : MailboxTables) : Prop :=
  Rows.Distinct PersistedMailboxMessage.key s.messages

section
variable {env : MailboxEnv} {s t : MailboxTables} {posted : MailboxSendResult}
  {contents : MailboxContent} {message : PersistedMailboxMessage}
  {row delivery : PersistedMailboxDelivery}

theorem Holds.of_keeps (h : Holds env s posted contents message row) (hk : KeepsPosts s t) :
    ∃ row', Holds env t posted contents message row' := by
  obtain ⟨new, hnew, hsame⟩ := hk.deliveries row h.row_mem
  refine ⟨new, hk.messages message h.message_mem, hnew, hsame.messageId.trans h.messageId,
    h.answered, by rw [hsame.deliveryId]; exact h.deliveryIds, ?_⟩
  refine { h.carries with toRoleId := ?_, deadline := ?_ }
  · exact hsame.recipientRoleId.trans h.carries.toRoleId
  · have hdeadline := h.carries.deadline
    simp only [readMailboxDelivery] at hdeadline ⊢
    rw [hsame.deadlineAt]
    exact hdeadline

theorem filter_delivery (hkept : s.Kept) (hrow : row ∈ s.deliveries)
    (hid : row.messageId = message.messageId) :
    s.deliveries.filter (·.messageId = message.messageId) = [row] := by
  have hone : ∀ other ∈ s.deliveries.filter (·.messageId = message.messageId), other = row := by
    intro other hother
    obtain ⟨hmem, hother⟩ := List.mem_filter.mp hother
    exact hkept.oneDelivery other hmem row hrow ((of_decide_eq_true hother).trans hid.symm)
  have hnodup : (s.deliveries.filter (·.messageId = message.messageId)).Nodup :=
    (List.Nodup.of_map _ hkept.deliveryIds).filter _
  have hmem : row ∈ s.deliveries.filter (·.messageId = message.messageId) :=
    List.mem_filter.mpr ⟨hrow, decide_eq_true hid⟩
  exact List.perm_singleton.mp ((List.perm_ext_iff_of_nodup hnodup (List.nodup_singleton row)).mpr
    fun other => ⟨fun h => List.mem_singleton.mpr (hone other h), fun h => by
      rwa [List.mem_singleton.mp h]⟩)

theorem find_eq (hkept : s.Kept) (hkeys : s.OnePerKey) (hmessage : message ∈ s.messages)
    (hrow : row ∈ s.deliveries) (hid : row.messageId = message.messageId) :
    s.findMailboxSendByIdempotencyKey message.taskId message.fromRoleId message.idempotencyKey =
      some { message := readMailboxMessage message, deliveries := [readMailboxDelivery row] } := by
  have hfound : (s.messages.find? fun old => old.taskId = message.taskId ∧
      old.fromRoleId = message.fromRoleId ∧ old.idempotencyKey = message.idempotencyKey) =
      some message := by
    cases hf : s.messages.find? fun old => old.taskId = message.taskId ∧
        old.fromRoleId = message.fromRoleId ∧ old.idempotencyKey = message.idempotencyKey with
    | none => simpa using List.find?_eq_none.mp hf message hmessage
    | some old =>
        have hkey : old.taskId = message.taskId ∧ old.fromRoleId = message.fromRoleId ∧
            old.idempotencyKey = message.idempotencyKey := by
          simpa using List.find?_some hf
        have hsame : old.key = message.key := by
          simp only [PersistedMailboxMessage.key, hkey.1, hkey.2.1, hkey.2.2]
        rw [hkeys.eq_of_key (List.mem_of_find?_eq_some hf) hmessage hsame]
  rw [findMailboxSendByIdempotencyKey, hfound, Option.map_some, filter_delivery hkept hrow hid]
  rfl

theorem of_find {taskId fromRoleId idempotencyKey : String} {existing : MailboxSendPersistenceResult}
    (hkept : s.Kept)
    (h : s.findMailboxSendByIdempotencyKey taskId fromRoleId idempotencyKey = some existing) :
    ∃ message ∈ s.messages, ∃ row ∈ s.deliveries, row.messageId = message.messageId ∧
      message.key = { taskId, fromRoleId, idempotencyKey } ∧
      existing =
        { message := readMailboxMessage message, deliveries := [readMailboxDelivery row] } := by
  obtain ⟨message, hfound, rfl⟩ := Option.map_eq_some_iff.mp h
  have hmessage := List.mem_of_find?_eq_some hfound
  obtain ⟨row, hrow, hid⟩ := hkept.delivered message hmessage
  have hkey : message.taskId = taskId ∧ message.fromRoleId = fromRoleId ∧
      message.idempotencyKey = idempotencyKey := by
    simpa using List.find?_some hfound
  refine ⟨message, hmessage, row, hrow, hid, ?_, ?_⟩
  · simp only [PersistedMailboxMessage.key, hkey.1, hkey.2.1, hkey.2.2]
  · rw [filter_delivery hkept hrow hid]
    rfl

theorem MailboxEffect.onePerKey (he : MailboxEffect s t) (h : s.OnePerKey) : t.OnePerKey := by
  have hpost {u : MailboxTables} {message : PersistedMailboxMessage}
      {delivery : PersistedMailboxDelivery} (hu : u.OnePerKey) (hposted : Posted u message delivery) :
      (u.post message delivery).OnePerKey := by
    refine Rows.Distinct.append_new hu fun old hold hkey => hposted.fits.2.1 old hold ?_
    simpa only [PersistedMailboxMessage.key, IdempotencyKey.mk.injEq] using hkey
  cases he with
  | updated => exact h
  | sent hposted => exact hpost h hposted
  | replied hrow hf hack hsource hanswers hreply hposted => exact hpost h hposted

end

/-! ## How a call ends -/

section
variable {env : MailboxEnv} {s t : MailboxTables} {post : MailboxPost} {p : PreparedPost}
  {posted : MailboxSendResult} {existing : MailboxSendPersistenceResult}

def PreparedPost.existing? (p : PreparedPost) (s : MailboxTables) :
    Option MailboxSendPersistenceResult :=
  s.findMailboxSendByIdempotencyKey p.normalized.taskId p.normalized.fromRoleId
    p.normalized.idempotencyKey

/-- The two checks of a call that finds a message under its key. -/
structure PreparedPost.Accepts (env : MailboxEnv) (p : PreparedPost)
    (existing : MailboxSendPersistenceResult) : Prop where
  replay : assertIdempotentReplay env existing p.normalized = .ok ⟨⟩
  replyTo : ∀ source ∈ p.replyTo, existing.message.replyToMessageId = some source

/-- The message and delivery a call inserts. -/
structure PreparedPost.Inserts (env : MailboxEnv) (p : PreparedPost) (posted : MailboxSendResult)
    (t : MailboxTables) (delivery : PersistedMailboxDelivery) : Prop where
  created : createDelivery env env.createMessageId p.normalized env.now = .ok delivery
  posted : posted =
    { message := createMessage env p.normalized env.now p.replyTo, deliveries := [delivery] }
  message_mem : createMessage env p.normalized env.now p.replyTo ∈ t.messages
  delivery_mem : delivery ∈ t.deliveries

theorem MailboxPost.atomic (post : MailboxPost) : AtomicAt s (post.exec env) := by
  cases post with
  | send input => exact sendMailbox_atomic input
  | reply input => exact atomicAt_saved (replyMailbox_atomic input)

theorem prepareSend_key {input : MailboxSendInput} {normalized : RequiredMailboxSendInput}
    (h : prepareSend env input = .ok normalized) :
    normalized.idempotencyKey = input.idempotencyKey ∧ normalized.content ≠ "" := by
  simp only [prepareSend, normalizeSendInput, bind_eq_ok, pure_eq_ok, orThrow_eq_ok] at h
  obtain ⟨_, ⟨_, _, _, hcontent, rfl⟩, _, _, rfl⟩ := h
  exact ⟨rfl, (truthy_eq_some.mp hcontent).2⟩

theorem MailboxPost.prepare_content (h : post.prepare env s = .ok p) :
    p.normalized.content ≠ "" := by
  cases post with
  | send input =>
      simp only [prepare, bind_eq_ok, pure_eq_ok] at h
      obtain ⟨_, hprepare, rfl⟩ := h
      exact (prepareSend_key hprepare).2
  | reply input =>
      simp only [prepare, bind_eq_ok, pure_eq_ok] at h
      obtain ⟨_, _, _, _, _, _, _, hprepare, rfl⟩ := h
      exact (prepareSend_key hprepare).2

/-- A call that succeeds was prepared; it answers what it found under its key, or inserts. -/
theorem MailboxPost.exec_ok (h : post.exec env s = (.ok posted, t)) :
    ∃ p, post.prepare env s = .ok p ∧
      ((∃ existing, p.existing? s = some existing ∧ p.Accepts env existing ∧ t = s ∧
          posted = { message := existing.message, deliveries := existing.deliveries }) ∨
        p.existing? s = none ∧ ∃ delivery, p.Inserts env posted t delivery) := by
  cases post with
  | send input =>
      simp only [exec, sendMailbox, chain_ok, read_eq] at h
      obtain ⟨normalized, _, ⟨hprepare, rfl⟩, existing, _, ⟨hfind, rfl⟩, h⟩ := h
      refine ⟨⟨normalized, none⟩, ?_, ?_⟩
      · simp only [prepare, bind_eq_ok, pure_eq_ok]
        exact ⟨_, hprepare, rfl⟩
      · cases existing with
        | some existing =>
            simp only [chain_ok, check_ok, done_eq] at h
            obtain ⟨_, _, ⟨hreplay, rfl⟩, hposted, rfl⟩ := h
            refine .inl ⟨existing, Except.ok.inj hfind, ⟨hreplay, fun _ h => (by cases h)⟩, rfl, ?_⟩
            cases hposted
            rfl
        | none =>
            simp only [chain_ok, read_eq, done_eq] at h
            obtain ⟨delivery, _, ⟨hcreated, rfl⟩, _, _, hsave, hposted, rfl⟩ := h
            simp only [saveMailboxMessage, chain_ok, check_ok, transaction_ok] at hsave
            obtain ⟨_, _, ⟨hvalid, rfl⟩, _, _, hmessage, hdelivery⟩ := hsave
            obtain ⟨_, rfl⟩ := posted_of_writes hvalid hmessage hdelivery
            cases hposted
            exact .inr ⟨Except.ok.inj hfind, delivery, hcreated, rfl,
              List.mem_append_right _ (List.mem_singleton_self _),
              List.mem_append_right _ (List.mem_singleton_self _)⟩
  | reply input =>
      simp only [exec, replyMailbox, chain_ok, check_ok, read_eq, done_eq] at h
      obtain ⟨result, _, ⟨source, _, hsource, _, _, ⟨hrecipient, rfl⟩, normalized, _,
        ⟨hprepare, rfl⟩, existing, u, ⟨hfind, rfl⟩, h⟩, hposted, rfl⟩ := h
      obtain ⟨hread, rfl⟩ := read_eq.mp hsource
      obtain ⟨htask, _, _, hfrom, _⟩ := prepareSend_ok hprepare
      have hlookup : (PreparedPost.mk normalized (some source.message.messageId)).existing? u =
          existing := by
        rw [PreparedPost.existing?, htask, hfrom, (prepareSend_key hprepare).1]
        exact Except.ok.inj hfind
      refine ⟨⟨normalized, some source.message.messageId⟩, ?_, ?_⟩
      · simp only [prepare, bind_eq_ok, pure_eq_ok]
        obtain ⟨envelope, henvelope, hfound⟩ := bind_eq_ok.mp hread
        exact ⟨envelope, henvelope, source, hfound, _, hrecipient, normalized, hprepare, rfl⟩
      · rw [hlookup]
        cases existing with
        | some existing =>
            simp only [chain_ok, check_ok, done_eq, ensure_eq_ok] at h
            obtain ⟨_, _, ⟨hreplay, rfl⟩, _, _, ⟨hreply, rfl⟩, hresult, rfl⟩ := h
            cases hresult
            cases hposted
            refine .inl ⟨existing, rfl, ⟨hreplay, ?_⟩, rfl, rfl⟩
            rintro _ ⟨⟩
            exact hreply
        | none =>
            simp only [chain_ok, check_ok, read_eq, done_eq, saveMailboxReply, transaction_ok] at h
            obtain ⟨_, _, ⟨_, rfl⟩, delivery, _, ⟨hcreated, rfl⟩, _, _, hsave, hresult, rfl⟩ := h
            obtain ⟨_, _, ⟨hvalid, rfl⟩, _, _, _, _, _, ⟨_, rfl⟩, _, _, ⟨_, rfl⟩, _, _, ⟨_, rfl⟩, _, _,
              ⟨_, rfl⟩, _, _, _, _, _, hmessage, _, _, hdelivery, hlast⟩ := hsave
            obtain ⟨_, rfl⟩ := posted_of_writes hvalid hmessage hdelivery
            obtain ⟨_, rfl⟩ := requireDeliveryRow_ok.mp hlast
            cases hresult
            cases hposted
            exact .inr ⟨rfl, delivery, hcreated, rfl,
              List.mem_append_right _ (List.mem_singleton_self _),
              List.mem_append_right _ (List.mem_singleton_self _)⟩

theorem MailboxPost.exec_repeat (hp : post.prepare env s = .ok p)
    (hfind : p.existing? s = some existing) (haccepts : p.Accepts env existing) :
    post.exec env s =
      (.ok { message := existing.message, deliveries := existing.deliveries }, s) := by
  cases post with
  | send input =>
      simp only [prepare, bind_eq_ok, pure_eq_ok] at hp
      obtain ⟨normalized, hprepare, rfl⟩ := hp
      refine read_chain.mpr (.inl ⟨normalized, hprepare, ?_⟩)
      refine read_chain.mpr (.inl ⟨some existing, congrArg _ hfind, ?_⟩)
      exact read_chain.mpr (.inl ⟨_, haccepts.replay, rfl⟩)
  | reply input =>
      simp only [prepare, bind_eq_ok, pure_eq_ok] at hp
      obtain ⟨envelope, henvelope, source, hfound, _, hrecipient, normalized, hprepare, rfl⟩ := hp
      obtain ⟨htask, _, _, hfrom, _⟩ := prepareSend_ok hprepare
      have hreply : existing.message.replyToMessageId = some source.message.messageId :=
        haccepts.replyTo _ rfl
      have hresult : replyMailbox env input s =
          (.ok { sourceDelivery := source.delivery, reply :=
            { message := existing.message, deliveries := existing.deliveries } }, s) := by
        refine read_chain.mpr (.inl ⟨source, bind_eq_ok.mpr ⟨envelope, henvelope, hfound⟩, ?_⟩)
        refine read_chain.mpr (.inl ⟨_, hrecipient, ?_⟩)
        refine read_chain.mpr (.inl ⟨normalized, hprepare, ?_⟩)
        refine read_chain.mpr (.inl ⟨some existing, ?_, ?_⟩)
        · rw [PreparedPost.existing?, htask, hfrom, (prepareSend_key hprepare).1] at hfind
          exact congrArg _ hfind
        · refine read_chain.mpr (.inl ⟨_, haccepts.replay, ?_⟩)
          exact read_chain.mpr (.inl ⟨⟨⟩, ensure_eq_ok.mpr hreply, rfl⟩)
      exact chain_eq.mpr (.inl ⟨_, s, hresult, rfl⟩)

end

/-! ## Runs -/

/-- The tables after a call of a process, however it ended. -/
def MailboxTables.called (env : MailboxEnv) (s : MailboxTables) (call : MailboxDraw × MailboxCall) :
    MailboxTables :=
  (call.2.exec (env.draw call.1) s).2

def MailboxPost.call : MailboxPost → MailboxCall
  | .send input => .send input
  | .reply input => .reply input

section
variable {env : MailboxEnv} {s t : MailboxTables} {post : MailboxPost} {p : PreparedPost}
  {posted : MailboxSendResult}

theorem MailboxPost.exec_state (post : MailboxPost) (draw : MailboxDraw) :
    (post.exec (env.draw draw) s).2 = s.called env (draw, post.call) := by
  cases post with
  | send input => exact (forget_state _ s).symm
  | reply input => exact (done_state _ _ s).trans (forget_state _ s).symm

theorem MailboxTables.OnePerKey.called (hkept : s.Kept) (h : s.OnePerKey)
    (call : MailboxDraw × MailboxCall) : (s.called env call).OnePerKey := by
  unfold MailboxTables.called
  rcases hexec : call.2.exec (env.draw call.1) s with ⟨_ | ⟨⟩, t⟩
  · obtain rfl := call.2.atomic _ t hexec
    exact h
  · exact (call.2.effect hkept.deliveryIds hexec).onePerKey h

theorem called_kept (hkept : s.Kept) (hkeys : s.OnePerKey) (calls : List (MailboxDraw × MailboxCall)) :
    (calls.foldl (MailboxTables.called env) s).Kept ∧
      (calls.foldl (MailboxTables.called env) s).OnePerKey := by
  induction calls using List.reverseRecOn with
  | nil => exact ⟨hkept, hkeys⟩
  | append_singleton calls call ih =>
      rw [List.foldl_append]
      exact ⟨ih.1.step ⟨env.draw call.1, call.2⟩, ih.2.called ih.1 call⟩

theorem called_keepsPosts (s : MailboxTables) (calls : List (MailboxDraw × MailboxCall)) :
    KeepsPosts s (calls.foldl (MailboxTables.called env) s) := by
  induction calls using List.reverseRecOn with
  | nil => exact Std.Refl.refl s
  | append_singleton calls call ih =>
      rw [List.foldl_append]
      exact IsTrans.trans _ _ _ ih (call.2.advances (env.draw call.1) _).toKeepsPosts

theorem PreparedPost.Inserts.holds (htime : env.LawfulTime) {delivery : PersistedMailboxDelivery}
    (hcontent : p.normalized.content ≠ "") (h : p.Inserts env posted t delivery) :
    Holds env t posted (p.normalized.contents env)
      (createMessage env p.normalized env.now p.replyTo) delivery := by
  obtain ⟨hcreated, rfl, hmessage, hdelivery⟩ := h
  simp only [createDelivery, bind_eq_ok, pure_eq_ok] at hcreated
  obtain ⟨deadline, hdeadline, rfl⟩ := hcreated
  have hread : truthy deadline = deadline := by
    unfold deadlineAfter at hdeadline
    split at hdeadline
    · obtain ⟨time, hadd, rfl⟩ := mapped_eq_ok.mp hdeadline
      refine truthy_eq_some.mpr ⟨rfl, ?_⟩
      rintro rfl
      exact htime.nonempty _ _ (orThrow_eq_ok.mp hadd)
    · cases hdeadline
      rfl
  refine ⟨hmessage, hdelivery, rfl, ?_, rfl, ?_⟩
  · simp only [readMailboxMessage, createMessage, truthy_truthy, PersistedMailboxMessage.mk.injEq,
      true_and, and_true]
    exact truthy_eq_some.mpr ⟨rfl, hcontent⟩
  · exact
      { workspacePath := rfl
        threadId := rfl
        toRoleId := rfl
        kind := rfl
        content := rfl
        type := rfl
        payload := rfl
        artifactRefs := rfl
        requiresAck := rfl
        deadline := hdeadline.trans (congrArg Except.ok hread.symm) }

theorem MailboxPost.exec_holds (htime : env.LawfulTime) (hkept : s.Kept)
    (h : post.exec env s = (.ok posted, t)) :
    ∃ p, post.prepare env s = .ok p ∧ ∃ message row,
      Holds env t posted (p.normalized.contents env) message row ∧
        message.key = p.normalized.key := by
  obtain ⟨p, hp, ⟨existing, hfind, haccepts, rfl, rfl⟩ | ⟨_, delivery, hinserts⟩⟩ := exec_ok h
  · obtain ⟨message, hmessage, row, hrow, hid, hkey, rfl⟩ := of_find hkept hfind
    have hfrom : (readMailboxMessage message).fromRoleId = p.normalized.fromRoleId :=
      congrArg IdempotencyKey.fromRoleId hkey
    exact ⟨p, hp, message, row, ⟨hmessage, hrow, hid, rfl, rfl,
      (assertIdempotentReplay_ok_iff hfrom).mp haccepts.replay⟩, hkey⟩
  · exact ⟨p, hp, _, delivery, hinserts.holds htime (prepare_content hp), rfl⟩

end

/-! ## Idempotency -/

/-- How a later call ends when a call of the same key was answered with `posted`: a repetition
is answered with the same message and delivery, anything else throws, and neither writes. -/
def AnsweredAlike (env : MailboxEnv) (s : MailboxTables) (key : IdempotencyKey)
    (contents : MailboxContent) (posted : MailboxSendResult) (draw : MailboxDraw)
    (again : MailboxPost) : Prop :=
  match again.prepare env s with
  | .error _ => ∃ error, again.exec (env.draw draw) s = (.error error, s)
  | .ok p =>
      p.normalized.key = key →
        if p.Repeats env contents posted then
          ∃ delivery, posted.deliveries.map (·.deliveryId) = [delivery.deliveryId] ∧
            again.exec (env.draw draw) s =
              (.ok { message := posted.message, deliveries := [delivery] }, s)
        else ∃ error, again.exec (env.draw draw) s = (.error error, s)

theorem Holds.answeredAlike {env : MailboxEnv} {s : MailboxTables} {posted : MailboxSendResult}
    {contents : MailboxContent} {message : PersistedMailboxMessage}
    {row : PersistedMailboxDelivery} (htime : env.LawfulTime) (hkept : s.Kept)
    (hkeys : s.OnePerKey) (h : Holds env s posted contents message row) (draw : MailboxDraw)
    (again : MailboxPost) : AnsweredAlike env s message.key contents posted draw again := by
  have hthrows (hno : ∀ posted' t, again.exec (env.draw draw) s ≠ (.ok posted', t)) :
      ∃ error, again.exec (env.draw draw) s = (.error error, s) := by
    rcases hexec : again.exec (env.draw draw) s with ⟨error | posted', t⟩
    · obtain rfl := again.atomic error t hexec
      exact ⟨error, rfl⟩
    · exact absurd hexec (hno posted' t)
  unfold AnsweredAlike
  cases hp : again.prepare env s with
  | error e =>
      refine hthrows fun posted' t hexec => ?_
      obtain ⟨p, hprepared, _⟩ := exec_ok hexec
      have : again.prepare env s = .ok p := hprepared
      rw [hp] at this
      cases this
  | ok p =>
      intro hkey
      simp only [RequiredMailboxSendInput.key, PersistedMailboxMessage.key,
        IdempotencyKey.mk.injEq] at hkey
      obtain ⟨htask, hsender, hname⟩ := hkey
      have hfrom : (readMailboxMessage message).fromRoleId = p.normalized.fromRoleId := hsender.symm
      have hfind : p.existing? s =
          some { message := posted.message, deliveries := [readMailboxDelivery row] } := by
        rw [PreparedPost.existing?, htask, hsender, hname, ← h.answered]
        exact find_eq hkept hkeys h.message_mem h.row_mem h.messageId
      have haccepts : p.Accepts (env.draw draw)
          { message := posted.message, deliveries := [readMailboxDelivery row] } ↔
          p.Repeats env contents posted := by
        rw [← h.answered] at hfind ⊢
        have hcarries := h.carries
        rw [← h.answered] at hcarries
        constructor
        · rintro ⟨hreplay, hreply⟩
          have hsame := carries_draw draw |>.mp ((assertIdempotentReplay_ok_iff hfrom).mp hreplay)
          refine ⟨Carries.unique htime hsame hcarries, ?_⟩
          rwa [← h.answered]
        · rintro ⟨rfl, hreply⟩
          rw [← h.answered] at hreply
          exact ⟨(assertIdempotentReplay_ok_iff hfrom).mpr ((carries_draw draw).mpr hcarries), hreply⟩
      split
      · next hrepeats =>
          have hprepared : again.prepare (env.draw draw) s = .ok p := hp
          refine ⟨readMailboxDelivery row, h.deliveryIds, ?_⟩
          exact exec_repeat hprepared hfind (haccepts.mpr hrepeats)
      · next hdiffers =>
          refine hthrows fun posted' t hexec => ?_
          obtain ⟨p', hprepared, ⟨existing, hexisting, hok, _, _⟩ | ⟨hnone, _⟩⟩ :=
            exec_ok hexec
          · obtain rfl := Except.ok.inj (hp.symm.trans hprepared)
            obtain rfl := Option.some.inj (hfind.symm.trans hexisting)
            exact hdiffers (haccepts.mp hok)
          · obtain rfl := Except.ok.inj (hp.symm.trans hprepared)
            cases hfind.symm.trans hnone

def requestEnv : MailboxEnv where
  now := ""
  createMessageId := ""
  createDeliveryId := ""
  isBlank value := value = ""
  stringify payload :=
    match payload.get? "content" with
    | some (.str content) => "content: " ++ content
    | _ => ""
  addSeconds start seconds :=
    if start = "2026-01-01T00:00:00.000Z" ∧ seconds = 300 then some "2026-01-01T00:05:00.000Z"
    else none

theorem requestEnv_lawfulTime : requestEnv.LawfulTime where
  nonempty start seconds h := by
    simp only [requestEnv] at h
    split at h
    · exact absurd (Option.some.inj h) (by decide)
    · cases h
  injective start a b time ha hb := by
    simp only [requestEnv, Option.ite_none_right_eq_some] at ha hb
    exact ha.1.2.trans hb.1.2.symm

def requestDraw (n : String) : MailboxDraw where
  now := "2026-01-01T00:00:00.000Z"
  createMessageId := "message-" ++ n
  createDeliveryId := "delivery-" ++ n

def requestInput (content : String) : MailboxSendInput where
  taskId := "task"
  workspacePath := "."
  threadId := "thread"
  fromRoleId := "planner"
  toRoleId := "reviewer"
  kind := some .request
  content := some content
  deadlineSeconds := some 300
  idempotencyKey := "ask-1"

def requestTables : MailboxTables :=
  [(requestDraw "2", MailboxCall.markInjected "delivery-1" "reviewer" "session")].foldl
    (MailboxTables.called requestEnv)
    ((send (requestInput "review")).exec (requestEnv.draw (requestDraw "1")) {}).2

end Newide
