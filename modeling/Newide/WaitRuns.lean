import Newide.WaitReplies

/-!
# Attempts on a mailbox wait

An attempt in each phase of a wait, and any run of attempts.  A reply
that was saved in time is carried through only while a lease on the ask
can be had, which the deadline of the request ends.
-/

namespace Newide

open Fallible Transaction Delivery KeepsOpen Aap ProtocolDelivery

variable {asked begun expiry replied : Timestamp} {reply : AapReplyFrame}

namespace AnsweredWait

variable {text : TextOptions} {wait : AnsweredWait text} {options : AapOptions}
  {d d' : ProtocolDelivery} {now ts : Timestamp}

variable {admission : AapAskAdmission}

theorem ReplyUnused.beginAsk (h : wait.ReplyUnused d)
    (hbegin : Aap.beginAsk options begun (wait.ask asked) d = .ok (admission, d')) :
    wait.ReplyUnused d' := by
  intro replied
  refine Spares.bridge.beginAsk (Spares.receiveInbox ?_) _ _ _ hbegin (h replied)
  intro hsame
  exact wait.askId_ne_replyId (congrArg ProtocolInboxKey.exchangeId hsame).symm

theorem Begun.leased (h : Begun wait expiry begun asked admission d)
    (hwithin : expiry ≤ wait.deadlineAt) (hstored : ∃ row, wait.AskStored d row)
    (hunused : wait.ReplyUnused d) :
    wait.Leased expiry d :=
  ⟨⟨_, h.granted.row, h.granted.claimed.1, h.granted.claimed.2.1, h.granted.lease, h.frame⟩,
    hwithin, hstored, hunused⟩

/-! ### Answering -/

theorem completeReply_settles {u : PUnit}
    (h : completeReply options admission reply d = .ok (u, d')) :
    SettledBy admission.askInbox.key reply.exchangeId d' := by
  unfold completeReply at h
  obtain ⟨record, d₁, hcomplete, h⟩ := chain_eq_ok.mp h
  obtain ⟨hrow, hstatus, hreply⟩ := completeInbox_settles hcomplete
  exact (Reaches.deliverToSystem _ _ _ h).settledBy ⟨record, hrow, hstatus, hreply⟩

theorem recordLateReply_keepsOpen :
    Keeps KeepsOpen (recordLateReply options reply) :=
  bridge.recordLateReply (fun _ => enqueueOutbox)
    fun _ => receiveInbox

theorem classifyReply_duplicate (h : classifyReply admission reply d = .ok (.duplicate, d')) :
    SettledBy admission.askInbox.key reply.exchangeId d := by
  obtain ⟨_, hdisposition, _⟩ := classifyReply_eq_ok.mp h
  split at hdisposition
  next row hfound =>
    obtain ⟨hrow, hcomplete⟩ := Option.filter_eq_some_iff.mp hfound
    split at hdisposition
    next hreply => exact ⟨row, hrow, of_decide_eq_true hcomplete, hreply⟩
    next => cases hdisposition
  next =>
    split at hdisposition
    · cases hdisposition
    · cases hdisposition

theorem Begun.fits (h : Begun wait expiry begun asked admission d) (replied : Timestamp) :
    AskReplyFits admission.askInbox replied (wait.replyFrame replied) := by
  obtain ⟨asked', hframe⟩ := h.frame
  exact ReplyFor.fits ⟨wait.replyInput (wait.askFrame asked'), hframe,
    wait.createReply_eq asked' replied⟩

/-- An ask that was begun accepts the reply inside its lease; otherwise the reply is refused, or it
is recorded as late after the deadline. -/
theorem Begun.answer (h : Begun wait expiry begun asked admission d)
    (hwithin : expiry ≤ wait.deadlineAt) (hstored : ∃ row, wait.AskStored d row)
    (hunused : wait.ReplyUnused d) (hlater : replied < options.leaseAfter replied) :
    ((wait.answer options (wait.ask asked).frame admission replied d).1 = .continued ↔
      replied < expiry) ∧
      wait.Phase replied (wait.answer options (wait.ask asked).frame admission replied d).2 := by
  have hfits := h.fits replied
  have hleased := h.leased hwithin hstored hunused
  have hdeadline : admission.askInbox.frame.deadlineAt = wait.deadlineAt := by
    obtain ⟨asked', hframe⟩ := h.frame
    rw [hframe]
    rfl
  have haccepts : replied < expiry → ∃ d', acceptReply options admission
      (wait.replyFrame replied) d = .ok (.accepted, d') := by
    intro hbefore
    refine h.granted.accepts hfits (hunused replied) ?_ hlater hbefore
    rw [hdeadline]
    exact le_of_lt (lt_of_lt_of_le hbefore hwithin)
  unfold AnsweredWait.answer
  rw [show (wait.ask asked).frame = wait.askFrame asked from rfl, wait.createReply_eq]
  dsimp only
  cases hout : acceptReply options admission (wait.replyFrame replied) d with
  | error e =>
      refine ⟨iff_of_false (fun h => (by cases h)) fun hbefore => ?_, .leased expiry hleased⟩
      obtain ⟨_, haccept⟩ := haccepts hbefore
      cases hout.symm.trans haccept
  | ok out =>
      obtain ⟨disposition, d'⟩ := out
      cases disposition with
      | accepted =>
          have hbefore := h.granted.accepts_in_lease hfits hout
          obtain ⟨row, hrow⟩ := hstored
          refine ⟨iff_of_true rfl hbefore, .answered ⟨?_, ?_⟩⟩
          · have hsettled := completeReply_settles (acceptReply_eq_ok.mp hout).2
            rw [inboxRow_key h.granted.row] at hsettled
            exact hsettled
          · exact hrow.reaches (Reaches.acceptReply _ _ _ hout)
      | late =>
          obtain ⟨hclassify, hrecord⟩ := acceptReply_eq_ok.mp hout
          have hover : wait.deadlineAt < replied := by
            by_contra hin
            have haccept := (h.granted.classify_iff hfits).mpr (hdeadline ▸ not_lt.mp hin)
            cases hclassify.symm.trans haccept
          refine ⟨iff_of_false (fun h => (by cases h)) fun hbefore => ?_, .late hover ?_⟩
          · exact absurd (hbefore.trans_le hwithin) (not_lt_of_gt hover)
          · intro hsettled
            exact hleased.open (recordLateReply_keepsOpen _ _ _ hrecord _ _ hsettled)
      | duplicate =>
          obtain ⟨hclassify, _⟩ := acceptReply_eq_ok.mp hout
          have hsettled := classifyReply_duplicate hclassify
          rw [inboxRow_key h.granted.row] at hsettled
          exact absurd hsettled hleased.open

theorem Answered.answer (h : wait.Answered d)
    (hrow : d.inboxRow wait.askKey = some admission.askInbox) :
    wait.answer options (wait.ask asked).frame admission replied d = (.continued, d) := by
  obtain ⟨row, hrow', hcomplete, hreply⟩ := h.settled
  cases hrow.symm.trans hrow'
  have hkey : admission.askInbox.key = wait.askKey := inboxRow_key hrow
  have hclassify : classifyReply admission (wait.replyFrame replied) d = .ok (.duplicate, d) := by
    refine classifyReply_eq_ok.mpr ⟨?_, ?_, rfl⟩
    · exact congrArg some (congrArg ProtocolInboxKey.exchangeId hkey).symm
    · rw [hkey, hrow]
      simp [Option.filter, hcomplete, hreply, replyFrame]
  have haccept : acceptReply options admission (wait.replyFrame replied) d =
      .ok (.duplicate, d) := acceptReply_eq_ok.mpr ⟨hclassify, rfl⟩
  unfold AnsweredWait.answer
  rw [show (wait.ask asked).frame = wait.askFrame asked from rfl, wait.createReply_eq]
  dsimp only
  rw [haccept]

theorem answer_late (hover : wait.deadlineAt < replied)
    (hopen : ¬ SettledBy wait.askKey wait.replyId d)
    (hrow : d.inboxRow wait.askKey = some admission.askInbox)
    (hcomplete : admission.askInbox.status = .complete) :
    (wait.answer options (wait.ask asked).frame admission replied d).1 ≠ .continued ∧
      wait.Phase replied (wait.answer options (wait.ask asked).frame admission replied d).2 := by
  have hkey : admission.askInbox.key = wait.askKey := inboxRow_key hrow
  unfold AnsweredWait.answer
  rw [show (wait.ask asked).frame = wait.askFrame asked from rfl, wait.createReply_eq]
  dsimp only
  cases hout : acceptReply options admission (wait.replyFrame replied) d with
  | error e => exact ⟨(fun h => (by cases h)), .late hover hopen⟩
  | ok out =>
      obtain ⟨disposition, d'⟩ := out
      obtain ⟨hclassify, hrest⟩ := acceptReply_eq_ok.mp hout
      cases disposition with
      | accepted =>
          obtain ⟨_, hdisposition, _⟩ := classifyReply_eq_ok.mp hclassify
          rw [hkey, hrow] at hdisposition
          simp only [Option.filter, hcomplete, decide_true, if_true] at hdisposition
          split at hdisposition
          · cases hdisposition
          · cases hdisposition
      | late =>
          refine ⟨(fun h => (by cases h)), .late hover fun hsettled => ?_⟩
          exact hopen (recordLateReply_keepsOpen _ _ _ hrest _ _ hsettled)
      | duplicate =>
          have hsettled := classifyReply_duplicate hclassify
          rw [hkey] at hsettled
          exact absurd hsettled hopen

/-! ### Attempts -/

/-- The clock does not run backwards in an attempt, a lease lasts, and `Date.parse` compares its end
with the deadline as the text does. -/
structure Regular (options : AapOptions) (wait : AnsweredWait text) (a : WaitAttempt) : Prop where
  asked_le : a.asked ≤ a.begun
  begun_le : a.begun ≤ a.replied
  begun_lt : a.begun < options.leaseAfter a.begun
  replied_lt : a.replied < options.leaseAfter a.replied
  compared : options.notAfter (options.leaseAfter a.begun) wait.deadlineAt = true ↔
    options.leaseAfter a.begun ≤ wait.deadlineAt

variable {a : WaitAttempt}

theorem Regular.lease_le (h : Regular options wait a) (asked : Timestamp) :
    leaseExpiresAt options a.begun (wait.ask asked) ≤ wait.deadlineAt := by
  unfold leaseExpiresAt
  split
  next hle => exact h.compared.mp hle
  next => exact le_refl _

theorem Regular.lease_iff (h : Regular options wait a) (asked : Timestamp) :
    a.begun < leaseExpiresAt options a.begun (wait.ask asked) ↔ a.begun < wait.deadlineAt := by
  constructor
  · intro hlease
    exact hlease.trans_le (h.lease_le asked)
  · intro hin
    unfold leaseExpiresAt
    split
    next => exact h.begun_lt
    next => exact hin

theorem attempt_open {record : ProtocolOutboxRecord} {d₁ : ProtocolDelivery}
    (hregular : Regular options wait a)
    (hpersist : persistAsk (wait.ask a.asked) d = .ok (record, d₁))
    (hphase : wait.Phase a.begun d₁) (hstored : ∃ row, wait.AskStored d₁ row)
    (hunused : wait.ReplyUnused d₁)
    (hopen : ∀ row, d₁.inboxRow wait.askKey = some row → row.status ≠ .complete)
    (hwithin : expiry ≤ wait.deadlineAt) (hbegins : a.begun < wait.deadlineAt → ∃ admission d₂,
      Aap.beginAsk options a.begun (wait.ask a.asked) d₁ = .ok (admission, d₂) ∧
        Begun wait expiry a.begun a.asked admission d₂) :
    (a.reached = .acceptReply → ((wait.attempt options a d).1 = .continued ↔
      a.begun < wait.deadlineAt ∧ a.replied < expiry)) ∧
      wait.Phase a.replied (wait.attempt options a d).2 := by
  unfold AnsweredWait.attempt
  rw [wait.createAsk_eq]
  simp only [hpersist]
  by_cases hstop : a.reached = .persistAsk
  · rw [if_pos hstop, hstop]
    exact ⟨(fun h => (by cases h)), hphase.mono hregular.begun_le⟩
  rw [if_neg hstop]
  cases hbegin : Aap.beginAsk options a.begun (wait.ask a.asked) d₁ with
  | error e =>
      refine ⟨fun _ => iff_of_false (fun h => (by cases h)) ?_, hphase.mono hregular.begun_le⟩
      rintro ⟨hin, _⟩
      obtain ⟨admission, d₂, hgoes, _⟩ := hbegins hin
      cases hbegin.symm.trans hgoes
  | ok out =>
      obtain ⟨admission, d₂⟩ := out
      have hin : a.begun < wait.deadlineAt := by
        rcases beginAsk_window hbegin with hlease | ⟨hrow, hcomplete⟩
        · exact (hregular.lease_iff a.asked).mp hlease
        · exact absurd hcomplete (hopen _ hrow)
      obtain ⟨_, _, hgoes, hbegun⟩ := hbegins hin
      cases hbegin.symm.trans hgoes
      obtain ⟨row, hrow⟩ := hstored
      have hstored₂ := hrow.reaches (Reaches.beginAsk _ _ _ hbegin)
      have hunused₂ := hunused.beginAsk hbegin
      dsimp only
      by_cases hstop' : a.reached = .beginAsk
      · rw [if_pos hstop', hstop']
        exact ⟨(fun h => (by cases h)), .leased expiry (hbegun.leased hwithin hstored₂ hunused₂)⟩
      · rw [if_neg hstop']
        obtain ⟨hiff, hafter⟩ := hbegun.answer hwithin hstored₂ hunused₂ hregular.replied_lt
        exact ⟨fun _ => hiff.trans ⟨fun h => ⟨hin, h⟩, fun h => h.2⟩, hafter⟩

theorem Answered.attempt (h : wait.Answered d) :
    (a.reached = .acceptReply → (wait.attempt options a d).1 = .continued) ∧
      (wait.attempt options a d).2 = d := by
  obtain ⟨outbox, houtbox⟩ := h.outbox
  obtain ⟨row, hrow, hcomplete, _⟩ := h.settled
  let admission : AapAskAdmission :=
    { shouldExecute := false
      askInbox := row
      askOutbox := outbox.read
      leaseOwner := leaseOwner (wait.ask a.asked) }
  have hbegin : Aap.beginAsk options a.begun (wait.ask a.asked) d = .ok (admission, d) := by
    unfold Aap.beginAsk Aap.requireOutbox
    refine chain_eq_ok.mpr ⟨some row, d, getInbox_eq_ok.mpr ⟨hrow, rfl⟩, chain_eq_ok.mpr
      ⟨outbox.read, d, requireBridgeOutbox_eq_ok.mpr ⟨⟨outbox, houtbox.1, rfl⟩, rfl⟩, ?_⟩⟩
    exact branch_eq_ok.mpr (.inl ⟨hcomplete, done_eq_ok.mpr ⟨rfl, rfl⟩⟩)
  unfold AnsweredWait.attempt
  rw [wait.createAsk_eq]
  have hanswer : wait.answer options (wait.ask a.asked).frame admission a.replied d =
      (.continued, d) := h.answer hrow
  simp only [houtbox.persistAsk, hbegin, hanswer]
  by_cases hstop : a.reached = .persistAsk
  · rw [if_pos hstop, hstop]
    exact ⟨(fun h => (by cases h)), rfl⟩
  · rw [if_neg hstop]
    by_cases hstop' : a.reached = .beginAsk
    · rw [if_pos hstop', hstop']
      exact ⟨(fun h => (by cases h)), rfl⟩
    · rw [if_neg hstop']
      exact ⟨fun _ => rfl, rfl⟩

theorem attempt_late (hregular : Regular options wait a) (hover : wait.deadlineAt < a.asked)
    (hopen : ¬ SettledBy wait.askKey wait.replyId d) :
    (wait.attempt options a d).1 ≠ .continued ∧
      wait.Phase a.replied (wait.attempt options a d).2 := by
  have hbegun := hover.trans_le hregular.asked_le
  have hreplied := hbegun.trans_le hregular.begun_le
  unfold AnsweredWait.attempt
  rw [wait.createAsk_eq]
  dsimp only
  cases hpersist : persistAsk (wait.ask a.asked) d with
  | error e => exact ⟨(fun h => (by cases h)), .late hreplied hopen⟩
  | ok out =>
      obtain ⟨record, d₁⟩ := out
      have hopen₁ : ¬ SettledBy wait.askKey wait.replyId d₁ := fun hsettled => hopen
        (bridge.persistAsk (fun _ _ _ => enqueueOutbox) _ _ _ hpersist _ _
          hsettled)
      dsimp only
      by_cases hstop : a.reached = .persistAsk
      · rw [if_pos hstop]
        exact ⟨(fun h => (by cases h)), .late hreplied hopen₁⟩
      rw [if_neg hstop]
      cases hbegin : Aap.beginAsk options a.begun (wait.ask a.asked) d₁ with
      | error e => exact ⟨(fun h => (by cases h)), .late hreplied hopen₁⟩
      | ok out =>
          obtain ⟨admission, d₂⟩ := out
          have hopen₂ : ¬ SettledBy wait.askKey wait.replyId d₂ := fun hsettled => hopen₁
            (bridge.beginAsk receiveInbox _ _ _ hbegin _ _ hsettled)
          dsimp only
          by_cases hstop' : a.reached = .beginAsk
          · rw [if_pos hstop']
            exact ⟨(fun h => (by cases h)), .late hreplied hopen₂⟩
          · rw [if_neg hstop']
            rcases beginAsk_window hbegin with hlease | ⟨hrow, hcomplete⟩
            · exact absurd ((hregular.lease_iff a.asked).mp hlease) (not_lt_of_gt hbegun)
            · have hrow₂ := (Reaches.beginAsk _ _ _ hbegin).complete hrow hcomplete
              exact answer_late hreplied hopen₂ hrow₂ hcomplete

theorem Phase.attempt (h : wait.Phase a.asked d) (hregular : Regular options wait a) :
    (a.reached = .acceptReply → ((wait.attempt options a d).1 = .continued ↔
      SettledBy wait.askKey wait.replyId d ∨
        (a.begun < wait.deadlineAt ∧ a.replied < wait.leaseEnd options a.begun d))) ∧
      wait.Phase a.replied (wait.attempt options a d).2 := by
  cases h with
  | undelivered h =>
      obtain ⟨record, d₁, row, hpersist, hrow, hclaimable, hundelivered⟩ := h.persistAsk (le_refl _)
      obtain ⟨hiff, hafter⟩ := attempt_open hregular hpersist
        ((Phase.undelivered hundelivered).mono hregular.asked_le) ⟨row, hrow⟩ hundelivered.unused
        (fun row hrow => (by rw [hundelivered.inbox] at hrow; cases hrow))
        (hregular.lease_le a.begun) fun hin => hundelivered.beginAsk hrow
          (hclaimable _ hregular.asked_le) ((hregular.lease_iff a.begun).mpr hin)
      refine ⟨fun hreached => ?_, hafter⟩
      rw [hiff hreached, h.leaseEnd_eq, or_iff_right h.open]
  | leased expiry h =>
      obtain ⟨outbox, houtbox⟩ := h.outbox
      have hopen : ∀ row, d.inboxRow wait.askKey = some row → row.status ≠ .complete := by
        intro row hrow
        obtain ⟨row', hrow', hprocessing, _⟩ := h.inbox
        cases hrow.symm.trans hrow'
        rw [hprocessing]
        decide
      have hwithin : wait.leaseEnd options a.begun d ≤ wait.deadlineAt := by
        rw [h.leaseEnd_eq]
        split
        · exact h.within
        · exact hregular.lease_le a.begun
      obtain ⟨hiff, hafter⟩ := attempt_open hregular (houtbox.persistAsk a.asked)
        (.leased expiry h) h.outbox h.unused hopen hwithin
        fun hin => h.beginAsk ((hregular.lease_iff a.begun).mpr hin)
      refine ⟨fun hreached => ?_, hafter⟩
      rw [hiff hreached, or_iff_right h.open]
  | answered h =>
      have hattempt : (a.reached = .acceptReply → (wait.attempt options a d).1 = .continued) ∧
          (wait.attempt options a d).2 = d := h.attempt
      obtain ⟨hcontinues, hsame⟩ := hattempt
      rw [hsame]
      exact ⟨fun hreached => iff_of_true (hcontinues hreached) (.inl h.settled), .answered h⟩
  | late hover hopen =>
      obtain ⟨hne, hafter⟩ := attempt_late hregular hover hopen
      refine ⟨fun _ => iff_of_false hne ?_, hafter⟩
      rintro (hsettled | ⟨hin, _⟩)
      · exact hopen hsettled
      · exact absurd hin (not_lt_of_gt (hover.trans_le hregular.asked_le))

end AnsweredWait

/-! ## Runs of a wait -/

section
variable {text : TextOptions} {options : AapOptions} {wait : AnsweredWait text}
  {d d' : ProtocolDelivery} {now : Timestamp} {a : WaitAttempt}

structure Undisturbed (wait : AnsweredWait text) (d d' : ProtocolDelivery) : Prop where
  ask : d'.outboxRow ("outbox_" ++ wait.askId) = d.outboxRow ("outbox_" ++ wait.askId)
  askExchange : d'.exchangeRow (.agentAgent, wait.askId) = d.exchangeRow (.agentAgent, wait.askId)
  inbox : d'.inboxRow wait.askKey = d.inboxRow wait.askKey
  reply : d'.outboxRow ("outbox_" ++ wait.replyId) = d.outboxRow ("outbox_" ++ wait.replyId)
  replyExchange : d'.exchangeRow (.agentAgent, wait.replyId) =
    d.exchangeRow (.agentAgent, wait.replyId)
  system : d'.inboxRow ⟨"system", .agentAgent, wait.replyId⟩ =
    d.inboxRow ⟨"system", .agentAgent, wait.replyId⟩

/-- The tables a wait is in at a time: its ask was stored or not, then any attempts were made at
any later times, each stopped anywhere, among deliveries of other exchanges. -/
inductive WaitRun (options : AapOptions) (wait : AnsweredWait text) :
    Timestamp → ProtocolDelivery → Prop where
  | start {now : Timestamp} {d : ProtocolDelivery} :
      wait.Undelivered now d → WaitRun options wait now d
  | attempt {now : Timestamp} {d : ProtocolDelivery} {a : WaitAttempt} :
      WaitRun options wait now d → now ≤ a.asked → AnsweredWait.Regular options wait a →
      WaitRun options wait a.replied (wait.attempt options a d).2
  | others {now : Timestamp} {d d' : ProtocolDelivery} :
      WaitRun options wait now d → Undisturbed wait d d' → WaitRun options wait now d'

theorem Undisturbed.settledBy (h : Undisturbed wait d d') :
    SettledBy wait.askKey wait.replyId d' ↔ SettledBy wait.askKey wait.replyId d := by
  unfold SettledBy
  rw [h.inbox]

theorem Undisturbed.askStored (h : Undisturbed wait d d') {row : ProtocolOutboxRecord} :
    wait.AskStored d' row ↔ wait.AskStored d row := by
  unfold AnsweredWait.AskStored
  rw [h.ask]

theorem Undisturbed.replyUnused (h : Undisturbed wait d d') (hunused : wait.ReplyUnused d) :
    wait.ReplyUnused d' := by
  intro replied
  obtain ⟨houtbox, hexchange, hinbox⟩ := hunused replied
  exact ⟨h.reply.trans houtbox, h.replyExchange.trans hexchange, h.system.trans hinbox⟩

theorem Undisturbed.phase (h : Undisturbed wait d d') (hphase : wait.Phase now d) :
    wait.Phase now d' := by
  cases hphase with
  | undelivered hd =>
      refine .undelivered ⟨h.inbox.trans hd.inbox, ?_, h.replyUnused hd.unused⟩
      rcases hd.outbox with ⟨hid, hexchange⟩ | ⟨row, hrow, hclaimable⟩
      · exact .inl ⟨h.ask.trans hid, h.askExchange.trans hexchange⟩
      · exact .inr ⟨row, h.askStored.mpr hrow, hclaimable⟩
  | leased expiry hd =>
      obtain ⟨row, hrow⟩ := hd.outbox
      refine .leased expiry ⟨?_, hd.within, ⟨row, h.askStored.mpr hrow⟩, h.replyUnused hd.unused⟩
      rw [h.inbox]
      exact hd.inbox
  | answered hd =>
      obtain ⟨row, hrow⟩ := hd.outbox
      exact .answered ⟨h.settledBy.mpr hd.settled, row, h.askStored.mpr hrow⟩
  | late hover hopen => exact .late hover fun hsettled => hopen (h.settledBy.mp hsettled)

theorem WaitRun.phase (h : WaitRun options wait now d) : wait.Phase now d := by
  induction h with
  | start h => exact .undelivered h
  | attempt _ hnow hregular ih => exact ((ih.mono hnow).attempt hregular).2
  | others _ hquiet ih => exact hquiet.phase ih

/-- Whatever attempts were made before, an attempt continues the Task with its reply exactly when
the reply had settled the exchange already, or when the ask is begun before the deadline and the
reply frame is made before the end of the lease on the ask. -/
theorem reply_continues_iff (hrun : WaitRun options wait now d) (hnow : now ≤ a.asked)
    (hregular : AnsweredWait.Regular options wait a) (hreached : a.reached = .acceptReply) :
    (wait.attempt options a d).1 = .continued ↔
      SettledBy wait.askKey wait.replyId d ∨
        (a.begun < wait.deadlineAt ∧ a.replied < wait.leaseEnd options a.begun d) :=
  ((hrun.phase.mono hnow).attempt hregular).1 hreached

end

/-! ## A reply that is lost -/

def sampleText : TextOptions where
  trim content := content
  stringify _ := "{}"

/-- A question until 00:45 that was answered at 00:10. -/
def sampleWait : AnsweredWait sampleText where
  runId := "r"
  source :=
    { message :=
        { messageId := "m", taskId := "t", workspacePath := "/w", threadId := "th"
          fromRoleId := "coder", content := some "Which API?", type := "question"
          idempotencyKey := "k", createdAt := "2026-01-01T00:00:00.000Z" }
      delivery :=
        { deliveryId := "d", messageId := "m", taskId := "t", workspacePath := "/w"
          recipientRoleId := "expert", status := .acknowledged
          deadlineAt := some "2026-01-01T00:45:00.000Z"
          createdAt := "2026-01-01T00:00:00.000Z", updatedAt := "2026-01-01T00:10:00.000Z" } }
  reply :=
    { message :=
        { messageId := "n", taskId := "t", workspacePath := "/w", threadId := "th"
          fromRoleId := "expert", content := some "The first", type := "answer"
          replyToMessageId := some "m", idempotencyKey := "k2"
          createdAt := "2026-01-01T00:10:00.000Z" }
      delivery :=
        { deliveryId := "e", messageId := "n", taskId := "t", workspacePath := "/w"
          recipientRoleId := "coder", status := .pending
          createdAt := "2026-01-01T00:10:00.000Z", updatedAt := "2026-01-01T00:10:00.000Z" } }
  deadlineAt := "2026-01-01T00:45:00.000Z"
  deadline_eq := rfl
  onTime := by decide
  run_ne := by decide
  task_ne := by decide
  sender_ne := by decide
  recipient_ne := by decide
  text_ne := by decide

def attemptAt (ts : Timestamp) (reached : Reached) : WaitAttempt where
  asked := ts
  begun := ts
  replied := ts
  reached

theorem sampleWait_undelivered : sampleWait.Undelivered "2026-01-01T00:00:00.000Z" .empty :=
  ⟨rfl, .inl ⟨rfl, rfl⟩, fun _ => ⟨rfl, rfl, rfl⟩⟩

theorem attemptAt_regular {ts : Timestamp} {reached : Reached}
    (hlease : ts < sampleOptions.leaseAfter ts) :
    AnsweredWait.Regular sampleAapOptions sampleWait (attemptAt ts reached) :=
  ⟨le_refl _, le_refl _, hlease, hlease, by simp [sampleAapOptions]⟩

/-- The attempt of 00:10 continues the Task. -/
theorem reply_continues_sample : (sampleWait.attempt sampleAapOptions
    (attemptAt "2026-01-01T00:10:00.000Z" .acceptReply) .empty).1 = .continued :=
  (reply_continues_iff (.start sampleWait_undelivered) (by decide)
    (attemptAt_regular (by decide)) rfl).mpr (.inr (by decide))

/-- The process stops after it has begun the ask, and is back at 00:50: the reply of 00:10 is not
delivered, and the error goes to `blockMailboxDeadlock`. -/
theorem reply_lost_after_deadline : ∃ now d, WaitRun sampleAapOptions sampleWait now d ∧
    now ≤ "2026-01-01T00:50:00.000Z" ∧
    (sampleWait.attempt sampleAapOptions (attemptAt "2026-01-01T00:50:00.000Z" .acceptReply) d).1 =
      .threw (.error "Lease expiry must be after now") :=
  ⟨_, _, .attempt (a := attemptAt "2026-01-01T00:00:00.000Z" .beginAsk)
    (.start sampleWait_undelivered) (by decide) (attemptAt_regular (by decide)), by decide,
    by decide⟩

end Newide
