import Newide.Memory.FeedbackProcessor

/-!
# What the feedback processor keeps

A feedback is parked, or in the history of its Experience, before its
delivery is acknowledged; and it is in the history before its parked
record is acknowledged.  What makes it so is only ever added to.  The
history itself says which feedbacks were applied, and it is read and
written with nothing in between.
-/

namespace Newide.Memory

open Fallible Relation DeliveryStore

/-! ## The histories -/

/-- The feedback is in the history of the Experience it names. -/
def MemoryRepository.Applied (repo : MemoryRepository) (content : DriverFeedbackContent) : Prop :=
  ∃ experience ∈ repo.experience? content.roleId content.experienceId,
    content.feedbackId ∈ experience.feedbackIds

/-- Each feedback in a history is there once, and has been counted once. -/
def ExperienceRecord.Counted (experience : ExperienceRecord) : Prop :=
  experience.feedbackIds.Nodup ∧ experience.referencedCount = experience.feedbackIds.length

def MemoryRepository.Counted (repo : MemoryRepository) : Prop :=
  ∀ (roleId experienceId : String) (experience : ExperienceRecord),
    repo.experience? roleId experienceId = some experience → experience.Counted

section
variable {parting : Prop} {repo next : MemoryRepository} {content : DriverFeedbackContent}

theorem ExperienceEffect.feedbackIds {store : RoleStore} {experience after : ExperienceRecord}
    (h : ExperienceEffect parting store experience after) :
    (after.feedbackIds = experience.feedbackIds ∧
      after.referencedCount = experience.referencedCount) ∨
    ∃ feedbackId, feedbackId ∉ experience.feedbackIds ∧
      after.feedbackIds = experience.feedbackIds ++ [feedbackId] ∧
      after.referencedCount = experience.referencedCount + 1 := by
  cases h with
  | @feedback input now hnew =>
      refine .inr ⟨input.feedbackId, ?_, applyFeedback_feedbackIds, rfl⟩
      rw [← isFeedbackApplied_iff, hnew]
      exact Bool.false_ne_true
  | marked | turnedDown | promoted => exact .inl ⟨rfl, rfl⟩

theorem MemoryEffect.applied (h : MemoryEffect parting repo next) (happlied : repo.Applied content) :
    next.Applied content := by
  obtain ⟨experience, hat, hin⟩ := happlied
  have hlookup := h.lookup content.roleId content.experienceId
  rw [Option.mem_def.mp hat] at hlookup
  generalize hafter : next.experience? content.roleId content.experienceId = found at hlookup
  cases hlookup with
  | same => exact ⟨experience, hafter, hin⟩
  | wrote he =>
      refine ⟨_, hafter, ?_⟩
      rcases he.feedbackIds with ⟨hsame, _⟩ | ⟨feedbackId, _, hadded, _⟩
      · exact hsame ▸ hin
      · exact hadded ▸ List.mem_append_left _ hin

theorem MemoryEffect.counted (h : MemoryEffect parting repo next) (hcounted : repo.Counted) :
    next.Counted := by
  intro role id experience hat
  have hlookup := h.lookup role id
  rw [hat] at hlookup
  generalize hbefore : repo.experience? role id = found at hlookup
  cases hlookup with
  | same => exact hcounted role id experience hbefore
  | saved hnew =>
      obtain ⟨_, _, hcount, hids⟩ := hnew
      exact ⟨hids ▸ List.nodup_nil, by rw [hcount, hids]; rfl⟩
  | wrote he =>
      obtain ⟨hnodup, hcount⟩ := hcounted role id _ hbefore
      rcases he.feedbackIds with ⟨hids, hsame⟩ | ⟨feedbackId, hnew, hids, hadded⟩
      · exact ⟨hids ▸ hnodup, by rw [hsame, hids, hcount]⟩
      · refine ⟨?_, by rw [hadded, hids, hcount, List.length_append]; rfl⟩
        rw [hids, List.nodup_append]
        refine ⟨hnodup, List.nodup_singleton _, fun id hid other hother hsame => ?_⟩
        rw [List.mem_singleton.mp hother] at hsame
        exact hnew (hsame ▸ hid)

theorem MemoryEffects.applied (h : MemoryEffects parting repo next)
    (happlied : repo.Applied content) : next.Applied content := by
  induction h with
  | refl => exact happlied
  | tail _ hlast ih => exact hlast.applied ih

theorem MemoryEffects.counted (h : MemoryEffects parting repo next) (hcounted : repo.Counted) :
    next.Counted := by
  induction h with
  | refl => exact hcounted
  | tail _ hlast ih => exact hlast.counted ih

theorem applyExperienceFeedback_applied {now : Time} {result : ExperienceFeedbackResult}
    (h : repo.applyExperienceFeedback content.roleId (feedbackApplicationOf content) now =
      .ok (result, next)) (hfound : result.outcome ≠ .experienceMissing) :
    next.Applied content := by
  rcases applyExperienceFeedback_cases h with ⟨hmissing, _⟩ | ⟨current, hcurrent, h⟩
  · exact absurd hmissing hfound
  · rcases h with ⟨_, happlied, rfl⟩ | ⟨_, _, rfl⟩
    · exact ⟨current, hcurrent, isFeedbackApplied_iff.mp happlied⟩
    · refine ⟨_, MemoryRepository.experience?_writeExperience hcurrent rfl, ?_⟩
      rw [applyFeedback_feedbackIds]
      exact List.mem_append_right _ (List.mem_singleton_self _)

end

/-! ## What is kept -/

/-- The feedback is parked, or applied. -/
def FeedbackState.Safe (s : FeedbackState) (content : DriverFeedbackContent) : Prop :=
  (∃ record, s.pending.read content.recordKey = some record) ∨ s.repository.Applied content

structure FeedbackState.Grows (s t : FeedbackState) : Prop where
  outbox : ∀ key record, s.outbox.read key = some record →
    ∃ next, t.outbox.read key = some next ∧ next.item = record.item
  pending : ∀ key record, s.pending.read key = some record →
    ∃ next, t.pending.read key = some next ∧ next.item = record.item
  applied : ∀ content, s.repository.Applied content → t.repository.Applied content

/-- What an application that ended with `outcome` has left. -/
def FeedbackCall.Settles (call : FeedbackCall) (s : FeedbackState)
    (outcome : ExperienceFeedbackOutcome) : Prop :=
  match call.channel with
  | .feedback => s.Safe call.content
  | .pendingFeedback => outcome = .experienceMissing ∨ s.repository.Applied call.content

def FeedbackCall.Evidence (options : FeedbackOptions) (call : FeedbackCall) (s : FeedbackState) :
    Prop :=
  match call.point with
  | .applying => call.content.Valid options.runtime
  | .parking => call.content.Valid options.runtime ∧ call.channel = .feedback
  | .stopping (.done outcome) => call.content.Valid options.runtime ∧ call.Settles s outcome
  | .completing outcome =>
      call.content.Valid options.runtime ∧ call.Settles s outcome ∧
        (call.channel = .pendingFeedback → outcome ≠ .experienceMissing)
  | _ => True

/-- A call works on the content of its own record. -/
structure FeedbackCall.Kept (options : FeedbackOptions) (s : FeedbackState) (call : FeedbackCall) :
    Prop where
  delivered : ∃ record, s.outbox.read call.key = some record ∧ record.item = call.content
  parked : call.channel = .pendingFeedback →
    ∃ record, s.pending.read call.key = some record ∧ record.item.feedback = call.content
  evidence : call.Evidence options s

structure FeedbackState.Kept (options : FeedbackOptions) (s : FeedbackState) : Prop where
  outbox : ∀ key record, s.outbox.read key = some record → record.item.recordKey = key ∧
    (record.status = .processed → record.item.Valid options.runtime ∧ s.Safe record.item)
  pending : ∀ key record, s.pending.read key = some record →
    (∃ delivery, s.outbox.read key = some delivery ∧ delivery.item = record.item.feedback) ∧
    (record.status = .processed → s.repository.Applied record.item.feedback)
  claimedFeedback : ∀ candidate ∈ s.claimedFeedback, ∃ record,
    s.outbox.read candidate.key = some record ∧ record.item = candidate.record.item
  claimedPending : ∀ candidate ∈ s.claimedPending, ∃ record,
    s.pending.read candidate.key = some record ∧ record.item = candidate.record.item
  calls : ∀ call ∈ s.calls, call.Kept options s
  counted : s.repository.Counted

variable {finishes : DeliveryKey → Prop}

section
variable {options : FeedbackOptions} {s t : FeedbackState} {call : FeedbackCall}
  {content : DriverFeedbackContent} {index : Nat}

theorem FeedbackState.Grows.safe (h : s.Grows t) (hsafe : s.Safe content) : t.Safe content := by
  rcases hsafe with ⟨record, hread⟩ | happlied
  · obtain ⟨next, hnext, _⟩ := h.pending _ _ hread
    exact .inl ⟨next, hnext⟩
  · exact .inr (h.applied content happlied)

theorem FeedbackState.Grows.settles {outcome : ExperienceFeedbackOutcome} (h : s.Grows t)
    (hsettles : call.Settles s outcome) : call.Settles t outcome := by
  unfold FeedbackCall.Settles at hsettles ⊢
  cases hchannel : call.channel with
  | feedback =>
      rw [hchannel] at hsettles
      exact h.safe hsettles
  | pendingFeedback =>
      rw [hchannel] at hsettles
      exact hsettles.imp_right (h.applied _)

theorem FeedbackCall.Kept.grows (hcall : call.Kept options s) (h : s.Grows t) :
    call.Kept options t where
  delivered := by
    obtain ⟨record, hread, hitem⟩ := hcall.delivered
    obtain ⟨next, hnext, hsame⟩ := h.outbox _ _ hread
    exact ⟨next, hnext, hsame.trans hitem⟩
  parked hchannel := by
    obtain ⟨record, hread, hitem⟩ := hcall.parked hchannel
    obtain ⟨next, hnext, hsame⟩ := h.pending _ _ hread
    exact ⟨next, hnext, hsame ▸ hitem⟩
  evidence := by
    have hevidence := hcall.evidence
    unfold Evidence at hevidence ⊢
    cases hpoint : call.point with
    | applying | parking | failing | finished =>
        rw [hpoint] at hevidence
        exact hevidence
    | stopping attempt =>
        rw [hpoint] at hevidence
        cases attempt with
        | done outcome => exact ⟨hevidence.1, h.settles hevidence.2⟩
        | failed => exact trivial
    | completing outcome =>
        rw [hpoint] at hevidence
        exact ⟨hevidence.1, h.settles hevidence.2.1, hevidence.2.2⟩

/-! ### One part of the state at a time -/

theorem FeedbackState.Kept.repository {repository : MemoryRepository} (h : s.Kept options)
    (heffects : MemoryEffects False s.repository repository) :
    FeedbackState.Kept options { s with repository } := by
  have hgrows : s.Grows { s with repository } :=
    { outbox := fun _ record hread => ⟨record, hread, rfl⟩
      pending := fun _ record hread => ⟨record, hread, rfl⟩
      applied := fun _ => MemoryEffects.applied heffects }
  exact
    { outbox := fun key record hread =>
        ⟨(h.outbox key record hread).1,
          fun hprocessed => ((h.outbox key record hread).2 hprocessed).imp_right hgrows.safe⟩
      pending := fun key record hread =>
        ⟨(h.pending key record hread).1,
          fun hprocessed => hgrows.applied _ ((h.pending key record hread).2 hprocessed)⟩
      claimedFeedback := h.claimedFeedback
      claimedPending := h.claimedPending
      calls := fun call hin => (h.calls call hin).grows hgrows
      counted := MemoryEffects.counted heffects h.counted }

theorem FeedbackState.Kept.outboxEvolves {outbox : DeliveryStore DriverFeedbackContent}
    (h : s.Kept options) (hevolves : s.outbox.Evolves finishes outbox)
    (hfinish : ∀ key record, finishes key → s.outbox.read key = some record →
      record.item.Valid options.runtime ∧ s.Safe record.item) :
    FeedbackState.Kept options { s with outbox } := by
  have hgrows : s.Grows { s with outbox } :=
    { outbox := hevolves.kept
      pending := fun _ record hread => ⟨record, hread, rfl⟩
      applied := fun _ happlied => happlied }
  refine
    { outbox := fun key next hread => ?_
      pending := fun key record hread => ?_
      claimedFeedback := fun candidate hin => ?_
      claimedPending := h.claimedPending
      calls := fun call hin => (h.calls call hin).grows hgrows
      counted := h.counted }
  · obtain ⟨record, hbefore, hitem, hstatus⟩ := hevolves.back key next hread
    obtain ⟨hkey, hsafe⟩ := h.outbox key record hbefore
    rw [hitem]
    refine ⟨hkey, fun hprocessed => ?_⟩
    rcases hstatus hprocessed with hbefore' | hfinishes
    · exact hsafe hbefore'
    · exact hfinish key record hfinishes hbefore
  · obtain ⟨⟨delivery, hdelivery, hsame⟩, happlied⟩ := h.pending key record hread
    obtain ⟨next, hnext, hitem⟩ := hevolves.kept key delivery hdelivery
    exact ⟨⟨next, hnext, hitem.trans hsame⟩, happlied⟩
  · obtain ⟨record, hread, hsame⟩ := h.claimedFeedback candidate hin
    obtain ⟨next, hnext, hitem⟩ := hevolves.kept _ record hread
    exact ⟨next, hnext, hitem.trans hsame⟩

/-- Records of the parking lot move; the ones that become processed are applied. -/
theorem FeedbackState.Kept.pendingEvolves {pending : DeliveryStore PendingFeedback}
    (h : s.Kept options) (hevolves : s.pending.Evolves finishes pending)
    (hfinish : ∀ key record, finishes key → s.pending.read key = some record →
      s.repository.Applied record.item.feedback) :
    FeedbackState.Kept options { s with pending } := by
  have hgrows : s.Grows { s with pending } :=
    { outbox := fun _ record hread => ⟨record, hread, rfl⟩
      pending := hevolves.kept
      applied := fun _ happlied => happlied }
  refine
    { outbox := fun key record hread => ?_
      pending := fun key next hread => ?_
      claimedFeedback := h.claimedFeedback
      claimedPending := fun candidate hin => ?_
      calls := fun call hin => (h.calls call hin).grows hgrows
      counted := h.counted }
  · obtain ⟨hkey, hsafe⟩ := h.outbox key record hread
    exact ⟨hkey, fun hprocessed => (hsafe hprocessed).imp_right hgrows.safe⟩
  · obtain ⟨record, hbefore, hitem, hstatus⟩ := hevolves.back key next hread
    obtain ⟨hdelivery, happlied⟩ := h.pending key record hbefore
    rw [hitem]
    refine ⟨hdelivery, fun hprocessed => ?_⟩
    rcases hstatus hprocessed with hbefore' | hfinishes
    · exact happlied hbefore'
    · exact hfinish key record hfinishes hbefore
  · obtain ⟨record, hread, hsame⟩ := h.claimedPending candidate hin
    obtain ⟨next, hnext, hitem⟩ := hevolves.kept _ record hread
    exact ⟨next, hnext, hitem.trans hsame⟩

theorem FeedbackState.Kept.withCalls {calls : List FeedbackCall} (h : s.Kept options)
    (hcalls : ∀ call ∈ calls, call ∈ s.calls ∨ call.Kept options s) :
    FeedbackState.Kept options { s with calls } where
  outbox := h.outbox
  pending := h.pending
  claimedFeedback := h.claimedFeedback
  claimedPending := h.claimedPending
  calls found hin := by
    have hkept := (hcalls found hin).elim (h.calls found) fun hkept => hkept
    exact ⟨hkept.delivered, hkept.parked, hkept.evidence⟩
  counted := h.counted

variable {next : FeedbackCall}

theorem FeedbackState.Kept.setCall (h : s.Kept options) (hcall : next.Kept options s) :
    FeedbackState.Kept options { s with calls := s.calls.set index next } :=
  h.withCalls fun _ hin =>
    (List.mem_or_eq_of_mem_set hin).imp_right fun heq => by
      rw [heq]
      exact hcall

theorem FeedbackState.Kept.beginCall (h : s.Kept options) (hcall : next.Kept options s) :
    FeedbackState.Kept options { s with calls := s.calls ++ [next] } :=
  h.withCalls fun _ hin =>
    (List.mem_append.mp hin).imp_right fun heq => by
      rw [List.mem_singleton.mp heq]
      exact hcall

theorem FeedbackState.Kept.submit (h : s.Kept options) (content : DriverFeedbackContent)
    (now : Time) :
    FeedbackState.Kept options
      { s with outbox := s.outbox.submit content.recordKey { item := content, updatedAt := now } } := by
  generalize hnew : ({ item := content, updatedAt := now } : DeliveryRecord DriverFeedbackContent) = new
  have hgrows : s.Grows { s with outbox := s.outbox.submit content.recordKey new } :=
    { outbox := fun _ record hbefore => ⟨record, submit_kept hbefore, rfl⟩
      pending := fun _ record hbefore => ⟨record, hbefore, rfl⟩
      applied := fun _ happlied => happlied }
  refine
    { outbox := fun key record hafter => ?_
      pending := fun key record hbefore => ?_
      claimedFeedback := fun candidate hin => ?_
      claimedPending := h.claimedPending
      calls := fun call hin => (h.calls call hin).grows hgrows
      counted := h.counted }
  · rcases submit_cases hafter with hbefore | ⟨rfl, rfl⟩
    · exact h.outbox key record hbefore
    · subst hnew
      exact ⟨rfl, nofun⟩
  · obtain ⟨⟨delivery, hdelivery, hsame⟩, happlied⟩ := h.pending key record hbefore
    exact ⟨⟨delivery, submit_kept hdelivery, hsame⟩, happlied⟩
  · obtain ⟨record, hbefore, hsame⟩ := h.claimedFeedback candidate hin
    exact ⟨record, submit_kept hbefore, hsame⟩

theorem FeedbackState.Kept.park (h : s.Kept options) (now : Time)
    (hdelivered : ∃ record, s.outbox.read content.recordKey = some record ∧ record.item = content) :
    FeedbackState.Kept options
      { s with pending :=
          s.pending.submit content.recordKey (buildPendingFeedbackRecord content now) } := by
  generalize hnew : buildPendingFeedbackRecord content now = new
  have hgrows : s.Grows { s with pending := s.pending.submit content.recordKey new } :=
    { outbox := fun _ record hbefore => ⟨record, hbefore, rfl⟩
      pending := fun _ record hbefore => ⟨record, submit_kept hbefore, rfl⟩
      applied := fun _ happlied => happlied }
  refine
    { outbox := fun key record hbefore => ?_
      pending := fun key record hafter => ?_
      claimedFeedback := h.claimedFeedback
      claimedPending := fun candidate hin => ?_
      calls := fun call hin => (h.calls call hin).grows hgrows
      counted := h.counted }
  · obtain ⟨hkey, hsafe⟩ := h.outbox key record hbefore
    exact ⟨hkey, fun hprocessed => (hsafe hprocessed).imp_right hgrows.safe⟩
  · rcases submit_cases hafter with hbefore | ⟨rfl, rfl⟩
    · exact h.pending key record hbefore
    · subst hnew
      exact ⟨hdelivered, nofun⟩
  · obtain ⟨record, hbefore, hsame⟩ := h.claimedPending candidate hin
    exact ⟨record, submit_kept hbefore, hsame⟩

end

/-! ### Queues -/

section
variable {α : Type} {policy : DeliveryRetryPolicy} {store : DeliveryStore α} {step : DeliveryStep}

theorem queue_evolves (hqueue : step.call.isQueue = true) :
    store.Evolves (fun _ => False) (store.step policy step) := by
  refine .of_recordStep (store.step_cases policy step) fun key input version hallows => ?_
  cases hcall : step.call with
  | complete | fail =>
      rw [hcall] at hqueue
      cases hqueue
  | claimNext | restoreExpired =>
      rw [hcall] at hallows
      cases hallows
  | claim | renew | retryDeadLetter =>
      rw [hcall] at hallows
      cases hallows.2

theorem queue_claimed (hclaim : step.call.isClaim = true) :
    ∀ candidate ∈ step.returned policy store,
      (store.step policy step).read candidate.key = some candidate.record := by
  unfold DeliveryStep.returned DeliveryStore.step
  cases hexec : step.call.exec policy step.locks store with
  | error message => exact fun candidate hin => (by cases hin)
  | ok answer => exact DeliveryCall.claimed_read hclaim hexec

theorem mutateRecord_evolves {locks : Locks} {key : DeliveryKey} {move : DeliveryMove}
    {answer : Option (DeliveryRecord α)} {after : DeliveryStore α}
    (h : mutateRecord policy locks store key move = .ok (answer, after)) :
    store.Evolves (fun other => other = key ∧ ∃ input version, move = .complete input version)
      after := by
  refine .of_recordStep (mutateRecord_step h) fun other input version hallows => ?_
  exact ⟨hallows.1.symm, input, version, hallows.2.symm⟩

end

end Newide.Memory
