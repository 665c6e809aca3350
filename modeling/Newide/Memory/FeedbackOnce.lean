import Newide.Memory.FeedbackKept

/-!
# Feedback is applied once and never lost

Every step of the system keeps what `FeedbackKept` says, wherever its
calls have got to.  So a feedback that was submitted is somewhere, after
any run.
-/

namespace Newide.Memory

open Fallible FeedbackState DeliveryStore

/-! ## Steps -/

variable {delivery : DeliveryCandidate DriverFeedbackContent} {locks : Locks} {move : DeliveryMove}
  {now : Time} {outcome : {α : Type} → Option (DeliveryRecord α) → FeedbackProcessOutcome}
  {pending : DeliveryCandidate PendingFeedback} {point : FeedbackPoint} {workerId : String}

section
variable {options : FeedbackOptions} {s : FeedbackState} {call : FeedbackCall} {index : Nat}

theorem FeedbackCall.Kept.goto (h : call.Kept options s)
    (hevidence : FeedbackCall.Evidence options { call with point } s) :
    FeedbackCall.Kept options s { call with point } where
  delivered := h.delivered
  parked := h.parked
  evidence := hevidence

theorem FeedbackState.Kept.moveTo (h : s.Kept options) (hin : call ∈ s.calls)
    (hevidence : FeedbackCall.Evidence options { call with point } s) :
    (s.moveTo index call point).Kept options :=
  h.setCall ((h.calls call hin).goto hevidence)

/-! ### A call begins -/

theorem beginProcess_evidence :
    (beginProcess options.runtime workerId delivery).Evidence options s := by
  unfold beginProcess FeedbackCall.Evidence
  by_cases htoken : delivery.record.claimToken.all (· = "")
  · simp only [if_pos htoken]
  · simp only [if_neg htoken]
    cases hvalid : validateFeedback options.runtime delivery.record.item with
    | some invalid => exact trivial
    | none => exact hvalid

theorem beginReconcile_evidence :
    (beginReconcile options.runtime workerId pending).Evidence options s := by
  unfold beginReconcile FeedbackCall.Evidence
  by_cases htoken : pending.record.claimToken.all (· = "")
  · simp only [if_pos htoken]
  · by_cases hmismatch : pendingFeedbackBindingMismatches pending.key pending.record.item ≠ []
    · simp only [if_neg htoken, if_pos hmismatch]
    · simp only [if_neg htoken, if_neg hmismatch]
      cases hvalid : validateFeedback options.runtime pending.record.item.feedback with
      | some invalid => exact trivial
      | none => exact hvalid

theorem FeedbackState.Kept.process (h : s.Kept options) (hin : delivery ∈ s.claimedFeedback)
    (workerId : String) :
    FeedbackState.Kept options
      { s with calls := s.calls ++ [beginProcess options.runtime workerId delivery] } :=
  h.beginCall
    { delivered := h.claimedFeedback delivery hin
      parked := fun hchannel => (by cases hchannel)
      evidence := beginProcess_evidence }

theorem FeedbackState.Kept.reconcile (h : s.Kept options) (hin : pending ∈ s.claimedPending)
    (workerId : String) :
    FeedbackState.Kept options
      { s with calls := s.calls ++ [beginReconcile options.runtime workerId pending] } := by
  obtain ⟨record, hread, hitem⟩ := h.claimedPending pending hin
  obtain ⟨⟨delivery, hdelivery, hsame⟩, _⟩ := h.pending pending.key record hread
  rw [hitem] at hsame
  exact h.beginCall
    { delivered := ⟨delivery, hdelivery, hsame⟩
      parked := fun _ => ⟨record, hread, congrArg PendingFeedback.feedback hitem⟩
      evidence := beginReconcile_evidence }

/-! ### A call goes on -/

theorem FeedbackState.Kept.apply {repository : MemoryRepository} {result : ExperienceFeedbackResult}
    (h : s.Kept options) (hin : call ∈ s.calls) (hvalid : call.content.Valid options.runtime)
    (happly : s.repository.applyExperienceFeedback call.content.roleId
      (feedbackApplicationOf call.content) now = .ok (result, repository)) :
    (FeedbackState.moveTo { s with repository } index call
      (if call.channel = .feedback ∧ result.outcome = .experienceMissing then .parking
        else .stopping (.done result.outcome))).Kept options := by
  have hafter : FeedbackState.Kept options { s with repository } :=
    h.repository (applyExperienceFeedback_effects happly)
  refine hafter.moveTo hin ?_
  by_cases hmissing : result.outcome = .experienceMissing
  · by_cases hchannel : call.channel = .feedback
    · rw [if_pos ⟨hchannel, hmissing⟩]
      exact ⟨hvalid, hchannel⟩
    · rw [if_neg fun hboth => hchannel hboth.1]
      refine ⟨hvalid, ?_⟩
      unfold FeedbackCall.Settles
      cases hpending : call.channel with
      | feedback => exact absurd hpending hchannel
      | pendingFeedback => exact .inl hmissing
  · rw [if_neg fun hboth => hmissing hboth.2]
    have happlied : repository.Applied call.content :=
      applyExperienceFeedback_applied happly hmissing
    refine ⟨hvalid, ?_⟩
    unfold FeedbackCall.Settles
    cases call.channel with
    | feedback => exact .inr happlied
    | pendingFeedback => exact .inr happlied

theorem FeedbackState.Kept.parkCall (h : s.Kept options) (hin : call ∈ s.calls)
    (hvalid : call.content.Valid options.runtime) (hchannel : call.channel = .feedback)
    (now : Time) :
    (FeedbackState.moveTo
      { s with pending := s.pending.submit call.content.recordKey
                (buildPendingFeedbackRecord call.content now) }
      index call (.stopping (.done .experienceMissing))).Kept options := by
  obtain ⟨record, hread, hitem⟩ := (h.calls call hin).delivered
  have hkey : call.content.recordKey = call.key := hitem ▸ (h.outbox call.key record hread).1
  have hafter := h.park now ⟨record, hkey ▸ hread, hitem⟩
  refine hafter.moveTo hin ⟨hvalid, ?_⟩
  unfold FeedbackCall.Settles
  rw [hchannel]
  exact .inl ⟨_, by rw [read_submit, if_pos rfl]⟩

def FeedbackCall.Done (call : FeedbackCall) (s : FeedbackState) : Prop :=
  match call.channel with
  | .feedback => s.Safe call.content
  | .pendingFeedback => s.repository.Applied call.content

/-- The record of a call is settled; a completion takes what the call has left. -/
theorem FeedbackState.Kept.settle (h : s.Kept options) (hin : call ∈ s.calls)
    (hdone : ∀ input version, move = .complete input version →
      call.content.Valid options.runtime ∧ call.Done s) :
    (s.settle options index call locks move outcome).Kept options := by
  have hcall := h.calls call hin
  unfold FeedbackState.settle
  unfold FeedbackCall.Done at hdone
  cases hchannel : call.channel with
  | feedback =>
      rw [hchannel] at hdone
      cases hmove : mutateRecord options.feedbackPolicy locks s.outbox call.key move with
      | error message => exact h.moveTo hin trivial
      | ok answer =>
          obtain ⟨found, outbox⟩ := answer
          refine (h.outboxEvolves (mutateRecord_evolves hmove) ?_).moveTo hin trivial
          rintro key record ⟨rfl, input, version, hcomplete⟩ hread
          obtain ⟨delivery, hdelivery, hitem⟩ := hcall.delivered
          obtain rfl := Option.some.inj (hdelivery.symm.trans hread)
          exact hitem ▸ hdone input version hcomplete
  | pendingFeedback =>
      rw [hchannel] at hdone
      cases hmove : mutateRecord options.pendingPolicy locks s.pending call.key move with
      | error message => exact h.moveTo hin trivial
      | ok answer =>
          obtain ⟨found, pending⟩ := answer
          refine (h.pendingEvolves (mutateRecord_evolves hmove) ?_).moveTo hin trivial
          rintro key record ⟨rfl, input, version, hcomplete⟩ hread
          obtain ⟨parked, hparked, hitem⟩ := hcall.parked hchannel
          obtain rfl := Option.some.inj (hparked.symm.trans hread)
          exact hitem ▸ (hdone input version hcomplete).2

theorem FeedbackState.afterLease_evidence {attempt : ApplyAttempt}
    (h : FeedbackCall.Evidence options { call with point := .stopping attempt } s) :
    FeedbackCall.Evidence options { call with point := afterLease call attempt } s := by
  unfold FeedbackCall.Evidence afterLease
  by_cases hlost : call.lost = true
  · simp only [if_pos hlost]
  · cases attempt with
    | failed failure => simp only [if_neg hlost]
    | done outcome =>
        simp only [if_neg hlost]
        by_cases hmissing : call.channel = .pendingFeedback ∧ outcome = .experienceMissing
        · simp only [if_pos hmissing]
        · simp only [if_neg hmissing]
          exact ⟨h.1, h.2, fun hchannel houtcome => hmissing ⟨hchannel, houtcome⟩⟩

theorem FeedbackState.Kept.advance (h : s.Kept options) (hin : call ∈ s.calls) :
    (s.advance options index call locks now).Kept options := by
  have hevidence := (h.calls call hin).evidence
  unfold FeedbackCall.Evidence at hevidence
  unfold FeedbackState.advance
  cases hpoint : call.point with
  | applying =>
      rw [hpoint] at hevidence
      cases happly : s.repository.applyExperienceFeedback call.content.roleId
          (feedbackApplicationOf call.content) now with
      | error message => exact h.moveTo hin trivial
      | ok answer => exact h.apply hin hevidence happly
  | parking =>
      rw [hpoint] at hevidence
      exact h.parkCall hin hevidence.1 hevidence.2 now
  | stopping attempt =>
      rw [hpoint] at hevidence
      exact h.moveTo hin (afterLease_evidence hevidence)
  | completing outcome =>
      rw [hpoint] at hevidence
      obtain ⟨hvalid, hsettles, hfound⟩ := hevidence
      refine h.settle hin fun input version hmove => ⟨hvalid, ?_⟩
      unfold FeedbackCall.Settles at hsettles
      unfold FeedbackCall.Done
      cases hchannel : call.channel with
      | feedback =>
          rw [hchannel] at hsettles
          exact hsettles
      | pendingFeedback =>
          rw [hchannel] at hsettles
          exact hsettles.resolve_left (hfound hchannel)
  | failing failure => exact h.settle hin fun input version hmove => (by cases hmove)
  | finished outcome => exact h

theorem FeedbackState.Kept.throws (h : s.Kept options) (hin : call ∈ s.calls) (e : ThrownError) :
    (s.moveTo index call (afterThrow call e)).Kept options := by
  have hevidence := (h.calls call hin).evidence
  unfold FeedbackCall.Evidence at hevidence
  refine h.moveTo hin ?_
  unfold FeedbackCall.Evidence afterThrow
  cases hpoint : call.point with
  | applying | parking | completing | failing | finished => exact trivial
  | stopping attempt =>
      rw [hpoint] at hevidence
      exact hevidence

/-! ### The system -/

theorem FeedbackState.Kept.claimFeedback {claimed : List (DeliveryCandidate DriverFeedbackContent)}
    (h : s.Kept options)
    (hclaimed : ∀ candidate ∈ claimed, s.outbox.read candidate.key = some candidate.record) :
    FeedbackState.Kept options { s with claimedFeedback := s.claimedFeedback ++ claimed } where
  outbox := h.outbox
  pending := h.pending
  claimedFeedback candidate hin := by
    rcases List.mem_append.mp hin with hin | hin
    · exact h.claimedFeedback candidate hin
    · exact ⟨_, hclaimed candidate hin, rfl⟩
  claimedPending := h.claimedPending
  calls found hin :=
    ⟨(h.calls found hin).delivered, (h.calls found hin).parked, (h.calls found hin).evidence⟩
  counted := h.counted

theorem FeedbackState.Kept.claimPending {claimed : List (DeliveryCandidate PendingFeedback)}
    (h : s.Kept options)
    (hclaimed : ∀ candidate ∈ claimed, s.pending.read candidate.key = some candidate.record) :
    FeedbackState.Kept options { s with claimedPending := s.claimedPending ++ claimed } where
  outbox := h.outbox
  pending := h.pending
  claimedFeedback := h.claimedFeedback
  claimedPending candidate hin := by
    rcases List.mem_append.mp hin with hin | hin
    · exact h.claimedPending candidate hin
    · exact ⟨_, hclaimed candidate hin, rfl⟩
  calls found hin :=
    ⟨(h.calls found hin).delivered, (h.calls found hin).parked, (h.calls found hin).evidence⟩
  counted := h.counted

theorem claims_read {policy : DeliveryRetryPolicy} {store : DeliveryStore α} {step : DeliveryStep} :
    ∀ candidate ∈ (if step.call.isClaim then step.returned policy store else []),
      (store.step policy step).read candidate.key = some candidate.record := by
  intro candidate hin
  by_cases hclaim : step.call.isClaim = true
  · rw [if_pos hclaim] at hin
    exact queue_claimed hclaim candidate hin
  · rw [if_neg hclaim] at hin
    cases hin

theorem FeedbackState.Kept.step (h : s.Kept options) (label : FeedbackLabel) :
    (s.step options label).Kept options := by
  cases label with
  | ensureAgent roleId => exact h.repository ensureAgent_effects
  | saveExperience roleId experience =>
      simp only [FeedbackState.step]
      cases hsave : s.repository.saveExperienceIfAbsent roleId experience.val with
      | error message => exact h
      | ok answer => exact h.repository (saveExperienceIfAbsent_effects hsave experience.property)
  | submitFeedback content now => exact h.submit content now
  | feedbackQueue step =>
      simp only [FeedbackState.step]
      split
      · next hqueue =>
          have hevolves : s.outbox.Evolves (fun _ => False)
              (s.outbox.step options.feedbackPolicy step) := queue_evolves hqueue
          exact (h.outboxEvolves hevolves fun key record hfinishes => hfinishes.elim).claimFeedback
            claims_read
      · exact h
  | pendingQueue step =>
      simp only [FeedbackState.step]
      split
      · next hqueue =>
          have hevolves : s.pending.Evolves (fun _ => False)
              (s.pending.step options.pendingPolicy step) := queue_evolves hqueue
          exact (h.pendingEvolves hevolves fun key record hfinishes => hfinishes.elim).claimPending
            claims_read
      · exact h
  | process claim workerId =>
      simp only [FeedbackState.step]
      cases hclaim : s.claimedFeedback[claim]? with
      | none => exact h
      | some delivery => exact h.process (List.mem_of_getElem? hclaim) workerId
  | reconcile claim workerId =>
      simp only [FeedbackState.step]
      cases hclaim : s.claimedPending[claim]? with
      | none => exact h
      | some pending => exact h.reconcile (List.mem_of_getElem? hclaim) workerId
  | advance index locks now =>
      simp only [FeedbackState.step]
      cases hcall : s.calls[index]? with
      | none => exact h
      | some call => exact h.advance (List.mem_of_getElem? hcall)
  | thrown index e =>
      simp only [FeedbackState.step]
      cases hcall : s.calls[index]? with
      | none => exact h
      | some call => exact h.throws (List.mem_of_getElem? hcall) e
  | loseLease index =>
      simp only [FeedbackState.step]
      cases hcall : s.calls[index]? with
      | none => exact h
      | some call =>
          have hkept := h.calls call (List.mem_of_getElem? hcall)
          exact h.setCall ⟨hkept.delivered, hkept.parked, hkept.evidence⟩

/-! ### The deliveries -/

theorem FeedbackState.settle_outbox :
    s.outbox.Evolves (fun _ => True) (s.settle options index call locks move outcome).outbox := by
  unfold FeedbackState.settle
  cases call.channel with
  | feedback =>
      cases hmove : mutateRecord options.feedbackPolicy locks s.outbox call.key move with
      | error message => exact .rfl
      | ok answer => exact .of_recordStep (mutateRecord_step hmove) fun _ _ _ _ => trivial
  | pendingFeedback =>
      cases mutateRecord options.pendingPolicy locks s.pending call.key move with
      | error message => exact .rfl
      | ok answer => exact .rfl

theorem FeedbackState.advance_outbox :
    s.outbox.Evolves (fun _ => True) (s.advance options index call locks now).outbox := by
  unfold FeedbackState.advance
  cases call.point with
  | applying =>
      cases s.repository.applyExperienceFeedback call.content.roleId
          (feedbackApplicationOf call.content) now with
      | error message => exact .rfl
      | ok answer => exact .rfl
  | completing outcome => exact settle_outbox
  | failing failure => exact settle_outbox
  | parking | stopping | finished => exact .rfl

theorem FeedbackState.step_outbox {label : FeedbackLabel}
    (h : ∀ content now, label ≠ .submitFeedback content now) :
    s.outbox.Evolves (fun _ => True) (s.step options label).outbox := by
  cases label with
  | submitFeedback content now => exact absurd rfl (h content now)
  | ensureAgent roleId => exact .rfl
  | saveExperience roleId experience =>
      simp only [step]
      cases s.repository.saveExperienceIfAbsent roleId experience.val <;> exact .rfl
  | feedbackQueue call =>
      simp only [step]
      split
      · exact .of_recordStep (s.outbox.step_cases options.feedbackPolicy call) fun _ _ _ _ => trivial
      · exact .rfl
  | pendingQueue call =>
      simp only [step]
      split <;> exact .rfl
  | process claim workerId =>
      simp only [step]
      cases s.claimedFeedback[claim]? <;> exact .rfl
  | reconcile claim workerId =>
      simp only [step]
      cases s.claimedPending[claim]? <;> exact .rfl
  | advance index locks now =>
      simp only [step]
      cases s.calls[index]? with
      | none => exact .rfl
      | some call => exact advance_outbox
  | thrown index e | loseLease index =>
      simp only [step]
      cases s.calls[index]? <;> exact .rfl

end

/-! ## Runs -/

section
variable {options : FeedbackOptions} {s : FeedbackState} {labels : List FeedbackLabel}
  {content : DriverFeedbackContent}

def Submitted (labels : List FeedbackLabel) (content : DriverFeedbackContent) : Prop :=
  ∃ now, .submitFeedback content now ∈ labels

/-- The outbox has a delivery for each feedback that was submitted, and none else. -/
structure FeedbackState.Delivers (labels : List FeedbackLabel) (s : FeedbackState) : Prop where
  delivered : ∀ content, Submitted labels content →
    ∃ record, s.outbox.read content.recordKey = some record
  submitted : ∀ key record, s.outbox.read key = some record → Submitted labels record.item

theorem Submitted.snoc (h : Submitted labels content) (label : FeedbackLabel) :
    Submitted (labels ++ [label]) content :=
  h.imp fun _ hin => List.mem_append_left _ hin

theorem FeedbackState.Delivers.step (h : s.Delivers labels) (label : FeedbackLabel) :
    (s.step options label).Delivers (labels ++ [label]) := by
  by_cases hsubmit : ∃ content now, label = .submitFeedback content now
  · obtain ⟨submitted, now, rfl⟩ := hsubmit
    constructor
    · rintro content ⟨at', hin⟩
      rcases List.mem_append.mp hin with hin | hin
      · obtain ⟨record, hread⟩ := h.delivered content ⟨at', hin⟩
        exact ⟨record, submit_kept hread⟩
      · cases List.mem_singleton.mp hin
        exact ⟨_, by rw [FeedbackState.step, read_submit, if_pos rfl]⟩
    · intro key record hread
      rcases submit_cases hread with hbefore | ⟨rfl, rfl⟩
      · exact (h.submitted key record hbefore).snoc _
      · exact ⟨now, List.mem_append_right _ (List.mem_singleton_self _)⟩
  · have hevolves : s.outbox.Evolves (fun _ => True) (s.step options label).outbox :=
      step_outbox fun content now hlabel => hsubmit ⟨content, now, hlabel⟩
    constructor
    · rintro content ⟨now, hin⟩
      rcases List.mem_append.mp hin with hin | hin
      · obtain ⟨record, hread⟩ := h.delivered content ⟨now, hin⟩
        obtain ⟨next, hnext, _⟩ := hevolves.kept _ record hread
        exact ⟨next, hnext⟩
      · exact absurd ⟨content, now, (List.mem_singleton.mp hin).symm⟩ hsubmit
    · intro key next hread
      obtain ⟨record, hbefore, hitem, _⟩ := hevolves.back key next hread
      rw [hitem]
      exact (h.submitted key record hbefore).snoc _

theorem feedback_run (options : FeedbackOptions) (labels : List FeedbackLabel) :
    (labels.foldl (FeedbackState.step options) {}).Kept options ∧
      (labels.foldl (FeedbackState.step options) {}).Delivers labels := by
  induction labels using List.reverseRecOn with
  | nil =>
      constructor
      · exact
          { outbox := fun key record hread => (by cases hread)
            pending := fun key record hread => (by cases hread)
            claimedFeedback := fun candidate hin => (by cases hin)
            claimedPending := fun candidate hin => (by cases hin)
            calls := fun call hin => (by cases hin)
            counted := fun roleId experienceId experience hat => (by cases hat) }
      · exact
          { delivered := fun content hsubmitted => (by obtain ⟨now, hin⟩ := hsubmitted; cases hin)
            submitted := fun key record hread => (by cases hread) }
  | append_singleton labels label ih =>
      rw [List.foldl_append]
      exact ⟨ih.1.step label, ih.2.step label⟩

/-- Where a feedback is: its delivery or its parked record waits, or it is in the history. -/
def FeedbackState.Holds (s : FeedbackState) (content : DriverFeedbackContent) : Prop :=
  (∃ record, s.outbox.read content.recordKey = some record ∧ record.status ≠ .processed) ∨
    (∃ record, s.pending.read content.recordKey = some record ∧ record.status ≠ .processed) ∨
    s.repository.Applied content

theorem FeedbackState.Kept.holds (h : s.Kept options) {record : DeliveryRecord DriverFeedbackContent}
    (hread : s.outbox.read content.recordKey = some record)
    (hsame : record.status = .processed → record.item.experienceId = content.experienceId) :
    s.Holds content := by
  by_cases hprocessed : record.status = .processed
  · obtain ⟨hkey, hsafe⟩ := h.outbox _ record hread
    obtain ⟨_, hsafe⟩ := hsafe hprocessed
    obtain ⟨hrole, hid⟩ : record.item.roleId = content.roleId ∧
        record.item.feedbackId = content.feedbackId := Prod.mk.inj hkey
    have happlies (happlied : s.repository.Applied record.item) : s.repository.Applied content := by
      unfold MemoryRepository.Applied at happlied ⊢
      rwa [← hrole, ← hid, ← hsame hprocessed]
    rcases hsafe with ⟨parked, hparked⟩ | hitem
    · rw [hkey] at hparked
      by_cases hdone : parked.status = .processed
      · obtain ⟨⟨delivery, hdelivery, hitem⟩, happlied⟩ := h.pending _ parked hparked
        obtain rfl := Option.some.inj (hread.symm.trans hdelivery)
        exact .inr (.inr (happlies (hitem ▸ happlied hdone)))
      · exact .inr (.inl ⟨parked, hparked, hdone⟩)
    · exact .inr (.inr (happlies hitem))
  · exact .inl ⟨record, hread, hprocessed⟩

/-- After any run every valid feedback that was submitted still waits in the outbox, waits in the
parking lot or is in the history of its Experience; a history has no feedback twice, and an
Experience was referenced once for each. -/
theorem feedback_once (options : FeedbackOptions) (labels : List FeedbackLabel)
    (huuid : ∀ id : String, options.runtime.isUuid id = true → ':' ∉ id.toList)
    (hdigest : ∀ content other, Submitted labels content → Submitted labels other →
      content.Apart options.runtime other) :
    let s := labels.foldl (FeedbackState.step options) {}
    (∀ content, Submitted labels content → content.Valid options.runtime → s.Holds content) ∧
      ∀ (roleId experienceId : String) (experience : ExperienceRecord),
        s.repository.experience? roleId experienceId = some experience →
          experience.feedbackIds.Nodup ∧
            experience.referencedCount = experience.feedbackIds.length := by
  obtain ⟨hkept, hdelivers⟩ := feedback_run options labels
  refine ⟨fun content hsubmitted hvalid => ?_, hkept.counted⟩
  obtain ⟨record, hread⟩ := hdelivers.delivered content hsubmitted
  refine hkept.holds hread fun hprocessed => ?_
  obtain ⟨hkey, hitem⟩ := hkept.outbox _ record hread
  exact (hitem hprocessed).1.experienceId_eq hvalid
    (hdigest _ _ (hdelivers.submitted _ _ hread) hsubmitted) huuid (congrArg Prod.snd hkey)

end

/-! ## A run -/

def sampleFeedback : DriverFeedbackContent where
  feedbackId := "drvfb_93b217c814bfa4df8b6a09cc"
  feedbackKey :=
    "backend:task_1:7c9e6679-7425-40de-944b-e07fc1f90ae7:driver_usage:driver-usage.v1"
  roleId := "backend"
  taskId := "task_1"
  experienceId := "7c9e6679-7425-40de-944b-e07fc1f90ae7"
  applied := true
  effectiveness := .fullyEffective
  note := ""
  observedAt := 0
  feedbackSource := .driverUsage
  eventVersion := "driver-usage.v1"

def sampleFeedbackOptions : FeedbackOptions where
  runtime :=
    { sha256 := fun _ => "93b217c814bfa4df8b6a09cc20784b1168f1eeedcf1947bf57498598b1fe472c"
      isUuid := fun id => id = "7c9e6679-7425-40de-944b-e07fc1f90ae7" }
  feedbackPolicy := defaultDeliveryRetryPolicy
  pendingPolicy := defaultDeliveryRetryPolicy

def reportedExperience : ExperienceRecord where
  id := "7c9e6679-7425-40de-944b-e07fc1f90ae7"
  confidence := 500
  createdAt := ""
  updatedAt := 0

def anyLocks : Locks := fun _ => true

def claimAs (owner claimToken : String) (now : Time) : DeliveryStep where
  call := .claimNext none { owner, now, leaseMs := 10, claimToken }

/-- A worker parks the feedback and crashes; the next one finds the Experience, and so does the
worker that takes the parked record. -/
def sampleFeedbackRun : List FeedbackLabel :=
  [.ensureAgent "backend",
    .submitFeedback sampleFeedback 0,
    .feedbackQueue (claimAs "a" "t1" 1),
    .process 0 "a", .advance 0 anyLocks 2, .advance 0 anyLocks 3,
    .saveExperience "backend" ⟨reportedExperience, by decide⟩,
    .feedbackQueue { call := .restoreExpired none 20 },
    .feedbackQueue (claimAs "b" "t2" 21),
    .process 1 "b", .advance 1 anyLocks 22, .advance 1 anyLocks 23, .advance 1 anyLocks 24,
    .pendingQueue (claimAs "c" "t3" 25),
    .reconcile 0 "c", .advance 2 anyLocks 26, .advance 2 anyLocks 27, .advance 2 anyLocks 28]

theorem feedback_once_sample :
    let s := sampleFeedbackRun.foldl (FeedbackState.step sampleFeedbackOptions) {}
    (s.calls.map (·.point)).drop 1 =
        [.finished (some { status := .completed, application := some .applied }),
          .finished (some { status := .completed, application := some .alreadyApplied })] ∧
      s.Holds sampleFeedback := by
  refine ⟨by decide, ?_⟩
  have hsubmitted : Submitted sampleFeedbackRun sampleFeedback :=
    ⟨0, List.mem_cons_of_mem _ List.mem_cons_self⟩
  refine (feedback_once sampleFeedbackOptions sampleFeedbackRun (fun id hid => ?_)
    fun content other hcontent hother _ => ?_).1 sampleFeedback hsubmitted (by decide)
  · have hsame : id = "7c9e6679-7425-40de-944b-e07fc1f90ae7" := of_decide_eq_true hid
    rw [hsame]
    decide
  · have honly (found : DriverFeedbackContent) (hfound : Submitted sampleFeedbackRun found) :
        found = sampleFeedback := by
      obtain ⟨now, hin⟩ := hfound
      have hboth : found = sampleFeedback ∧ now = 0 := by simpa [sampleFeedbackRun] using hin
      exact hboth.1
    rw [honly content hcontent, honly other hother]

end Newide.Memory
