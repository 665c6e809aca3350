import Newide.Memory.MemoryRepository

/-!
# What the repository methods write

One description for all writes of an Experience or a Skill; each method
of the repository gets one lemma that says which of them it makes.  Two
of the writes can part a Skill from its Experience: a new Skill, and a
conclusion that turns the Experience down.  `parting` says if they are
among the writes described.
-/

namespace Newide.Memory

open Fallible Relation MemoryRepository Rows

/-! ## The writes -/

/-- The Experience is not promoted, or its marker says so. -/
def ExperienceRecord.Unsettled (experience : ExperienceRecord) : Prop :=
  experience.promotedTo = none ∨ ∃ marker ∈ experience.promotion, marker.status ≠ .processed

/-- Somebody holds the claim on its promotion. -/
def ExperienceRecord.Claimed (experience : ExperienceRecord) : Prop :=
  ∃ marker ∈ experience.promotion, marker.status = .processing

/-- Its promotion is concluded, and not by promoting it. -/
def ExperienceRecord.TurnedDown (experience : ExperienceRecord) : Prop :=
  ∃ marker ∈ experience.promotion, marker.status = .processed ∧
    (marker.item.outcome = some .rejected ∨ marker.item.outcome = some .pendingReview)

instance {experience : ExperienceRecord} : Decidable experience.TurnedDown :=
  inferInstanceAs (Decidable (∃ marker ∈ experience.promotion, _ ∧ (_ ∨ _)))

def RoleStore.PromotedTo (store : RoleStore) (experience : ExperienceRecord) (skillId : String) :
    Prop :=
  (∃ skill ∈ store.skills, skill.id = skillId ∧ skill.promotedFrom = some experience.id) ∧
    ∃ marker ∈ experience.promotion, marker.status = .processed ∧
      marker.item.outcome = some .promoted ∧ marker.item.skillId = some skillId

inductive ExperienceEffect (parting : Prop) (store : RoleStore) (experience : ExperienceRecord) :
    ExperienceRecord → Prop where
  | feedback {input : ExperienceFeedbackApplication} (now : Time)
      (hnew : isFeedbackApplied experience input.feedbackId = false) :
      ExperienceEffect parting store experience (applyFeedbackToExperience experience input now)
  | marked {marker : ExperiencePromotion} (hopen : experience.Unsettled)
      (hstatus : marker.status ≠ .processed) :
      ExperienceEffect parting store experience { experience with promotion := some marker }
  | turnedDown {marker : ExperiencePromotion} (hparting : parting) (hheld : experience.Claimed)
      (hdown : ExperienceRecord.TurnedDown { experience with promotion := some marker }) :
      ExperienceEffect parting store experience { experience with promotion := some marker }
  | promoted {marker : ExperiencePromotion} {skillId : String} (hheld : experience.Claimed)
      (hto : store.PromotedTo
        { experience with promotion := some marker, promotedTo := some skillId } skillId) :
      ExperienceEffect parting store experience
        { experience with promotion := some marker, promotedTo := some skillId }

inductive StoreEffect (parting : Prop) (store : RoleStore) : RoleStore → Prop where
  | saved {experience : ExperienceRecord} (hnew : experience.New)
      (habsent : store.experience? experience.id = none) :
      StoreEffect parting store (store.saveExperienceIfAbsent experience)
  | wrote {experience next : ExperienceRecord}
      (hat : store.experience? experience.id = some experience)
      (he : ExperienceEffect parting store experience next) :
      StoreEffect parting store (store.write next)
  | skilled {skill : SkillRecord} {experienceId : String} (hparting : parting)
      (hfrom : skill.promotedFrom = some experienceId)
      (habsent : store.skillFrom? experienceId = none) :
      StoreEffect parting store (store.addSkill skill)

inductive MemoryEffect (parting : Prop) (repo : MemoryRepository) : MemoryRepository → Prop where
  | opened {roleId : String} {next : MemoryRepository} (habsent : repo.store? roleId = none)
      (hstores : ∀ role, next.store? role =
        if role = roleId then some { roleId } else repo.store? role) :
      MemoryEffect parting repo next
  | wrote {roleId : String} {store after : RoleStore} {next : MemoryRepository}
      (hstore : repo.store? roleId = some store) (he : StoreEffect parting store after)
      (hstores : ∀ role, next.store? role =
        if role = roleId then some after else repo.store? role) :
      MemoryEffect parting repo next

/-- A call writes any number of times. -/
abbrev MemoryEffects (parting : Prop) : MemoryRepository → MemoryRepository → Prop :=
  ReflTransGen (MemoryEffect parting)

/-! ## Lookups after a write -/

variable {f : RoleStore → RoleStore} {found : ExperienceRecord} {answer : Option ExperienceRecord}
  {claimToken experienceId : String} {input : ExperienceFeedbackApplication} {now : Time}
  {request : PromotionCompletionRequest} {result : ExperienceFeedbackResult}

section
variable {parting : Prop} {repo next : MemoryRepository} {store : RoleStore} {roleId : String}
  {experience : ExperienceRecord}

variable {after : ExperienceRecord}

theorem ExperienceEffect.id (h : ExperienceEffect parting store experience after) :
    after.id = experience.id := by
  cases h <;> rfl

theorem RoleStore.experience?_write (hat : store.experience? experience.id = some experience)
    (hid : after.id = experience.id) (id : String) : (store.write after).experience? id =
      if id = experience.id then some after else store.experience? id := by
  by_cases h : id = experience.id
  · rw [if_pos h, h, ← hid]
    have hrow : lookup ExperienceRecord.id after.id store.experiences = some experience :=
      hid ▸ hat
    exact lookup_replace_self store.distinct (lookup_mem hrow) hid.symm
  · rw [if_neg h]
    exact lookup_replace_ne (hid ▸ h)

theorem RoleStore.mem_write (hfound : found ∈ (store.write after).experiences) :
    found = after ∨ found ∈ store.experiences := by
  rcases mem_replace.mp hfound with ⟨rfl, _⟩ | ⟨h, _⟩
  · exact .inl rfl
  · exact .inr h

theorem RoleStore.mem_save (hfound : found ∈ (store.saveExperienceIfAbsent experience).experiences) :
    
    found = experience ∨ found ∈ store.experiences := by
  unfold RoleStore.saveExperienceIfAbsent at hfound
  split at hfound
  · exact .inr hfound
  · rcases List.mem_append.mp hfound with h | h
    · exact .inr h
    · exact .inl (List.mem_singleton.mp h)

theorem RoleStore.save_skills :
    (store.saveExperienceIfAbsent experience).skills = store.skills := by
  unfold RoleStore.saveExperienceIfAbsent
  split <;> rfl

theorem RoleStore.experience?_save (habsent : store.experience? experience.id = none)
    (id : String) : (store.saveExperienceIfAbsent experience).experience? id =
      if id = experience.id then some experience else store.experience? id := by
  unfold RoleStore.saveExperienceIfAbsent
  split
  · next hfound => rw [habsent] at hfound; cases hfound
  · exact lookup_append_new habsent

theorem MemoryRepository.store?_updateStore (hf : ∀ store, (f store).roleId = store.roleId)
    (role : String) :
    (repo.updateStore roleId f hf).store? role =
      if role = roleId then (repo.store? role).map f else repo.store? role :=
  lookup_update hf

theorem MemoryRepository.experience?_eq
    (h : repo.experience? roleId experience.id = some experience) :
    ∃ store, repo.store? roleId = some store ∧
      store.experience? experience.id = some experience :=
  Option.bind_eq_some_iff.mp h

theorem MemoryRepository.experience?_id {id : String}
    (h : repo.experience? roleId id = some experience) : experience.id = id := by
  obtain ⟨store, _, h⟩ := Option.bind_eq_some_iff.mp h
  exact lookup_key h

theorem MemoryRepository.experience?_writeExperience {id : String}
    (hat : repo.experience? roleId id = some experience) (hid : after.id = experience.id) :
    (repo.writeExperience roleId after).experience? roleId id = some after := by
  obtain ⟨store, hstore, hat⟩ := Option.bind_eq_some_iff.mp hat
  have hkey : experience.id = id := lookup_key hat
  rw [← hkey] at hat ⊢
  rw [experience?, writeExperience,
    store?_updateStore, if_pos rfl, hstore]
  exact (RoleStore.experience?_write hat hid experience.id).trans (if_pos rfl)

theorem MemoryEffect.of_update (hf : ∀ store, (f store).roleId = store.roleId)
    (hstore : repo.store? roleId = some store) (he : StoreEffect parting store (f store)) :
    MemoryEffect parting repo (repo.updateStore roleId f hf) := by
  refine .wrote hstore he fun role => ?_
  rw [store?_updateStore]
  by_cases hrole : role = roleId
  · rw [if_pos hrole, if_pos hrole, hrole, hstore]
    rfl
  · rw [if_neg hrole, if_neg hrole]

theorem MemoryEffect.of_write (hat : repo.experience? roleId experience.id = some experience)
    (he : ∀ store, repo.store? roleId = some store →
      ExperienceEffect parting store experience after) :
    MemoryEffect parting repo (repo.writeExperience roleId after) := by
  obtain ⟨store, hstore, hat⟩ := experience?_eq hat
  exact .of_update _ hstore (.wrote hat (he store hstore))

end

/-! ## One Experience -/

/-- What a write does to the Experience found under one id. -/
inductive LookupEffect (parting : Prop) :
    Option ExperienceRecord → Option ExperienceRecord → Prop where
  | same {found : Option ExperienceRecord} : LookupEffect parting found found
  | saved {experience : ExperienceRecord} (hnew : experience.New) :
      LookupEffect parting none (some experience)
  | wrote {store : RoleStore} {experience after : ExperienceRecord}
      (he : ExperienceEffect parting store experience after) :
      LookupEffect parting (some experience) (some after)

section
variable {parting : Prop} {repo next : MemoryRepository} {store after : RoleStore}

theorem StoreEffect.lookup (h : StoreEffect parting store after) (id : String) :
    LookupEffect parting (store.experience? id) (after.experience? id) := by
  cases h with
  | @saved experience hnew habsent =>
      rw [RoleStore.experience?_save habsent]
      by_cases hid : id = experience.id
      · rw [if_pos hid, hid, habsent]
        exact .saved hnew
      · rw [if_neg hid]
        exact .same
  | @wrote experience next hat he =>
      rw [RoleStore.experience?_write hat he.id]
      by_cases hid : id = experience.id
      · rw [if_pos hid, hid, hat]
        exact .wrote he
      · rw [if_neg hid]
        exact .same
  | skilled => exact .same

theorem MemoryEffect.lookup (h : MemoryEffect parting repo next) (role id : String) :
    LookupEffect parting (repo.experience? role id) (next.experience? role id) := by
  unfold experience?
  cases h with
  | opened habsent hstores =>
      rw [hstores]
      split
      · next hrole =>
          rw [hrole, habsent]
          exact .same
      · exact .same
  | wrote hstore he hstores =>
      rw [hstores]
      split
      · next hrole =>
          rw [hrole, hstore]
          exact he.lookup id
      · exact .same

end

/-! ## The methods -/

section
variable {parting : Prop} {repo next : MemoryRepository} {roleId : String}
  {experience : ExperienceRecord}
  {runtime : PromotionRuntime}

theorem ensureAgent_effects : MemoryEffects parting repo (repo.ensureAgent roleId) := by
  unfold ensureAgent
  split
  · exact .refl
  · next hnew =>
      refine .single (.opened hnew fun role => ?_)
      have habsent : lookup RoleStore.roleId (RoleStore.roleId { roleId }) repo.stores = none :=
        hnew
      exact lookup_append_new habsent

variable {store : RoleStore}

theorem requireRoleStore_ok :
    repo.requireStore roleId = .ok store ↔ repo.store? roleId = some store :=
  orThrow_eq_ok

theorem saveExperienceIfAbsent_effects {result : MemoryRepository.ExperienceSaveResult}
    (h : repo.saveExperienceIfAbsent roleId experience = .ok (result, next))
    (hnew : experience.New) : MemoryEffects parting repo next := by
  simp only [saveExperienceIfAbsent, bind_eq_ok] at h
  obtain ⟨store, hstore, h⟩ := h
  split at h
  · cases h
    exact .refl
  · next habsent =>
      cases h
      exact .single (.of_update _ (requireRoleStore_ok.mp hstore) (.saved hnew habsent))

theorem applyExperienceFeedback_cases
    (h : repo.applyExperienceFeedback roleId input now = .ok (result, next)) :
    (result.outcome = .experienceMissing ∧ repo.experience? roleId input.experienceId = none ∧
      next = repo) ∨
    ∃ current, repo.experience? roleId input.experienceId = some current ∧
      ((result.outcome = .alreadyApplied ∧ isFeedbackApplied current input.feedbackId = true ∧
        next = repo) ∨
      (result.outcome = .applied ∧ isFeedbackApplied current input.feedbackId = false ∧
        next = repo.writeExperience roleId (applyFeedbackToExperience current input now))) := by
  simp only [applyExperienceFeedback, bind_eq_ok] at h
  obtain ⟨store, hstore, h⟩ := h
  have hlookup : repo.experience? roleId input.experienceId =
      store.experience? input.experienceId := by
    rw [experience?, requireRoleStore_ok.mp hstore]
    rfl
  rw [hlookup]
  split at h
  · next hnone =>
      cases h
      exact .inl ⟨rfl, hnone, rfl⟩
  · next current hcurrent =>
      refine .inr ⟨current, hcurrent, ?_⟩
      split at h
      · next happlied =>
          cases h
          exact .inl ⟨rfl, happlied, rfl⟩
      · next hnot =>
          cases h
          exact .inr ⟨rfl, Bool.eq_false_iff.mpr hnot, rfl⟩

theorem applyExperienceFeedback_effects
    (h : repo.applyExperienceFeedback roleId input now = .ok (result, next)) :
    MemoryEffects parting repo next := by
  rcases applyExperienceFeedback_cases h with ⟨_, _, rfl⟩ | ⟨current, hcurrent, h⟩
  · exact .refl
  · rcases h with ⟨_, _, rfl⟩ | ⟨_, hnew, rfl⟩
    · exact .refl
    · rw [← experience?_id hcurrent] at hcurrent
      exact .single (.of_write hcurrent fun _ _ => .feedback now hnew)

theorem saveSkillIfAbsent_effects {skill : SkillRecord} {result : SkillSaveResult}
    (hparting : parting) (hfrom : skill.promotedFrom = some experienceId)
    (h : repo.saveSkillIfAbsent roleId experienceId skill = .ok (result, next)) :
    MemoryEffects parting repo next := by
  simp only [saveSkillIfAbsent, bind_eq_ok] at h
  obtain ⟨store, hstore, h⟩ := h
  split at h
  · cases h
    exact .refl
  · next habsent =>
      cases h
      exact .single (.of_update _ (requireRoleStore_ok.mp hstore) (.skilled hparting hfrom habsent))

/-! ### Claims -/

theorem expireDeliveryClaimRecord_status (policy : DeliveryRetryPolicy)
    (marker : ExperiencePromotion) (now : Time) :
    (expireDeliveryClaimRecord policy marker now).status ≠ .processed := by
  simp only [expireDeliveryClaimRecord]
  split <;> simp

theorem claimPromotionSync_effects {request : PromotionClaimRequest}
    {claimed : Option ClaimedPromotionCandidate}
    (h : repo.claimPromotionSync runtime roleId experienceId request claimToken =
      .ok (claimed, next)) : MemoryEffects parting repo next := by
  unfold claimPromotionSync at h
  cases hat : repo.experience? roleId experienceId with
  | none =>
      rw [hat] at h
      cases h
      exact .refl
  | some experience =>
      rw [hat] at h
      simp only at h
      have hat : repo.experience? roleId experience.id = some experience := by
        rwa [experience?_id hat]
      cases hplan : planPromotionCandidate runtime.sha256 experience
          (promotionCandidateInput request) with
      | skip reason =>
          rw [hplan] at h
          cases h
          exact .refl
      | claim marker | reevaluateThenClaim marker | expireThenClaim marker =>
          rw [hplan] at h
          have hopen : experience.Unsettled :=
            .inl (planPromotionCandidate_unpromoted hplan nofun)
          simp only [PromotionCandidatePlan.marker] at h
          split at h
          · cases h
          · cases h
            first
              | exact .refl
              | exact .single (.of_write hat fun _ _ =>
                  .marked hopen (expireDeliveryClaimRecord_status _ _ _))
          · next found hclaim =>
              cases h
              obtain ⟨_, _, _, rfl⟩ := claimDeliveryRecord_eq_some hclaim
              exact .single (.of_write hat fun _ _ => .marked hopen nofun)

theorem claimFirstPromotion_effects {request : PromotionClaimRequest}
    {candidates : List (String × ExperienceRecord)} :
    MemoryEffects parting repo
      (repo.claimFirstPromotion runtime request claimToken candidates).2 := by
  induction candidates generalizing repo with
  | nil => exact .refl
  | cons candidate rest ih =>
      simp only [claimFirstPromotion]
      split
      · exact .refl
      · next hclaim => exact claimPromotionSync_effects hclaim
      · next hclaim => exact (claimPromotionSync_effects hclaim).trans ih

/-! ### Conclusions -/

theorem movePromotion_effects {move : ExperiencePromotion → Option ExperiencePromotion}
    (hmove : ∀ marker moved, move marker = some moved →
      marker.status ≠ .processed ∧ moved.status ≠ .processed) :
    MemoryEffects parting repo (repo.movePromotion roleId experienceId move).2 := by
  unfold movePromotion
  split
  · exact .refl
  · next experience hat =>
      split
      · exact .refl
      · next moved hmoved =>
          obtain ⟨marker, hmarker, hmoved⟩ := Option.bind_eq_some_iff.mp hmoved
          obtain ⟨hbefore, hafter⟩ := hmove marker moved hmoved
          rw [← experience?_id hat] at hat
          exact .single (.of_write hat fun _ _ =>
            .marked (.inr ⟨marker, hmarker, hbefore⟩) hafter)

theorem failPromotion_effects {request : PromotionFailureRequest} :
    MemoryEffects parting repo (repo.failPromotion request).2 := by
  refine movePromotion_effects fun marker moved hmoved => ?_
  simp only [failDeliveryRecord] at hmoved
  split at hmoved
  · next hheld =>
      have hstatus : marker.status ≠ .processed := by simp [hheld.1]
      split at hmoved
      · cases hmoved
        exact ⟨hstatus, fun h => (by cases h)⟩
      · cases hmoved
        exact ⟨hstatus, fun h => (by cases h)⟩
  · cases hmoved

theorem retryDeadLetterPromotion_effects :
    MemoryEffects parting repo (repo.retryDeadLetterPromotion roleId experienceId now).2 := by
  refine movePromotion_effects fun marker moved hmoved => ?_
  simp only [resetDeliveryForRetry] at hmoved
  split at hmoved
  · next hdead =>
      cases hmoved
      exact ⟨by simp [hdead], fun h => (by cases h)⟩
  · cases hmoved

theorem restoreExpiredPromotionClaims_effects {role : Option String} {policy : DeliveryRetryPolicy} :
    
    MemoryEffects parting repo (repo.restoreExpiredPromotionClaims role now policy) := by
  unfold restoreExpiredPromotionClaims
  simp only
  generalize (List.flatMap _ _) = found
  induction found generalizing repo with
  | nil => exact .refl
  | cons key rest ih =>
      refine (movePromotion_effects fun marker moved hmoved => ?_).trans ih
      split at hmoved
      · next hexpired =>
          cases hmoved
          exact ⟨by simp [hexpired.1], expireDeliveryClaimRecord_status _ _ _⟩
      · cases hmoved

theorem assertPromotedSkillReference_ok {skillId : String} {u : Unit}
    (hstore : repo.store? roleId = some store)
    (h : assertPromotedSkillReference roleId experienceId skillId
      (repo.findSkillFactsById skillId) = .ok u) :
    ∃ skill ∈ store.skills, skill.id = skillId ∧ skill.promotedFrom = some experienceId := by
  cases hfacts : repo.findSkillFactsById skillId with
  | none =>
      rw [hfacts] at h
      cases h
  | some facts =>
      rw [hfacts] at h
      simp only [assertPromotedSkillReference] at h
      split at h
      · cases h
      · next hrole =>
          split at h
          · cases h
          · next hfrom =>
              obtain ⟨owner, howner, hfound⟩ := List.exists_of_findSome?_eq_some hfacts
              obtain ⟨skill, hskill, rfl⟩ := Option.map_eq_some_iff.mp hfound
              have hsame : repo.store? owner.roleId = some owner :=
                repo.distinct.lookup_of_mem howner
              have howned : owner.roleId = roleId := not_not.mp hrole
              rw [howned, hstore] at hsame
              cases hsame
              exact ⟨skill, List.mem_of_find?_eq_some hskill,
                by simpa using List.find?_some hskill, not_not.mp hfrom⟩

theorem completePromotion_cases (h : repo.completePromotion request = .ok (answer, next)) :
    (answer = none ∧ next = repo) ∨
    ∃ experience concluded store, answer = some concluded ∧
      repo.experience? request.roleId experience.id = some experience ∧
      experience.id = request.experienceId ∧ repo.store? request.roleId = some store ∧
      next = repo.writeExperience request.roleId concluded ∧ experience.Claimed ∧
      ((request.outcome ≠ .promoted ∧ concluded.TurnedDown ∧ ∃ marker,
        concluded = { experience with promotion := some marker }) ∨
      (request.outcome = .promoted ∧ ∃ marker skillId,
        concluded = { experience with promotion := some marker, promotedTo := some skillId } ∧
        store.PromotedTo concluded skillId)) := by
  simp only [completePromotion, bind_eq_ok, ensure_eq_ok] at h
  obtain ⟨_, hskill, h⟩ := h
  cases hat : repo.experience? request.roleId request.experienceId with
  | none =>
      rw [hat] at h
      cases h
      exact .inl ⟨rfl, rfl⟩
  | some experience =>
      rw [hat] at h
      simp only at h
      have hid := experience?_id hat
      rw [← hid] at hat
      obtain ⟨store, hstore, _⟩ := experience?_eq hat
      split at h
      · cases h
        exact .inl ⟨rfl, rfl⟩
      · next marker hmarker =>
          split at h
          · cases h
            exact .inl ⟨rfl, rfl⟩
          · next completed hcompleted =>
              obtain ⟨hheld, rfl⟩ := completeDeliveryRecord_eq_some hcompleted
              have hclaimed : experience.Claimed := ⟨marker, hmarker, hheld.1⟩
              by_cases houtcome : request.outcome = .promoted
              · obtain ⟨skillId, hid'⟩ := Option.isSome_iff_exists.mp (hskill houtcome)
                rw [if_pos houtcome, hid'] at h
                simp only [bind_eq_ok] at h
                obtain ⟨_, hreference, h⟩ := h
                cases h
                have hreference := assertPromotedSkillReference_ok hstore hreference
                rw [← hid] at hreference
                refine .inr ⟨experience, _, store, rfl, hat, hid, hstore, rfl, hclaimed,
                  .inr ⟨houtcome, _, skillId, rfl, hreference, _, rfl, rfl, ?_, ?_⟩⟩
                · exact congrArg some houtcome
                · simp [concluded, houtcome, hid']
              · rw [if_neg houtcome] at h
                cases h
                refine .inr ⟨experience, _, store, rfl, hat, hid, hstore, rfl, hclaimed,
                  .inl ⟨houtcome, ⟨_, rfl, rfl, ?_⟩, _, rfl⟩⟩
                simp only [concluded]
                cases hrequest : request.outcome with
                | promoted => exact absurd hrequest houtcome
                | pendingReview => exact .inr rfl
                | rejected => exact .inl rfl

/-- The caller still holds the claim on the Experience. -/
def MemoryRepository.Holds (repo : MemoryRepository) (roleId experienceId : String)
    (input : HolderInput) : Prop :=
  ∃ experience ∈ repo.experience? roleId experienceId, ∃ marker ∈ experience.promotion,
    isHeldBy marker input

theorem completePromotion_turnsDown {input : HolderInput} (hne : request.outcome ≠ .promoted)
    (hinput : input = { claimToken := request.claimToken, owner := request.owner
                        now := request.now }) :
    (repo.Holds request.roleId request.experienceId input ∧ ∃ answer next,
      repo.completePromotion request = .ok (some answer, next)) ∨
    (¬ repo.Holds request.roleId request.experienceId input ∧
      repo.completePromotion request = .ok (none, repo)) := by
  subst hinput
  have hensure : ensure (request.outcome = .promoted → request.skillId.isSome = true)
      (RepositoryError.error
        "completePromotion requires a skill_id when the outcome is \"promoted\".") = .ok () :=
    ensure_eq_ok.mpr fun h => absurd h hne
  simp only [completePromotion, hensure, MemoryRepository.Holds]
  cases hat : repo.experience? request.roleId request.experienceId with
  | none =>
      refine .inr ⟨?_, rfl⟩
      rintro ⟨_, hfound, _⟩
      cases hfound
  | some experience =>
      cases hmarker : experience.promotion with
      | none =>
          refine .inr ⟨?_, ?_⟩
          · rintro ⟨found, hfound, marker, hin, _⟩
            cases hfound
            rw [hmarker] at hin
            cases hin
          · simp only [hmarker]
            rfl
      | some marker =>
          by_cases hheld : isHeldBy marker
              { claimToken := request.claimToken, owner := request.owner, now := request.now }
          · refine .inl ⟨⟨experience, rfl, marker, hmarker, hheld⟩, ?_⟩
            have hconcluded : isHeldBy (concluded marker request)
              { claimToken := request.claimToken, owner := request.owner, now := request.now } :=
              hheld
            simp only [hmarker, completeDeliveryRecord, if_pos hconcluded, if_neg hne]
            exact ⟨_, _, rfl⟩
          · refine .inr ⟨?_, ?_⟩
            · rintro ⟨found, hfound, other, hin, hother⟩
              cases hfound
              rw [hmarker] at hin
              cases hin
              exact hheld hother
            · have hconcluded : ¬ isHeldBy (concluded marker request)
                { claimToken := request.claimToken, owner := request.owner, now := request.now } :=
                hheld
              simp only [hmarker, completeDeliveryRecord, if_neg hconcluded]
              rfl

theorem completePromotion_effects (hparting : request.outcome ≠ .promoted → parting)
    (h : repo.completePromotion request = .ok (answer, next)) :
    MemoryEffects parting repo next := by
  rcases completePromotion_cases h with ⟨_, rfl⟩ |
    ⟨experience, concluded, store, _, hat, _, hstore, rfl, hclaimed, h⟩
  · exact .refl
  · refine .single (.of_write hat fun found hfound => ?_)
    rw [hstore] at hfound
    cases hfound
    rcases h with ⟨hne, hdown, marker, rfl⟩ | ⟨_, marker, skillId, rfl, hto⟩
    · exact .turnedDown (hparting hne) hclaimed hdown
    · exact .promoted hclaimed hto

end

end Newide.Memory
