import Newide.Memory.PromotionRuns

/-!
# A promotion is bound to one Skill

The check of `completePromotion` and the second look of
`saveSkillIfAbsent` are made with nothing in between and their writes,
so neither rests on a claim that may be lost.  Uniqueness of the Skill
and the binding of the Experience are invariants of every write.
-/

namespace Newide.Memory

open Relation RoleStore

/-- One Skill from each Experience, and every promoted Experience is bound to its own. -/
structure RoleStore.Bound (store : RoleStore) : Prop where
  once : ∀ experienceId : String,
    (store.skills.filter fun skill => skill.promotedFrom = some experienceId).length ≤ 1
  bound : ∀ experience ∈ store.experiences, ∀ skillId : String,
    experience.promotedTo = some skillId → store.PromotedTo experience skillId

def MemoryRepository.Bound (repo : MemoryRepository) : Prop :=
  ∀ (roleId : String) (store : RoleStore), repo.store? roleId = some store → store.Bound

def MemoryRepository.promotedTo? (repo : MemoryRepository) (roleId experienceId : String) :
    Option String :=
  (repo.experience? roleId experienceId).bind (·.promotedTo)

section
variable {parting : Prop} {store after : RoleStore} {experience next : ExperienceRecord} {skillId : String}

theorem RoleStore.PromotedTo.settled (h : store.PromotedTo experience skillId)
    (hto : experience.promotedTo = some skillId) : ¬ experience.Unsettled := by
  obtain ⟨_, marker, hmarker, hstatus, _⟩ := h
  rintro (hnone | ⟨found, hfound, hne⟩)
  · rw [hto] at hnone
    cases hnone
  · rw [hmarker] at hfound
    cases hfound
    exact hne hstatus

theorem RoleStore.PromotedTo.not_claimed (h : store.PromotedTo experience skillId) :
    ¬ experience.Claimed := by
  obtain ⟨_, marker, hmarker, hstatus, _⟩ := h
  rintro ⟨found, hfound, hprocessing⟩
  rw [hmarker] at hfound
  cases hfound
  rw [hstatus] at hprocessing
  cases hprocessing

theorem ExperienceEffect.promotedTo (h : ExperienceEffect parting store experience next)
    (hbound : store.PromotedTo experience skillId) (hto : experience.promotedTo = some skillId) :
    next.promotedTo = some skillId ∧ store.PromotedTo next skillId := by
  cases h with
  | feedback => exact ⟨hto, hbound⟩
  | marked hopen => exact absurd hopen (hbound.settled hto)
  | turnedDown _ hheld => exact absurd hheld hbound.not_claimed
  | promoted hheld => exact absurd hheld hbound.not_claimed

theorem ExperienceEffect.bound (h : ExperienceEffect parting store experience next)
    (hbound : ∀ skillId : String, experience.promotedTo = some skillId →
      store.PromotedTo experience skillId) (hto : next.promotedTo = some skillId) :
    store.PromotedTo next skillId := by
  cases h with
  | feedback => exact hbound skillId hto
  | marked hopen => exact absurd hopen ((hbound skillId hto).settled hto)
  | turnedDown _ hheld => exact absurd hheld (hbound skillId hto).not_claimed
  | promoted hheld hpromoted =>
      cases hto
      exact hpromoted

theorem RoleStore.experience?_mem {id : String} (h : store.experience? id = some experience) :
    experience ∈ store.experiences :=
  Rows.lookup_mem h

theorem StoreEffect.bound (h : StoreEffect parting store after) (hbound : store.Bound) : after.Bound := by
  cases h with
  | @saved experience hnew habsent =>
      refine ⟨fun experienceId => ?_, fun found hfound skillId hto => ?_⟩
      · rw [save_skills]
        exact hbound.once experienceId
      · rcases mem_save hfound with rfl | hfound
        · rw [hnew.1] at hto
          cases hto
        · obtain ⟨hskill, hmarker⟩ := hbound.bound found hfound skillId hto
          refine ⟨?_, hmarker⟩
          rw [save_skills]
          exact hskill
  | @wrote experience next hat he =>
      refine ⟨hbound.once, fun found hfound skillId hto => ?_⟩
      rcases mem_write hfound with rfl | hfound
      · exact he.bound (hbound.bound experience (experience?_mem hat)) hto
      · exact hbound.bound found hfound skillId hto
  | @skilled skill source _ hfrom habsent =>
      refine ⟨fun experienceId => ?_, fun found hfound skillId hto => ?_⟩
      · simp only [addSkill, List.filter_append, List.length_append]
        by_cases hsource : source = experienceId
        · subst hsource
          have hnone :
              store.skills.filter (fun skill => skill.promotedFrom = some source) = [] := by
            simpa [skillFrom?, List.find?_eq_none] using habsent
          simp [hnone, hfrom]
        · simpa [hfrom, hsource] using hbound.once experienceId
      · obtain ⟨⟨bound, hin, hbinds⟩, hmarker⟩ := hbound.bound found hfound skillId hto
        exact ⟨⟨bound, List.mem_append_left _ hin, hbinds⟩, hmarker⟩

theorem StoreEffect.promotedTo {id : String} (h : StoreEffect parting store after) (hbound : store.Bound)
    (hto : (store.experience? id).bind (·.promotedTo) = some skillId) :
    (after.experience? id).bind (·.promotedTo) = some skillId := by
  obtain ⟨found, hfound, hto⟩ := Option.bind_eq_some_iff.mp hto
  cases h with
  | @saved experience hnew habsent =>
      rw [experience?_save habsent]
      by_cases hid : id = experience.id
      · rw [hid, habsent] at hfound
        cases hfound
      · rw [if_neg hid, hfound]
        exact hto
  | @wrote experience next hat he =>
      rw [experience?_write hat he.id]
      by_cases hid : id = experience.id
      · rw [hid, hat] at hfound
        cases hfound
        rw [if_pos hid]
        have hmem := experience?_mem hat
        exact (he.promotedTo (hbound.bound _ hmem skillId hto) hto).1
      · rw [if_neg hid, hfound]
        exact hto
  | skilled => exact Option.bind_eq_some_iff.mpr ⟨found, hfound, hto⟩

end

/-! ## Every write, every call, every step -/

section
variable {parting : Prop} {repo next : MemoryRepository}
  {roleId experienceId skillId : String}

theorem MemoryEffect.bound (h : MemoryEffect parting repo next) (hbound : repo.Bound) : next.Bound := by
  intro role found hfound
  cases h with
  | opened habsent hstores =>
      rw [hstores] at hfound
      split at hfound
      · cases hfound
        exact ⟨fun _ => Nat.zero_le 1, fun _ hin => by cases hin⟩
      · exact hbound role found hfound
  | wrote hstore he hstores =>
      rw [hstores] at hfound
      split at hfound
      · cases hfound
        exact he.bound (hbound _ _ hstore)
      · exact hbound role found hfound

theorem MemoryEffect.promotedTo (h : MemoryEffect parting repo next) (hbound : repo.Bound)
    (hto : repo.promotedTo? roleId experienceId = some skillId) :
    next.promotedTo? roleId experienceId = some skillId := by
  unfold MemoryRepository.promotedTo? MemoryRepository.experience? at hto ⊢
  cases h with
  | opened habsent hstores =>
      rw [hstores]
      split
      · next hrole =>
          rw [hrole, habsent] at hto
          cases hto
      · exact hto
  | wrote hstore he hstores =>
      rw [hstores]
      split
      · next hrole =>
          rw [hrole, hstore] at hto
          exact he.promotedTo (hbound _ _ hstore) hto
      · exact hto

theorem MemoryEffects.bound (h : MemoryEffects parting repo next) (hbound : repo.Bound) : next.Bound := by
  induction h with
  | refl => exact hbound
  | tail _ hlast ih => exact hlast.bound ih

theorem MemoryEffects.promotedTo (h : MemoryEffects parting repo next) (hbound : repo.Bound)
    (hto : repo.promotedTo? roleId experienceId = some skillId) :
    next.promotedTo? roleId experienceId = some skillId := by
  induction h with
  | refl => exact hto
  | tail hinit hlast ih => exact hlast.promotedTo (MemoryEffects.bound hinit hbound) ih

end

structure PromotionState.Sound (s : PromotionState) : Prop where
  building : s.Building
  bound : s.repository.Bound

theorem PromotionState.Sound.empty : PromotionState.Sound {} where
  building := fun _ hin => by cases hin
  bound := fun _ _ hstore => by cases hstore

section
variable {runtime : PromotionRuntime} {s : PromotionState} {roleId experienceId skillId : String}

theorem PromotionState.Sound.effects (h : s.Sound) (label : PromotionLabel) :
    MemoryEffects True s.repository (s.step runtime label).repository :=
  PromotionState.step_effects h.building label fun _ _ _ _ _ _ => trivial

theorem PromotionState.Sound.step (h : s.Sound) (label : PromotionLabel) :
    (s.step runtime label).Sound where
  building := h.building.step label
  bound := MemoryEffects.bound (h.effects label) h.bound

theorem PromotionState.Sound.run (h : s.Sound) (labels : List PromotionLabel) :
    (labels.foldl (PromotionState.step runtime) s).Sound := by
  induction labels generalizing s with
  | nil => exact h
  | cons label rest ih => exact ih (h.step label)

theorem PromotionState.Sound.promotedTo (h : s.Sound) (labels : List PromotionLabel)
    (hto : s.repository.promotedTo? roleId experienceId = some skillId) :
    (labels.foldl (PromotionState.step runtime) s).repository.promotedTo? roleId experienceId =
      some skillId := by
  induction labels generalizing s with
  | nil => exact hto
  | cons label rest ih =>
      exact ih (h.step label)
        (MemoryEffects.promotedTo (h.effects label) h.bound hto)

end

/-- After every run and any further run: each role has at most one Skill from an Experience; an
Experience that is promoted has its Skill there, and a marker that says so; and what it is promoted
to never changes. -/
theorem promotion_binding (runtime : PromotionRuntime) (labels more : List PromotionLabel) :
    let s := labels.foldl (PromotionState.step runtime) {}
    let t := more.foldl (PromotionState.step runtime) s
    (∀ (roleId : String) (store : RoleStore), s.repository.store? roleId = some store →
      (∀ experienceId : String,
        (store.skills.filter fun skill => skill.promotedFrom = some experienceId).length ≤ 1) ∧
      ∀ experience ∈ store.experiences, ∀ skillId : String,
        experience.promotedTo = some skillId →
        (∃ skill ∈ store.skills,
          skill.id = skillId ∧ skill.promotedFrom = some experience.id) ∧
        ∃ marker ∈ experience.promotion, marker.status = .processed ∧
          marker.item.outcome = some .promoted ∧ marker.item.skillId = some skillId) ∧
    ∀ (roleId experienceId skillId : String),
      s.repository.promotedTo? roleId experienceId = some skillId →
      t.repository.promotedTo? roleId experienceId = some skillId := by
  intro s t
  have hs : s.Sound := PromotionState.Sound.empty.run labels
  refine ⟨fun roleId store hstore => ?_, fun roleId experienceId skillId => hs.promotedTo more⟩
  obtain ⟨once, bound⟩ := hs.bound roleId store hstore
  exact ⟨once, bound⟩

end Newide.Memory
