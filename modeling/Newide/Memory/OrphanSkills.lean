import Newide.Memory.PromotionBinding

/-!
# Skills left behind

The Skill is written before the promotion is concluded, and neither
write looks at what the other attempt does: an attempt that lost its
claim may write a Skill from an Experience that was turned down since,
and one that took the claim over may turn an Experience down that an
earlier attempt has written a Skill from.  These two steps, and no
others, leave a Skill behind.
-/

namespace Newide.Memory

open Fallible Relation PromotionState MemoryRepository RoleStore

/-- No Skill comes from an Experience whose promotion was turned down. -/
def RoleStore.NoOrphan (store : RoleStore) : Prop :=
  ∀ experience ∈ store.experiences, experience.TurnedDown →
    ∀ skill ∈ store.skills, skill.promotedFrom ≠ some experience.id

def MemoryRepository.NoOrphan (repo : MemoryRepository) : Prop :=
  ∀ (roleId : String) (store : RoleStore), repo.store? roleId = some store → store.NoOrphan

/-- `settling`: the execution holds the claim on an Experience a Skill comes from.  `embedding`: its
Skill is the first from an Experience that was turned down. -/
def PromotionExecution.LeavesOrphan (execution : PromotionExecution) (repo : MemoryRepository) :
    Prop :=
  let roleId := execution.candidate.roleId
  let experienceId := execution.candidate.experience.id
  match execution.point with
  | .settling _ _ =>
      repo.Holds roleId experienceId
        { claimToken := execution.candidate.claimToken, owner := execution.options.owner
          now := execution.options.now } ∧
      ∃ store ∈ repo.store? roleId, (store.skillFrom? experienceId).isSome
  | .embedding _ _ =>
      ∃ store ∈ repo.store? roleId, store.skillFrom? experienceId = none ∧
        ∃ experience ∈ store.experience? experienceId, experience.TurnedDown
  | _ => False

/-- The next call of an execution is one of these two. -/
def PromotionState.LeavesOrphan (s : PromotionState) (label : PromotionLabel)
    (_ : PromotionState) : Prop :=
  match label with
  | .advance index _ =>
      ∃ execution ∈ s.executions[index]?, execution.LeavesOrphan s.repository
  | _ => False

/-! ## The other writes -/

variable {experienceId : String} {skill : SkillRecord}

section
variable {repo next : MemoryRepository} {store after : RoleStore} {roleId : String}
  {experience found : ExperienceRecord}

theorem RoleStore.skillFrom?_eq_none :
    store.skillFrom? experienceId = none ↔
      ∀ skill ∈ store.skills, skill.promotedFrom ≠ some experienceId := by
  simp [skillFrom?, List.find?_eq_none]

theorem ExperienceEffect.turnedDown_of (h : ExperienceEffect False store experience found)
    (hdown : found.TurnedDown) : experience.TurnedDown := by
  obtain ⟨marker, hmarker, hstatus, houtcome⟩ := hdown
  cases h with
  | feedback => exact ⟨marker, hmarker, hstatus, houtcome⟩
  | marked hopen hne =>
      cases hmarker
      exact absurd hstatus hne
  | turnedDown hparting => exact hparting.elim
  | promoted hheld hto =>
      obtain ⟨_, other, hother, _, hpromoted, _⟩ := hto
      rw [hmarker] at hother
      cases hother
      rw [hpromoted] at houtcome
      rcases houtcome with h | h <;> cases h

theorem StoreEffect.noOrphan (h : StoreEffect False store after) (hno : store.NoOrphan) :
    after.NoOrphan := by
  intro found hfound hdown
  cases h with
  | saved hnew habsent =>
      rw [save_skills]
      rcases mem_save hfound with rfl | hfound
      · obtain ⟨marker, hmarker, _⟩ := hdown
        rw [hnew.2.1] at hmarker
        cases hmarker
      · exact hno found hfound hdown
  | @wrote experience next hat he =>
      rcases mem_write hfound with rfl | hfound
      · rw [he.id]
        exact hno experience (experience?_mem hat) (he.turnedDown_of hdown)
      · exact hno found hfound hdown
  | skilled hparting => exact hparting.elim

theorem MemoryEffect.noOrphan (h : MemoryEffect False repo next) (hno : repo.NoOrphan) :
    next.NoOrphan := by
  intro role found hfound
  cases h with
  | opened habsent hstores =>
      rw [hstores] at hfound
      split at hfound
      · cases hfound
        exact fun _ hin => by cases hin
      · exact hno role found hfound
  | wrote hstore he hstores =>
      rw [hstores] at hfound
      split at hfound
      · cases hfound
        exact he.noOrphan (hno _ _ hstore)
      · exact hno role found hfound

theorem MemoryEffects.noOrphan (h : MemoryEffects False repo next) (hno : repo.NoOrphan) :
    next.NoOrphan := by
  induction h with
  | refl => exact hno
  | tail _ hlast ih => exact hlast.noOrphan ih

/-! ## The two writes -/

theorem noOrphan_updateStore {f : RoleStore → RoleStore}
    (hf : ∀ store, (f store).roleId = store.roleId) (hno : repo.NoOrphan)
    (hstore : repo.store? roleId = some store) :
    (repo.updateStore roleId f hf).NoOrphan ↔ (f store).NoOrphan := by
  constructor
  · intro h
    refine h roleId (f store) ?_
    rw [store?_updateStore, if_pos rfl, hstore]
    rfl
  · intro h role other hother
    rw [store?_updateStore] at hother
    split at hother
    · next hrole =>
        rw [hrole, hstore] at hother
        cases hother
        exact h
    · exact hno role other hother

theorem noOrphan_turnDown (hno : store.NoOrphan)
    (hat : store.experience? experience.id = some experience) (hid : found.id = experience.id)
    (hdown : found.TurnedDown) :
    (store.write found).NoOrphan ↔ store.skillFrom? experience.id = none := by
  rw [skillFrom?_eq_none]
  constructor
  · intro h
    have hin : found ∈ (store.write found).experiences :=
      Rows.mem_replace.mpr (.inl ⟨rfl, experience, experience?_mem hat, hid.symm⟩)
    rw [← hid]
    exact h found hin hdown
  · intro h other hother hdown'
    rcases mem_write hother with rfl | hother
    · rw [hid]
      exact h
    · exact hno other hother hdown'

theorem noOrphan_addSkill (hno : store.NoOrphan) (hfrom : skill.promotedFrom = some experienceId) :
    (store.addSkill skill).NoOrphan ↔
      ∀ experience ∈ store.experience? experienceId, ¬ experience.TurnedDown := by
  constructor
  · intro h experience hat hdown
    have hid : experience.id = experienceId := Rows.lookup_key hat
    refine h experience (experience?_mem hat) hdown skill ?_ (hid ▸ hfrom)
    exact List.mem_append_right _ (List.mem_singleton_self _)
  · intro h experience hin hdown other hother hsame
    rcases List.mem_append.mp hother with hother | hother
    · exact hno experience hin hdown other hother hsame
    · rw [List.mem_singleton.mp hother, hfrom] at hsame
      cases hsame
      exact h experience (store.distinct.lookup_of_mem hin) hdown

theorem completePromotion_noOrphan {request : PromotionCompletionRequest}
    {answer : Option ExperienceRecord} (hne : request.outcome ≠ .promoted) (hno : repo.NoOrphan)
    (h : repo.completePromotion request = .ok (answer, next)) : next.NoOrphan ↔
      (answer.isSome → ∀ store ∈ repo.store? request.roleId,
        store.skillFrom? request.experienceId = none) := by
  rcases completePromotion_cases h with ⟨rfl, rfl⟩ |
    ⟨experience, concluded, store, rfl, hat, hid, hstore, rfl, _, h⟩
  · simpa using hno
  · rcases h with ⟨_, hdown, marker, rfl⟩ | ⟨hpromoted, _⟩
    · obtain ⟨found, hfound, hat⟩ := experience?_eq hat
      rw [hstore] at hfound
      cases hfound
      have hwrite := noOrphan_turnDown (hno _ _ hstore) hat
        (rfl : ExperienceRecord.id { experience with promotion := some marker } = _) hdown
      refine (noOrphan_updateStore (f := (·.write _)) (fun _ => rfl) hno hstore).trans
        (hwrite.trans ?_)
      rw [hid]
      constructor
      · intro h _ other hother
        rw [hstore] at hother
        cases hother
        exact h
      · intro h
        exact h rfl store hstore
    · exact absurd hpromoted hne

theorem saveSkillIfAbsent_noOrphan {result : SkillSaveResult} (hno : repo.NoOrphan)
    (hfrom : skill.promotedFrom = some experienceId)
    (h : repo.saveSkillIfAbsent roleId experienceId skill = .ok (result, next)) :
    next.NoOrphan ↔ ∀ store ∈ repo.store? roleId, store.skillFrom? experienceId = none →
      ∀ experience ∈ store.experience? experienceId, ¬ experience.TurnedDown := by
  simp only [saveSkillIfAbsent, bind_eq_ok] at h
  obtain ⟨store, hstore, h⟩ := h
  have hstore := requireRoleStore_ok.mp hstore
  have hsame : ∀ other ∈ repo.store? roleId, other = store := by
    intro other hother
    rw [hstore] at hother
    cases hother
    rfl
  split at h
  · next raced hraced =>
      cases h
      refine ⟨fun _ other hother hnone => ?_, fun _ => hno⟩
      rw [hsame other hother, hraced] at hnone
      cases hnone
  · next habsent =>
      cases h
      refine (noOrphan_updateStore (f := (·.addSkill skill)) (fun _ => rfl) hno hstore).trans
        ((noOrphan_addSkill (hno _ _ hstore) hfrom).trans ⟨fun h other hother _ => ?_, fun h => ?_⟩)
      · rw [hsame other hother]
        exact h
      · exact h store hstore habsent

/-! ## One call of an execution -/

variable {sha256 : PromotionSnapshot → String} {execution : PromotionExecution} {id : String}

theorem PromotionExecution.advance_noOrphan (hb : execution.Building) (hno : repo.NoOrphan) :
    (execution.advance sha256 id repo).2.NoOrphan ↔ ¬ execution.LeavesOrphan repo := by
  cases hpoint : execution.point with
  | evaluating | saving | completing | failing | finished =>
      have hparting : ¬ execution.Parting := by simp [Parting, hpoint]
      have heffects : MemoryEffects False repo (execution.advance sha256 id repo).2 :=
        advance_effects hb fun h => absurd h hparting
      have hquiet := MemoryEffects.noOrphan heffects hno
      simp [LeavesOrphan, hpoint, hquiet]
  | settling decision outcome =>
      simp only [Building, hpoint] at hb
      simp only [advance, LeavesOrphan, hpoint]
      have hconclusion : (repo.Holds _ _ _ ∧ ∃ answer next, repo.completePromotion
            (execution.completionRequest sha256 decision outcome decision.strategyVersion none) =
              .ok (some answer, next)) ∨ (¬ repo.Holds _ _ _ ∧ _) :=
        completePromotion_turnsDown hb rfl
      rcases hconclusion with ⟨hholds, answer, next, hdone⟩ | ⟨hholds, hdone⟩
      · simp only [hdone]
        refine (completePromotion_noOrphan hb hno hdone).trans ⟨fun h hleaves => ?_, fun h => ?_⟩
        · obtain ⟨_, store, hstore, hfound⟩ := hleaves
          have hnone : store.skillFrom? execution.candidate.experience.id = none :=
            h rfl store hstore
          rw [hnone] at hfound
          cases hfound
        · intro _ store hstore
          rw [← Option.not_isSome_iff_eq_none]
          exact fun hfound => h ⟨hholds, store, hstore, hfound⟩
      · simp only [hdone]
        exact ⟨fun _ hleaves => hholds hleaves.1, fun _ => hno⟩
  | embedding decision skill =>
      simp only [Building, hpoint] at hb
      simp only [advance, LeavesOrphan, hpoint]
      cases hsave : repo.saveSkillIfAbsent execution.candidate.roleId
          execution.candidate.experience.id skill with
      | error message =>
          refine ⟨fun _ hleaves => ?_, fun _ => hno⟩
          obtain ⟨store, hstore, hnone, _⟩ := hleaves
          simp [saveSkillIfAbsent, requireStore,
            Option.mem_def.mp hstore, orThrow, hnone, bind, Except.bind, pure, Except.pure] at hsave
      | ok saved =>
          refine (saveSkillIfAbsent_noOrphan hno hb hsave).trans ⟨fun h hleaves => ?_, fun h => ?_⟩
          · obtain ⟨store, hstore, hnone, experience, hat, hdown⟩ := hleaves
            exact h store hstore hnone experience hat hdown
          · intro store hstore hnone experience hat hdown
            exact h ⟨store, hstore, hnone, experience, hat, hdown⟩

end

/-! ## Every run -/

section
variable {runtime : PromotionRuntime} {s : PromotionState} {label : PromotionLabel}

theorem PromotionState.step_noOrphan (hb : s.Building) (hno : s.repository.NoOrphan) :
    (s.step runtime label).repository.NoOrphan ↔
      ¬ s.LeavesOrphan label (s.step runtime label) := by
  cases label with
  | advance index id =>
      simp only [step, LeavesOrphan]
      cases hexecution : s.executions[index]? with
      | none =>
          refine ⟨fun _ hleaves => ?_, fun _ => hno⟩
          obtain ⟨_, hin, _⟩ := hleaves
          cases hin
      | some execution =>
          refine (PromotionExecution.advance_noOrphan
            (hb execution (List.mem_of_getElem? hexecution)) hno).trans ?_
          simp
  | ensureAgent | saveExperience | applyFeedback | claimNext | restoreExpired | retryDeadLetter
  | execute | evaluated | thrown =>
      refine ⟨fun _ h => h, fun _ => ?_⟩
      refine MemoryEffects.noOrphan (step_effects hb _ ?_) hno
      intro index id execution hlabel
      cases hlabel

theorem MemoryRepository.NoOrphan.empty : MemoryRepository.NoOrphan {} :=
  fun _ _ hstore => by cases hstore

end

/-- Along a run no Skill is ever left behind just when none of its steps writes the first Skill
from an Experience that was turned down, and none turns down, under its claim, an Experience that
a Skill comes from. -/
theorem no_orphan_skill_iff (runtime : PromotionRuntime) (labels : List PromotionLabel) :
    (∀ seen, seen <+: labels →
      (seen.foldl (step runtime) {}).repository.NoOrphan) ↔
    ¬ Runs.Happened (step runtime) {} labels PromotionState.LeavesOrphan :=
  Runs.always_iff_not_happened (J := PromotionState.Building)
    (I := fun s => s.repository.NoOrphan) (fun _ label hb => hb.step label)
    (fun _ _ hb hno => (step_noOrphan hb hno).mpr)
    (fun _ _ hb hno hbad h => (step_noOrphan hb hno).mp h hbad)
    PromotionState.Sound.empty.building MemoryRepository.NoOrphan.empty

/-! ## A Skill that is left behind

Worker `a` writes the Skill and stops.  Feedback lowers the confidence
of the Experience, worker `b` takes the claim over and turns it down. -/

def sampleRuntime : PromotionRuntime where
  sha256 := fun _ => "digest"
  localeCompare := fun _ _ => .eq

def sampleExperience : { e : ExperienceRecord // e.New } :=
  ⟨{ id := "e", confidence := 960, createdAt := "2026-01-01T00:00:00.000Z", updatedAt := 0 },
    by decide⟩

def sampleClaim (owner : String) (now : Time) : PromotionClaimRequest where
  owner := owner
  now := now
  leaseMs := 1000
  strategyVersion := "v1"
  approval := .autoApprove

def sampleDecision (verdict : PromotionVerdict) (reasons : List String)
    (blockingRules : List PromotionBlockerRule) : StrategyAnswer :=
  .decided
    { verdict, strategyVersion := "v1", approval := .autoApprove, reasons, blockingRules,
      experienceId := "e" }

def orphanRun : List PromotionLabel :=
  [ .ensureAgent "r",
    .saveExperience "r" sampleExperience,
    .claimNext (sampleClaim "a" 0) "token-a",
    .execute 0 { approval := .autoApprove, now := 0, strategyVersion := "v1" },
    .evaluated 0 (fun _ => "") (sampleDecision .eligible ["Candidate qualifies."] []),
    .advance 0 "s",
    .advance 0 "s",
    .applyFeedback "r"
      { feedbackId := "f", experienceId := "e", applied := true, effectiveness := .ineffective,
        note := "", observedAt := 500, feedbackSource := .driverUsage } 500,
    .claimNext (sampleClaim "b" 2000) "token-b",
    .execute 1 { approval := .autoApprove, now := 2000, strategyVersion := "v1" },
    .evaluated 1 (fun _ => "") (sampleDecision .rejected
      ["confidence 0.86 does not exceed the threshold 0.95."] [.belowConfidenceThreshold]),
    .advance 1 "s" ]

theorem skill_left_behind : ¬ ∀ labels : List PromotionLabel,
    (labels.foldl (step sampleRuntime) {}).repository.NoOrphan := by
  intro h
  have hleft : ∃ store ∈ (orphanRun.foldl (step sampleRuntime) {}).repository.store?
      "r", ∃ experience ∈ store.experiences, experience.TurnedDown ∧
        ∃ skill ∈ store.skills, skill.promotedFrom = some experience.id := by
    decide
  obtain ⟨store, hstore, experience, hin, hdown, skill, hskill, hfrom⟩ := hleft
  exact h orphanRun "r" store hstore experience hin hdown skill hskill hfrom

end Newide.Memory
