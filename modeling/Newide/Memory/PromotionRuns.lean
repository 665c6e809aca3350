import Newide.Foundation.Runs
import Newide.Memory.PromotionExecutor

/-!
# Promotion by many workers

Any number of workers claim candidates and execute them, one call of the
repository at a time, while Experiences are saved, feedback is applied
and claims run out.  Whatever happens, an Experience is promoted to one
Skill, which is there and comes from it, and stays promoted to it.
-/

namespace Newide.Memory

open Fallible Relation PromotionExecution

/-! ## The system -/

structure PromotionState where
  repository : MemoryRepository := {}
  claimed : List ClaimedPromotionCandidate := []
  executions : List PromotionExecution := []

inductive PromotionLabel where
  | ensureAgent (roleId : String)
  | saveExperience (roleId : String) (experience : { e : ExperienceRecord // e.New })
  | applyFeedback (roleId : String) (input : ExperienceFeedbackApplication) (now : Time)
  | claimNext (request : PromotionClaimRequest) (claimToken : String)
  | restoreExpired (roleId : Option String) (now : Time) (policy : DeliveryRetryPolicy)
  | retryDeadLetter (roleId experienceId : String) (now : Time)
  /-- A worker begins to execute a candidate that was claimed. -/
  | execute (claim : Nat) (options : PromotionExecutionOptions)
  | evaluated (index : Nat) (message : PromotionDecisionViolation → String)
      (answer : StrategyAnswer)
  /-- The next call of an execution. -/
  | advance (index : Nat) (id : String)
  /-- The next call of an execution throws. -/
  | thrown (index : Nat) (e : ThrownError)

namespace PromotionState

def moveTo (s : PromotionState) (index : Nat) (execution : PromotionExecution)
    (point : ExecutionPoint) : PromotionState :=
  { s with executions := s.executions.set index { execution with point } }

def wrote {α : Type} (s : PromotionState) :
    Except String (α × MemoryRepository) → PromotionState
  | .ok (_, repository) => { s with repository }
  | .error _ => s

def step (runtime : PromotionRuntime) (s : PromotionState) : PromotionLabel → PromotionState
  | .ensureAgent roleId => { s with repository := s.repository.ensureAgent roleId }
  | .saveExperience roleId experience =>
      s.wrote (s.repository.saveExperienceIfAbsent roleId experience.val)
  | .applyFeedback roleId input now =>
      s.wrote (s.repository.applyExperienceFeedback roleId input now)
  | .claimNext request claimToken =>
      let (claimed, repository) :=
        s.repository.claimNextPromotionCandidate runtime request claimToken
      { s with repository, claimed := s.claimed ++ claimed.toList }
  | .restoreExpired roleId now policy =>
      { s with repository := s.repository.restoreExpiredPromotionClaims roleId now policy }
  | .retryDeadLetter roleId experienceId now =>
      { s with repository := (s.repository.retryDeadLetterPromotion roleId experienceId now).2 }
  | .execute claim options =>
      match s.claimed[claim]? with
      | some candidate => { s with executions := s.executions ++ [{ candidate, options }] }
      | none => s
  | .evaluated index message answer =>
      match s.executions[index]? with
      | some execution =>
          match execution.point with
          | .evaluating => s.moveTo index execution (execution.evaluated message answer)
          | _ => s
      | none => s
  | .advance index id =>
      match s.executions[index]? with
      | some execution =>
          let (point, repository) := execution.advance runtime.sha256 id s.repository
          { s with repository }.moveTo index execution point
      | none => s
  | .thrown index e =>
      match s.executions[index]? with
      | some execution => s.moveTo index execution (execution.thrown e)
      | none => s

end PromotionState

/-! ## What a step writes -/

/-- An execution that writes a Skill has built it from its own Experience, and one that settles
without a Skill does not promote. -/
def PromotionExecution.Building (execution : PromotionExecution) : Prop :=
  match execution.point with
  | .settling _ outcome => outcome ≠ .promoted
  | .embedding _ skill => skill.promotedFrom = some execution.candidate.experience.id
  | _ => True

section
variable {parting : Prop} {runtime : PromotionRuntime} {sha256 : PromotionSnapshot → String}
  {s : PromotionState} {repo : MemoryRepository} {execution : PromotionExecution} {id : String}

/-- The next call may part a Skill from its Experience. -/
def PromotionExecution.Parting (execution : PromotionExecution) : Prop :=
  match execution.point with
  | .settling .. => True
  | .embedding .. => True
  | _ => False

theorem PromotionExecution.advance_effects (hb : execution.Building)
    (hparting : execution.Parting → parting) :
    MemoryEffects parting repo (execution.advance sha256 id repo).2 := by
  unfold advance
  cases hpoint : execution.point with
  | evaluating | finished => exact .refl
  | settling decision outcome =>
      simp only [Parting, hpoint, true_implies] at hparting
      simp only
      split
      · exact .refl
      · next h => exact completePromotion_effects (fun _ => hparting) h
      · next h => exact completePromotion_effects (fun _ => hparting) h
  | saving decision =>
      simp only
      split <;> exact .refl
  | embedding decision skill =>
      simp only [Building, hpoint] at hb
      simp only [Parting, hpoint, true_implies] at hparting
      simp only
      split
      · exact .refl
      · next h => exact saveSkillIfAbsent_effects hparting hb h
  | completing decision saved =>
      simp only
      split
      · exact .refl
      · next h => exact completePromotion_effects (fun hne => absurd rfl hne) h
      · next h => exact completePromotion_effects (fun hne => absurd rfl hne) h
  | failing failure skillReused =>
      simp only
      have heffects : MemoryEffects parting repo
        (repo.failPromotion (execution.failureRequest failure)).2 := failPromotion_effects
      split
      · next h => rwa [h] at heffects
      · next h => rwa [h] at heffects

theorem PromotionExecution.building_advance :
    PromotionExecution.Building
      { execution with point := (execution.advance sha256 id repo).1 } := by
  unfold advance
  cases hpoint : execution.point with
  | evaluating | finished => exact trivial
  | settling decision outcome =>
      simp only
      split <;> exact trivial
  | saving decision =>
      simp only
      split
      · exact trivial
      · exact trivial
      · rfl
  | embedding decision skill =>
      simp only
      split <;> exact trivial
  | completing decision saved =>
      simp only
      split <;> exact trivial
  | failing failure skillReused =>
      simp only
      split <;> exact trivial

theorem PromotionExecution.building_evaluated {message : PromotionDecisionViolation → String}
    {answer : StrategyAnswer} :
    PromotionExecution.Building { execution with point := execution.evaluated message answer } := by
  unfold evaluated
  split
  · exact trivial
  · exact trivial
  · split
    · exact trivial
    · split
      · exact trivial
      · exact PromotionOutcome.noConfusion
      · exact PromotionOutcome.noConfusion

theorem PromotionExecution.building_thrown {e : ThrownError} :
    PromotionExecution.Building { execution with point := execution.thrown e } := by
  unfold thrown
  cases execution.point <;> exact trivial

/-- Every Skill that is about to be written comes from the Experience of its execution. -/
def PromotionState.Building (s : PromotionState) : Prop :=
  ∀ execution ∈ s.executions, execution.Building

theorem PromotionState.Building.moveTo {index : Nat} {point : ExecutionPoint} (h : s.Building)
    (hb : PromotionExecution.Building { execution with point }) :
    (s.moveTo index execution point).Building := by
  intro found hfound
  rcases List.mem_or_eq_of_mem_set hfound with hfound | rfl
  · exact h found hfound
  · exact hb

theorem PromotionState.wrote_executions {α : Type} (r : Except String (α × MemoryRepository)) :
    (s.wrote r).executions = s.executions := by
  unfold wrote
  split <;> rfl

theorem PromotionState.Building.step (h : s.Building) (label : PromotionLabel) :
    (s.step runtime label).Building := by
  cases label with
  | ensureAgent | claimNext | restoreExpired | retryDeadLetter => exact h
  | saveExperience | applyFeedback =>
      simp only [PromotionState.step, PromotionState.Building, wrote_executions]
      exact h
  | execute claim options =>
      simp only [PromotionState.step]
      split
      · intro found hfound
        rcases List.mem_append.mp hfound with hfound | hfound
        · exact h found hfound
        · rw [List.mem_singleton.mp hfound]
          exact trivial
      · exact h
  | evaluated index message answer =>
      simp only [PromotionState.step]
      split
      · split
        · exact h.moveTo building_evaluated
        · exact h
      · exact h
  | advance index id =>
      simp only [PromotionState.step]
      split
      · exact PromotionState.Building.moveTo (s := { s with repository := _ }) h
          building_advance
      · exact h
  | thrown index e =>
      simp only [PromotionState.step]
      split
      · exact h.moveTo building_thrown
      · exact h

/-- Every step writes what its calls write; only the next call of an execution parts anything. -/
theorem PromotionState.step_effects (h : s.Building) (label : PromotionLabel)
    (hparting : ∀ (index : Nat) (id : String) (execution : PromotionExecution),
      label = .advance index id → s.executions[index]? = some execution → execution.Parting →
        parting) :
    MemoryEffects parting s.repository (s.step runtime label).repository := by
  cases label with
  | ensureAgent => exact ensureAgent_effects
  | saveExperience roleId experience =>
      simp only [PromotionState.step, wrote]
      split
      · next hsave => exact saveExperienceIfAbsent_effects hsave experience.property
      · exact .refl
  | applyFeedback roleId input now =>
      simp only [PromotionState.step, wrote]
      split
      · next happly => exact applyExperienceFeedback_effects happly
      · exact .refl
  | claimNext => exact claimFirstPromotion_effects
  | restoreExpired => exact restoreExpiredPromotionClaims_effects
  | retryDeadLetter => exact retryDeadLetterPromotion_effects
  | execute claim options =>
      simp only [PromotionState.step]
      split <;> exact .refl
  | evaluated index message answer =>
      simp only [PromotionState.step]
      split
      · split <;> exact .refl
      · exact .refl
  | advance index id =>
      simp only [PromotionState.step]
      split
      · next execution hexecution =>
          exact advance_effects (h execution (List.mem_of_getElem? hexecution))
            (hparting index id execution rfl hexecution)
      · exact .refl
  | thrown index e =>
      simp only [PromotionState.step]
      split <;> exact .refl

end

end Newide.Memory
