import Newide.Memory.Experiences

/-!
# Promotion candidates

`src/memory/services/promotion-candidates.ts`: which Experience is up for
promotion, and what has to be written before it can be claimed.

The digest of the evaluation input is computed outside; `sha256` stands
for it, over the parts the source joins.
-/

namespace Newide.Memory

inductive PromotionApprovalMode where
  | autoApprove | manualReview
deriving DecidableEq

def defaultPromotionRetryPolicy : DeliveryRetryPolicy where
  maxAttempts := 5
  baseDelayMs := 30000
  maxDelayMs := 15 * 60000

/-! ## The marker -/

/-- `promotedTo` is the authority; the conclusion in the marker says the same. -/
def isPromotedExperience (experience : ExperienceRecord) : Bool :=
  experience.promotedTo.isSome ||
    experience.promotion.any fun marker => marker.item.outcome = some .promoted

def initialPromotionMarker (now : Time) : ExperiencePromotion where
  item := { createdAt := now }
  updatedAt := now

/-- A marker that was judged waits for its evaluation again; only its age stays. -/
def reevaluatePromotionMarker (current : ExperiencePromotion) (now : Time) :
    ExperiencePromotion :=
  { current with
    item := { createdAt := current.item.createdAt }
    status := .pending
    attemptCount := 0
    claimedAt := none
    claimOwner := none
    claimToken := none
    leaseExpiresAt := none
    nextRetryAt := none
    lastError := none
    updatedAt := now }

structure PromotionSnapshot where
  id : String
  type : ExperienceType
  confidence : Int
  referencedCount : Nat
  sourceUserRating : UserRating
  updatedAt : Time

def promotionInputSnapshotHash (sha256 : PromotionSnapshot → String)
    (experience : ExperienceRecord) : String :=
  sha256
    { id := experience.id
      type := experience.type
      confidence := experience.confidence
      referencedCount := experience.referencedCount
      sourceUserRating := experience.sourceUserRating.getD .notRated
      updatedAt := experience.updatedAt }

/-! ## The plan for a candidate -/

inductive PromotionSkipReason where
  | alreadyPromoted | deadLetter | inFlight | notDue | attemptsExhausted
  | evaluatedUnderCurrentStrategy | waitingForManualReview

inductive PromotionCandidatePlan where
  | claim (marker : ExperiencePromotion)
  /-- The marker is reset before the claim. -/
  | reevaluateThenClaim (marker : ExperiencePromotion)
  /-- The claim that ran out is taken back before the claim. -/
  | expireThenClaim (marker : ExperiencePromotion)
  | skip (reason : PromotionSkipReason)

structure PromotionCandidateInput where
  now : Time
  strategyVersion : String
  approval : PromotionApprovalMode
  policy : DeliveryRetryPolicy := defaultPromotionRetryPolicy

def planPromotionCandidate (sha256 : PromotionSnapshot → String) (experience : ExperienceRecord)
    (input : PromotionCandidateInput) : PromotionCandidatePlan :=
  if isPromotedExperience experience then .skip .alreadyPromoted
  else
    match experience.promotion with
    | none => .claim (initialPromotionMarker input.now)
    | some marker =>
        match marker.status with
        | .deadLetter => .skip .deadLetter
        | .processing =>
            if isDeliveryClaimExpired marker input.now then .expireThenClaim marker
            else .skip .inFlight
        | .pending =>
            if input.policy.maxAttempts ≤ marker.attemptCount then .skip .attemptsExhausted
            else if isDeliveryDue marker input.now then .claim marker
            else .skip .notDue
        | .processed =>
            let again := .reevaluateThenClaim (reevaluatePromotionMarker marker input.now)
            if marker.item.strategyVersion ≠ some input.strategyVersion then again
            else
              match marker.item.outcome with
              | some .pendingReview =>
                  if input.approval = .autoApprove then again
                  else .skip .waitingForManualReview
              | some .rejected =>
                  if marker.item.inputSnapshotHash =
                      some (promotionInputSnapshotHash sha256 experience) then
                    .skip .evaluatedUnderCurrentStrategy
                  else again
              | _ => again

/-- The marker a plan claims; the policy decides if a claim that ran out may be tried again. -/
def PromotionCandidatePlan.marker (policy : DeliveryRetryPolicy) (now : Time) :
    PromotionCandidatePlan → Option ExperiencePromotion
  | .claim marker => some marker
  | .reevaluateThenClaim marker => some marker
  | .expireThenClaim marker => some (expireDeliveryClaimRecord policy marker now)
  | .skip _ => none

section
variable {sha256 : PromotionSnapshot → String} {experience : ExperienceRecord}
  {input : PromotionCandidateInput} {plan : PromotionCandidatePlan}

theorem planPromotionCandidate_unpromoted (h : planPromotionCandidate sha256 experience input = plan)
    (hplan : ∀ reason, plan ≠ .skip reason) : experience.promotedTo = none := by
  subst h
  unfold planPromotionCandidate at hplan
  split at hplan
  · exact absurd rfl (hplan _)
  · next hnot =>
      cases hto : experience.promotedTo with
      | none => rfl
      | some skillId => simp [isPromotedExperience, hto] at hnot

end

end Newide.Memory
