import Newide.Memory.DeliveryLifecycle

/-!
# Experiences, Skills and usage feedback

The records of `src/memory/schemas.ts` that promotion and feedback work
on, and `src/memory/services/usage-feedback.ts`: how one feedback
changes an Experience.

A confidence is written with three decimals, so it is a number of
thousandths here.  Embeddings are left out; nothing below reads one.
-/

namespace Newide.Memory

/-! ## The records -/

inductive Effectiveness where
  | fullyEffective | partiallyEffective | ineffective | notApplicable

def Effectiveness.text : Effectiveness → String
  | .fullyEffective => "fully_effective"
  | .partiallyEffective => "partially_effective"
  | .ineffective => "ineffective"
  | .notApplicable => "not_applicable"

inductive DriverFeedbackSource where
  | driverUsage | userRating

inductive UserRating where
  | resolved | partiallyResolved | unresolved | notRated

inductive ExperienceType where
  | positive | negative
deriving DecidableEq

structure ConfidenceHistoryEntry where
  value : Int
  updatedAt : Time
  reason : String
  /-- The feedback that caused the change. -/
  feedbackId : Option String := none

inductive PromotionOutcome where
  | promoted | pendingReview | rejected
deriving DecidableEq

structure PromotionConclusion where
  outcome : Option PromotionOutcome := none
  strategyVersion : Option String := none
  inputSnapshotHash : Option String := none
  evaluatedAt : Option Time := none
  skillId : Option String := none
  reasons : Option (List String) := none
  createdAt : Time

abbrev ExperiencePromotion := DeliveryRecord PromotionConclusion

structure ExperienceRecord where
  id : String
  description : String := ""
  content : String := ""
  confidence : Int
  tags : List String := []
  promotedTo : Option String := none
  promotion : Option ExperiencePromotion := none
  confidenceHistory : List ConfidenceHistoryEntry := []
  referencedCount : Nat := 0
  lastReferencedAt : Option Time := none
  sourceUserRating : Option UserRating := none
  type : ExperienceType := .positive
  createdAt : String
  updatedAt : Time

inductive ReviewStatus where
  | pending | approved
deriving DecidableEq

structure SkillRecord where
  id : String
  description : String
  content : String
  version : String
  reviewStatus : ReviewStatus
  tags : List String
  promotedFrom : Option String
  promotedAt : Time
  agentId : String
  marketStatus : String
  reviewedBy : Option String
  reviewedAt : Option Time
  createdAt : Time
  updatedAt : Time
deriving DecidableEq

/-! ## Usage feedback -/

def confidenceDelta : Effectiveness → Int
  | .fullyEffective => 100
  | .partiallyEffective => 50
  | .ineffective => -100
  | .notApplicable => 0

def confidenceCap : Int := 980

def confidenceFloor : Int := 100

def nextConfidenceAfterFeedback (current : Int) (effectiveness : Effectiveness) : Int :=
  min confidenceCap (max confidenceFloor (current + confidenceDelta effectiveness))

structure ExperienceFeedbackApplication where
  feedbackId : String
  experienceId : String
  applied : Bool
  effectiveness : Effectiveness
  note : String
  observedAt : Time
  feedbackSource : DriverFeedbackSource

def feedbackReason (input : ExperienceFeedbackApplication) : String :=
  match input.feedbackSource with
  | .userRating => "user_rating_validation:" ++ input.effectiveness.text
  | .driverUsage => "usage_validation:" ++ input.effectiveness.text

def latestTimestamp (current : Option Time) (candidate : Time) : Time :=
  match current with
  | none => candidate
  | some current => if current < candidate then candidate else current

def applyFeedbackToExperience (experience : ExperienceRecord)
    (input : ExperienceFeedbackApplication) (now : Time) : ExperienceRecord :=
  let nextConfidence := nextConfidenceAfterFeedback experience.confidence input.effectiveness
  { experience with
    referencedCount := experience.referencedCount + 1
    lastReferencedAt := some (latestTimestamp experience.lastReferencedAt input.observedAt)
    confidence := nextConfidence
    confidenceHistory := experience.confidenceHistory ++
      [{ value := nextConfidence
         updatedAt := now
         reason := feedbackReason input
         feedbackId := some input.feedbackId }]
    updatedAt := now }

def isFeedbackApplied (experience : ExperienceRecord) (feedbackId : String) : Bool :=
  experience.confidenceHistory.any fun entry => entry.feedbackId = some feedbackId

def ExperienceRecord.feedbackIds (experience : ExperienceRecord) : List String :=
  experience.confidenceHistory.filterMap (·.feedbackId)

section
variable {experience : ExperienceRecord} {input : ExperienceFeedbackApplication} {now : Time}

theorem applyFeedback_feedbackIds : (applyFeedbackToExperience experience input now).feedbackIds =
    experience.feedbackIds ++ [input.feedbackId] := by
  simp [ExperienceRecord.feedbackIds, applyFeedbackToExperience]

theorem isFeedbackApplied_iff {feedbackId : String} :
    isFeedbackApplied experience feedbackId = true ↔ feedbackId ∈ experience.feedbackIds := by
  simp [isFeedbackApplied, ExperienceRecord.feedbackIds]

/-- An Experience as it is extracted: nothing has referred to it or judged it. -/
def ExperienceRecord.New (experience : ExperienceRecord) : Prop :=
  experience.promotedTo = none ∧ experience.promotion = none ∧ experience.referencedCount = 0 ∧
    experience.feedbackIds = []

instance : Decidable experience.New :=
  inferInstanceAs (Decidable (_ ∧ _ ∧ _ ∧ _))

end

end Newide.Memory
