import Mathlib.Algebra.Ring.Int.Defs
import Mathlib.Data.List.Sort
import Newide.Memory.Experiences
import Newide.Memory.PersonaVersions

/-!
# What a Persona is evolved from

The input half of `src/memory/services/persona-evolution-candidates.ts`,
the two texts of `rule-based-persona-induction.ts` and the plan for a
candidate: which Skills and Experiences of a role count, the snapshot a
strategy reads, and what has to be written before a role can be claimed.

Confidences are thousandths.
-/

namespace Newide.Memory

/-! ## Selection -/

def isApprovedSkill (skill : SkillRecord) : Bool :=
  skill.reviewStatus = .approved && skill.marketStatus ≠ "superseded"

/-- Never judged, or judged for good. -/
def isEligibleExperience (experience : ExperienceRecord) : Bool :=
  match experience.promotion with
  | none => true
  | some marker =>
      match marker.status with
      | .processing | .deadLetter => false
      | .pending => marker.attemptCount = 0
      | .processed => marker.item.outcome ≠ some .pendingReview

section
variable {α κ : Type} [LT κ] [DecidableLT κ] [DecidableEq κ]
  (localeCompare : String → String → Ordering)

/-- `compareRecordsById`: first created first, then by id. -/
def recordBefore (createdAt : α → κ) (id : α → String) (left right : α) : Prop :=
  if createdAt left ≠ createdAt right then createdAt left < createdAt right
  else localeCompare (id left) (id right) ≠ .gt

instance (createdAt : α → κ) (id : α → String) :
    DecidableRel (recordBefore localeCompare createdAt id) :=
  fun left right => inferInstanceAs (Decidable (if createdAt left ≠ createdAt right then
    createdAt left < createdAt right else localeCompare (id left) (id right) ≠ .gt))

def selectApprovedSkills (skills : List SkillRecord) : List SkillRecord :=
  (skills.filter isApprovedSkill).insertionSort (recordBefore localeCompare (·.createdAt) (·.id))

def selectEligibleExperiences (experiences : List ExperienceRecord) : List ExperienceRecord :=
  (experiences.filter isEligibleExperience).insertionSort
    (recordBefore localeCompare (·.createdAt) (·.id))

end

/-! ## The snapshot -/

structure PersonaEvolutionSkillSnapshot where
  id : String
  description : String
  content : String
  tags : List String
  reviewStatus : ReviewStatus
  marketStatus : String
  updatedAt : Time

structure PersonaEvolutionExperienceSnapshot where
  id : String
  description : String
  content : String
  tags : List String
  type : ExperienceType
  confidence : Int
  updatedAt : Time

structure PersonaEvolutionFeedbackSummary where
  appliedFeedbackCount : Nat
  averageConfidence : Int
  lastFeedbackAt : Option Time := none

structure PersonaEvolutionInputSnapshot where
  roleId : String
  skills : List PersonaEvolutionSkillSnapshot := []
  experiences : List PersonaEvolutionExperienceSnapshot := []
  feedback : Option PersonaEvolutionFeedbackSummary := none

def averageConfidence (experiences : List ExperienceRecord) : Int :=
  let total := (experiences.map (·.confidence)).sum
  (2 * total + experiences.length) / (2 * experiences.length)

/-- The feedbacks the Experiences were changed by; none is not zero. -/
def personaEvolutionFeedbackSummary (experiences : List ExperienceRecord) :
    Option PersonaEvolutionFeedbackSummary :=
  let entries := experiences.flatMap fun experience =>
    experience.confidenceHistory.filter fun entry => entry.feedbackId.isSome
  if entries.isEmpty then none
  else some
    { appliedFeedbackCount := (entries.filterMap (·.feedbackId)).eraseDups.length
      averageConfidence := averageConfidence experiences
      lastFeedbackAt := (entries.map (·.updatedAt)).max? }

def toSkillSnapshot (skill : SkillRecord) : PersonaEvolutionSkillSnapshot where
  id := skill.id
  description := skill.description
  content := skill.content
  tags := skill.tags
  reviewStatus := skill.reviewStatus
  marketStatus := skill.marketStatus
  updatedAt := skill.updatedAt

def toExperienceSnapshot (experience : ExperienceRecord) :
    PersonaEvolutionExperienceSnapshot where
  id := experience.id
  description := experience.description
  content := experience.content
  tags := experience.tags
  type := experience.type
  confidence := experience.confidence
  updatedAt := experience.updatedAt

/-- What the runtime provides: the digest of the canonical text of a snapshot, the order of texts,
and how a number of thousandths is printed, in full and by `toFixed(2)`. -/
structure PersonaRuntime where
  sha256 : PersonaEvolutionInputSnapshot → String
  localeCompare : String → String → Ordering
  printed : Rat → String
  toFixed2 : Int → String

/-- `compareSnapshotEntries` as an order. -/
def sortById {α : Type} (runtime : PersonaRuntime) (id : α → String) (items : List α) : List α :=
  items.insertionSort fun left right => runtime.localeCompare (id left) (id right) ≠ .gt

def buildPersonaEvolutionSnapshot (runtime : PersonaRuntime) (roleId : String)
    (skills : List SkillRecord) (experiences : List ExperienceRecord) :
    PersonaEvolutionInputSnapshot :=
  let approved := selectApprovedSkills runtime.localeCompare skills
  let eligible := selectEligibleExperiences runtime.localeCompare experiences
  { roleId
    skills := sortById runtime (·.id) (approved.map toSkillSnapshot)
    experiences := sortById runtime (·.id) (eligible.map toExperienceSnapshot)
    feedback := personaEvolutionFeedbackSummary eligible }

/-- `personaEvolutionInputSnapshotHash`. -/
def PersonaRuntime.inputSnapshotHash (runtime : PersonaRuntime) (roleId : String)
    (skills : List SkillRecord) (experiences : List ExperienceRecord) : String :=
  runtime.sha256 (buildPersonaEvolutionSnapshot runtime roleId skills experiences)

/-! ## The texts of a Persona -/

/-- The tags that occur most, those seen first before others as frequent. -/
def topTags (tags : List String) (limit : Nat) : List String :=
  (tags.eraseDups.insertionSort fun left right => tags.count right ≤ tags.count left).take limit

def buildSkillsOverview (skills : List PersonaEvolutionSkillSnapshot) : String :=
  if skills.isEmpty then "Retrieve with query_memory."
  else
    let tags := topTags (skills.flatMap (·.tags)) 5
    let scope :=
      if tags.isEmpty then "Generalist." else "Focus tags: " ++ ", ".intercalate tags ++ "."
    let latest := skills.drop (skills.length - 3)
    toString skills.length ++ " skills promoted. " ++ scope ++ " Latest: "
      ++ "; ".intercalate (latest.map (·.description)) ++ "."

def buildExperienceCoverage (runtime : PersonaRuntime)
    (experiences : List PersonaEvolutionExperienceSnapshot) : String :=
  match (experiences.map (·.confidence)).max? with
  | none => "Retrieve with query_memory."
  | some maxConfidence =>
      let positive := (experiences.filter fun experience => experience.type = .positive).length
      let tags := topTags (experiences.flatMap (·.tags)) 5
      let tagLine :=
        if tags.isEmpty then "" else " Common tags: " ++ ", ".intercalate tags ++ "."
      toString experiences.length ++ " experiences (" ++ toString positive ++ " positive / "
        ++ toString (experiences.length - positive) ++ " negative), max confidence "
        ++ runtime.toFixed2 maxConfidence ++ "." ++ tagLine

/-! ## The plan for a candidate -/

inductive PersonaEvolutionApprovalMode where
  | autoApprove | manualReview
deriving DecidableEq

inductive PersonaEvolutionSkipReason where
  | alreadyEvolvedForSnapshot | evaluatedUnderCurrentStrategy | waitingForManualReview
  | deadLetter | inFlight | notDue | attemptsExhausted

inductive PersonaEvolutionCandidatePlan where
  | claim (marker : PersonaEvolutionMarker)
  /-- The marker is reset before the claim. -/
  | reevaluateThenClaim (marker : PersonaEvolutionMarker)
  /-- The claim that ran out is taken back before the claim. -/
  | expireThenClaim (marker : PersonaEvolutionMarker)
  | skip (reason : PersonaEvolutionSkipReason)

def initialPersonaEvolutionMarker (now : Time) : PersonaEvolutionMarker where
  item := {}
  updatedAt := now

/-- A marker with a conclusion waits for its evaluation again: the conclusion goes with the traces
of the delivery. -/
def reevaluatePersonaEvolutionMarker (current : PersonaEvolutionMarker) (now : Time) :
    PersonaEvolutionMarker :=
  { current with
    item := {}
    status := .pending
    attemptCount := 0
    claimedAt := none
    claimOwner := none
    claimToken := none
    leaseExpiresAt := none
    nextRetryAt := none
    lastError := none
    updatedAt := now }

def defaultPersonaEvolutionRetryPolicy : DeliveryRetryPolicy where
  maxAttempts := 5
  baseDelayMs := 30000
  maxDelayMs := 15 * 60000

structure PersonaEvolutionCandidateInput where
  now : Time
  strategyVersion : String
  approval : PersonaEvolutionApprovalMode
  inputSnapshotHash : String
  policy : DeliveryRetryPolicy := defaultPersonaEvolutionRetryPolicy

def planPersonaEvolutionCandidate (marker : Option PersonaEvolutionMarker)
    (input : PersonaEvolutionCandidateInput) : PersonaEvolutionCandidatePlan :=
  match marker with
  | none => .claim (initialPersonaEvolutionMarker input.now)
  | some marker =>
      match marker.status with
      | .deadLetter => .skip .deadLetter
      | .processing =>
          if isDeliveryClaimExpired marker input.now then .expireThenClaim marker
          else .skip .inFlight
      | .pending =>
          if input.policy.maxAttempts ≤ marker.attemptCount then .skip .attemptsExhausted
          else if isDeliveryDue marker input.now then .claim marker
          else .skip .notDue
      | .processed =>
          let again := .reevaluateThenClaim (reevaluatePersonaEvolutionMarker marker input.now)
          if marker.item.outcome = some .pendingReview then
            if input.approval = .autoApprove then again else .skip .waitingForManualReview
          else if marker.item.inputSnapshotHash = some input.inputSnapshotHash ∧
              marker.item.strategyVersion = some input.strategyVersion then
            .skip (if marker.item.outcome = some .evolved then .alreadyEvolvedForSnapshot
              else .evaluatedUnderCurrentStrategy)
          else again

def PersonaEvolutionCandidatePlan.marker (policy : DeliveryRetryPolicy) (now : Time) :
    PersonaEvolutionCandidatePlan → Option PersonaEvolutionMarker
  | .claim marker | .reevaluateThenClaim marker => some marker
  | .expireThenClaim marker => some (expireDeliveryClaimRecord policy marker now)
  | .skip _ => none

/-- `plan.kind === 'expire_then_claim'`. -/
def PersonaEvolutionCandidatePlan.expires : PersonaEvolutionCandidatePlan → Bool
  | .expireThenClaim _ => true
  | _ => false

structure PersonaEvolutionLastRun where
  outcome : PersonaEvolutionOutcome
  inputSnapshotHash : Option String
  strategyVersion : Option String
  personaVersion : Option Int
  evaluatedAt : Option String

def personaEvolutionLastRun (marker : Option PersonaEvolutionMarker) :
    Option PersonaEvolutionLastRun := do
  let marker ← marker
  let outcome ← marker.item.outcome
  return { outcome
           inputSnapshotHash := marker.item.inputSnapshotHash
           strategyVersion := marker.item.strategyVersion
           personaVersion := marker.item.personaVersion
           evaluatedAt := marker.item.evaluatedAt }

end Newide.Memory
