import Mathlib.Data.List.Basic
import Newide.Memory.DeliveryFailures
import Newide.Memory.DeliveryLifecycle
import Newide.Memory.Experiences

/-!
# Driver feedback

The records of the feedback outbox and of the parking lot, the identity
of a feedback (`driverFeedbackKey` of
`src/memory/services/context-delivery.ts`) and the checks of
`src/memory/runtime/driver-feedback-processor.ts` and
`src/memory/services/pending-feedback.ts` on them.
-/

namespace Newide.Memory

/-! ## The records -/

structure DriverFeedbackContent where
  feedbackId : String
  feedbackKey : String
  roleId : String
  taskId : String
  bufferSeq : Option Nat := none
  experienceId : String
  applied : Bool
  effectiveness : Effectiveness
  note : String
  observedAt : Time
  feedbackSource : DriverFeedbackSource
  eventVersion : String

/-- What a parked record holds besides its key and the fields of the lifecycle. -/
structure PendingFeedback where
  experienceId : String
  feedback : DriverFeedbackContent
  createdAt : Time

def DriverFeedbackContent.recordKey (content : DriverFeedbackContent) : String × String :=
  (content.roleId, content.feedbackId)

def pendingFeedbackId (feedbackId : String) : String :=
  feedbackId

def buildPendingFeedbackRecord (feedback : DriverFeedbackContent) (now : Time) :
    DeliveryRecord PendingFeedback where
  item := { experienceId := feedback.experienceId, feedback, createdAt := now }
  updatedAt := now

def feedbackApplicationOf (feedback : DriverFeedbackContent) : ExperienceFeedbackApplication where
  feedbackId := feedback.feedbackId
  experienceId := feedback.experienceId
  applied := feedback.applied
  effectiveness := feedback.effectiveness
  note := feedback.note
  observedAt := feedback.observedAt
  feedbackSource := feedback.feedbackSource

/-! ## The identity of a feedback -/

def driverFeedbackEventVersion : String := "driver-usage.v1"

def DriverFeedbackSource.text : DriverFeedbackSource → String
  | .driverUsage => "driver_usage"
  | .userRating => "user_rating"

def driverFeedbackKey (roleId taskId experienceId : String) (source : DriverFeedbackSource)
    (eventVersion : String) : String :=
  roleId ++ ":" ++ taskId ++ ":" ++ experienceId ++ ":" ++ source.text ++ ":" ++ eventVersion

/-- What the runtime provides: the hexadecimal digest of a text, and the shape of a uuid. -/
structure FeedbackRuntime where
  sha256 : String → String
  isUuid : String → Bool

/-- A key may not be the name of a file; the first digits of its digest may. -/
def hashedId (runtime : FeedbackRuntime) (kind key : String) : String :=
  kind ++ "_" ++ String.ofList ((runtime.sha256 key).toList.take 24)

def driverFeedbackId (runtime : FeedbackRuntime) (key : String) : String :=
  hashedId runtime "drvfb" key

variable {runtime : FeedbackRuntime}

def isSupportedFeedbackVersion (eventVersion : String) : Bool :=
  eventVersion = driverFeedbackEventVersion

def canNameExperience (runtime : FeedbackRuntime) (experienceId : String) : Bool :=
  runtime.isUuid experienceId

def payloadFailure (message : String) : DeliveryFailureClassification :=
  knownDeliveryFailure .payloadUnreadable message false

/-- The key and the id of a feedback are derived from its other fields; nothing else is read. -/
def validateFeedback (runtime : FeedbackRuntime) (feedback : DriverFeedbackContent) :
    Option DeliveryFailureClassification :=
  let expectedKey := driverFeedbackKey feedback.roleId feedback.taskId feedback.experienceId
    feedback.feedbackSource feedback.eventVersion
  let expectedId := driverFeedbackId runtime expectedKey
  if isSupportedFeedbackVersion feedback.eventVersion = false then
    some (payloadFailure ("Feedback " ++ feedback.feedbackId ++ " declares event_version="
      ++ feedback.eventVersion ++ ", which this consumer cannot read (expected "
      ++ driverFeedbackEventVersion ++ ")."))
  else if canNameExperience runtime feedback.experienceId = false then
    some (payloadFailure ("Feedback " ++ feedback.feedbackId ++ " names \"" ++ feedback.experienceId
      ++ "\", which cannot be the id of an experience and will never appear; dead-lettering "
      ++ "instead of parking."))
  else if feedback.feedbackKey ≠ expectedKey then
    some (payloadFailure ("Feedback " ++ feedback.feedbackId ++ " declares key "
      ++ feedback.feedbackKey ++ " but its own fields derive " ++ expectedKey ++ "."))
  else if feedback.feedbackId ≠ expectedId then
    some (payloadFailure ("Feedback " ++ feedback.feedbackId
      ++ " does not match the id derived from its own fields (" ++ expectedId ++ ")."))
  else none

def DriverFeedbackContent.Valid (runtime : FeedbackRuntime) (feedback : DriverFeedbackContent) :
    Prop :=
  validateFeedback runtime feedback = none

instance {feedback : DriverFeedbackContent} : Decidable (feedback.Valid runtime) :=
  inferInstanceAs (Decidable (_ = none))

theorem DriverFeedbackContent.valid_iff {feedback : DriverFeedbackContent} :
    feedback.Valid runtime ↔ feedback.eventVersion = driverFeedbackEventVersion ∧
      runtime.isUuid feedback.experienceId = true ∧
      feedback.feedbackKey = driverFeedbackKey feedback.roleId feedback.taskId
        feedback.experienceId feedback.feedbackSource feedback.eventVersion ∧
      feedback.feedbackId = driverFeedbackId runtime feedback.feedbackKey := by
  unfold Valid validateFeedback
  simp only
  split
  · next hversion => simp_all [isSupportedFeedbackVersion]
  · next hversion =>
      split
      · next huuid => simp_all [canNameExperience]
      · next huuid =>
          split
          · next hkey => simp_all
          · next hkey =>
              rw [not_not] at hkey
              rw [← hkey]
              split
              · next hid => simp_all
              · next hid => simp_all [isSupportedFeedbackVersion, canNameExperience]

theorem append_colon_inj {a b c d : List Char} (h : a ++ ':' :: b = c ++ ':' :: d)
    (hb : ':' ∉ b) (hd : ':' ∉ d) : a = c ∧ b = d := by
  rcases List.append_eq_append_iff.mp h with ⟨rest, rfl, hrest⟩ | ⟨rest, rfl, hrest⟩
  · cases rest with
    | nil => exact ⟨(List.append_nil a).symm, List.tail_eq_of_cons_eq hrest⟩
    | cons first rest =>
        obtain rfl := List.tail_eq_of_cons_eq hrest
        exact absurd (List.mem_append_right _ List.mem_cons_self) hb
  · cases rest with
    | nil => exact ⟨List.append_nil c, (List.tail_eq_of_cons_eq hrest).symm⟩
    | cons first rest =>
        obtain rfl := List.tail_eq_of_cons_eq hrest
        exact absurd (List.mem_append_right _ List.mem_cons_self) hd

theorem toList_append_colon (left right : String) :
    (left ++ ":" ++ right).toList = left.toList ++ ':' :: right.toList := by
  have hcolon : (":" : String).toList = [':'] := rfl
  rw [String.toList_append, String.toList_append, hcolon, List.append_assoc,
    List.singleton_append]

theorem driverFeedbackKey_experienceId {roleId taskId experienceId version : String}
    {roleId' taskId' experienceId' version' : String} {source source' : DriverFeedbackSource}
    (h : driverFeedbackKey roleId taskId experienceId source version =
      driverFeedbackKey roleId' taskId' experienceId' source' version')
    (hversion : ':' ∉ version.toList) (hversion' : ':' ∉ version'.toList)
    (hid : ':' ∉ experienceId.toList) (hid' : ':' ∉ experienceId'.toList) :
    experienceId = experienceId' := by
  have hsource (source : DriverFeedbackSource) : ':' ∉ source.text.toList := by
    cases source <;> decide
  have hlist := congrArg String.toList h
  simp only [driverFeedbackKey, toList_append_colon] at hlist
  obtain ⟨hlist, _⟩ := append_colon_inj hlist hversion hversion'
  obtain ⟨hlist, _⟩ := append_colon_inj hlist (hsource source) (hsource source')
  obtain ⟨_, hlist⟩ := append_colon_inj hlist hid hid'
  exact String.toList_inj.mp hlist

/-- The ids of the two keep their keys apart. -/
def DriverFeedbackContent.Apart (runtime : FeedbackRuntime)
    (feedback other : DriverFeedbackContent) : Prop :=
  driverFeedbackId runtime feedback.feedbackKey = driverFeedbackId runtime other.feedbackKey →
    feedback.feedbackKey = other.feedbackKey

theorem DriverFeedbackContent.Valid.experienceId_eq {feedback other : DriverFeedbackContent}
    (h : feedback.Valid runtime) (hother : other.Valid runtime)
    (hdigest : feedback.Apart runtime other)
    (huuid : ∀ id : String, runtime.isUuid id = true → ':' ∉ id.toList)
    (hid : feedback.feedbackId = other.feedbackId) :
    feedback.experienceId = other.experienceId := by
  obtain ⟨hversion, hshape, hkey, hfeedbackId⟩ := valid_iff.mp h
  obtain ⟨hversion', hshape', hkey', hfeedbackId'⟩ := valid_iff.mp hother
  rw [hfeedbackId, hfeedbackId'] at hid
  have hkeys := hdigest hid
  rw [hkey, hkey'] at hkeys
  have hcolon : ':' ∉ driverFeedbackEventVersion.toList := by decide
  exact driverFeedbackKey_experienceId hkeys (hversion ▸ hcolon) (hversion' ▸ hcolon)
    (huuid _ hshape) (huuid _ hshape')

end Newide.Memory
