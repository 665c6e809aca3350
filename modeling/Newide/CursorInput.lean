import Newide.Core

/-!
# Stage cursors and their inputs

A Run stands at a stage cursor; the cursor input carries what that stage
needs.  `parseTaskCursorInput` is the validator every reader and writer
of a stored input goes through: it returns its argument or throws.
-/

namespace Newide

open Fallible

inductive RunMode where
  | singleAgent | council
deriving DecidableEq, Inhabited

def RunMode.text : RunMode → String
  | .singleAgent => "single_agent"
  | .council => "council"

inductive TaskResumeCursor where
  | selectAgent | executeAgent | council | gate | deliver | mailboxWait | done
deriving DecidableEq, Inhabited

def TaskResumeCursor.text : TaskResumeCursor → String
  | .selectAgent => "select_agent"
  | .executeAgent => "execute_agent"
  | .council => "council"
  | .gate => "gate"
  | .deliver => "deliver"
  | .mailboxWait => "mailbox_wait"
  | .done => "done"

inductive TaskCouncilTrigger where
  | explicitMode | persistentOverride | agentRequest
deriving DecidableEq, Inhabited

inductive TaskCursorInput where
  | selectAgent (seed : String) (candidateIds : List String) (marketEvidenceRef : Option String)
  | executeAgent (winnerAgentId : String) (executionEvidenceRef mailboxDeliveryId : Option String)
  | council (trigger : TaskCouncilTrigger) (primaryEvidenceRef candidateManifestRef : Option String)
  | gate (subjectRef phase changesetRef expectedSha256 : String)
  | deliver (changesetRef expectedSha256 : String)
  | mailboxWait (deliveryIds : List String) (waitingReason : String)
  | done
deriving DecidableEq, Inhabited

namespace TaskCursorInput

def cursor : TaskCursorInput → TaskResumeCursor
  | .selectAgent .. => .selectAgent
  | .executeAgent .. => .executeAgent
  | .council .. => .council
  | .gate .. => .gate
  | .deliver .. => .deliver
  | .mailboxWait .. => .mailboxWait
  | .done => .done

/-- The `(changeset_ref, expected_sha256)` a gate or deliver input is bound to. -/
def changeset? : TaskCursorInput → Option (String × String)
  | .gate _ _ changesetRef expectedSha256 => some (changesetRef, expectedSha256)
  | .deliver changesetRef expectedSha256 => some (changesetRef, expectedSha256)
  | _ => none

/-- The deliveries a `mailbox_wait` input waits for. -/
def deliveryIds? : TaskCursorInput → Option (List String)
  | .mailboxWait deliveryIds _ => some deliveryIds
  | _ => none

end TaskCursorInput

/-! ## Validation -/

def requireString (value field : String) : Except Thrown String := do
  ensure (value ≠ "")
    (.error ("Task cursor input " ++ field ++ " must be a non-empty string"))
  return value

def optionalString (value : Option String) (field : String) : Except Thrown (Option String) :=
  match value with
  | none => .ok none
  | some text => do return some (← requireString text field)

def requireSha256 (value field : String) : Except Thrown String := do
  let hash ← requireString value field
  ensure (isSha256 hash = true)
    (.error ("Task cursor input " ++ field ++ " must be a lowercase SHA256"))
  return hash

def parseTaskCursorInput : TaskCursorInput → Except Thrown TaskCursorInput
  | .selectAgent seed candidateIds marketEvidenceRef => do
      let marketEvidenceRef ← optionalString marketEvidenceRef "market_evidence_ref"
      let seed ← requireString seed "seed"
      return .selectAgent seed candidateIds marketEvidenceRef
  | .executeAgent winnerAgentId executionEvidenceRef mailboxDeliveryId => do
      let executionEvidenceRef ← optionalString executionEvidenceRef "execution_evidence_ref"
      let mailboxDeliveryId ← optionalString mailboxDeliveryId "mailbox_delivery_id"
      let winnerAgentId ← requireString winnerAgentId "winner_agent_id"
      return .executeAgent winnerAgentId executionEvidenceRef mailboxDeliveryId
  | .council trigger primaryEvidenceRef candidateManifestRef => do
      let primaryEvidenceRef ← optionalString primaryEvidenceRef "primary_evidence_ref"
      let candidateManifestRef ← optionalString candidateManifestRef "candidate_manifest_ref"
      return .council trigger primaryEvidenceRef candidateManifestRef
  | .gate subjectRef phase changesetRef expectedSha256 => do
      let subjectRef ← requireString subjectRef "subject_ref"
      let changesetRef ← requireString changesetRef "changeset_ref"
      ensure (subjectRef = changesetRef)
        (.error "Task Gate cursor subject_ref must equal changeset_ref")
      let phase ← requireString phase "phase"
      let expectedSha256 ← requireSha256 expectedSha256 "expected_sha256"
      return .gate subjectRef phase changesetRef expectedSha256
  | .deliver changesetRef expectedSha256 => do
      let changesetRef ← requireString changesetRef "changeset_ref"
      let expectedSha256 ← requireSha256 expectedSha256 "expected_sha256"
      return .deliver changesetRef expectedSha256
  | .mailboxWait deliveryIds waitingReason => do
      let waitingReason ← requireString waitingReason "waiting_reason"
      return .mailboxWait deliveryIds waitingReason
  | .done => return .done

/-- What `parseTaskCursorInput` accepts. -/
def TaskCursorInput.WellFormed : TaskCursorInput → Prop
  | .selectAgent seed _ marketEvidenceRef => marketEvidenceRef ≠ some "" ∧ seed ≠ ""
  | .executeAgent winnerAgentId executionEvidenceRef mailboxDeliveryId =>
      executionEvidenceRef ≠ some "" ∧ mailboxDeliveryId ≠ some "" ∧ winnerAgentId ≠ ""
  | .council _ primaryEvidenceRef candidateManifestRef =>
      primaryEvidenceRef ≠ some "" ∧ candidateManifestRef ≠ some ""
  | .gate subjectRef phase changesetRef expectedSha256 =>
      subjectRef ≠ "" ∧ changesetRef ≠ "" ∧ subjectRef = changesetRef ∧ phase ≠ "" ∧
        expectedSha256 ≠ "" ∧ isSha256 expectedSha256 = true
  | .deliver changesetRef expectedSha256 =>
      changesetRef ≠ "" ∧ expectedSha256 ≠ "" ∧ isSha256 expectedSha256 = true
  | .mailboxWait _ waitingReason => waitingReason ≠ ""
  | .done => True

instance : (input : TaskCursorInput) → Decidable input.WellFormed
  | .selectAgent .. => inferInstanceAs (Decidable (_ ∧ _))
  | .executeAgent .. => inferInstanceAs (Decidable (_ ∧ _))
  | .council .. => inferInstanceAs (Decidable (_ ∧ _))
  | .gate .. => inferInstanceAs (Decidable (_ ∧ _))
  | .deliver .. => inferInstanceAs (Decidable (_ ∧ _))
  | .mailboxWait .. => inferInstanceAs (Decidable (_ ≠ _))
  | .done => inferInstanceAs (Decidable True)

@[simp] theorem requireString_eq_ok {value field text : String} :
    requireString value field = .ok text ↔ value ≠ "" ∧ value = text := by
  simp only [requireString, bind_eq_ok, ensure_eq_ok, pure_eq_ok, exists_and_left, exists_const]

@[simp] theorem optionalString_eq_ok {value text : Option String} {field : String} :
    optionalString value field = .ok text ↔ value ≠ some "" ∧ value = text := by
  cases value with
  | none => simp [optionalString]
  | some s =>
      simp only [optionalString, bind_eq_ok, requireString_eq_ok, pure_eq_ok]
      constructor
      · rintro ⟨a, ⟨hs, rfl⟩, rfl⟩
        exact ⟨by simpa using hs, rfl⟩
      · rintro ⟨hs, rfl⟩
        exact ⟨s, ⟨by simpa using hs, rfl⟩, rfl⟩

@[simp] theorem requireSha256_eq_ok {value field text : String} :
    requireSha256 value field = .ok text ↔
      value ≠ "" ∧ isSha256 value = true ∧ value = text := by
  simp only [requireSha256, bind_eq_ok, requireString_eq_ok, ensure_eq_ok, pure_eq_ok]
  constructor
  · rintro ⟨a, ⟨h, rfl⟩, _, hsha, rfl⟩
    exact ⟨h, hsha, rfl⟩
  · rintro ⟨h, hsha, rfl⟩
    exact ⟨value, ⟨h, rfl⟩, (), hsha, rfl⟩

/-- The validator is a filter: it accepts exactly the well-formed inputs and
returns each of them unchanged. -/
theorem parseTaskCursorInput_eq_ok {input parsed : TaskCursorInput} :
    parseTaskCursorInput input = .ok parsed ↔ input.WellFormed ∧ input = parsed := by
  cases input <;>
    simp only [parseTaskCursorInput, bind_eq_ok, requireString_eq_ok, optionalString_eq_ok,
      requireSha256_eq_ok, ensure_eq_ok, pure_eq_ok, TaskCursorInput.WellFormed] <;>
    grind

theorem parseTaskCursorInput_of_wellFormed {input : TaskCursorInput} (h : input.WellFormed) :
    parseTaskCursorInput input = .ok input :=
  parseTaskCursorInput_eq_ok.mpr ⟨h, rfl⟩

end Newide
