import Newide.Core

/-!
# The task status machine

`src/coordinator/task-state-machine.ts`: which status may follow which,
and the separate rules under which a new Run may start on a Task.
-/

namespace Newide

open Fallible

def allowedTransitions : TaskStatus → List TaskStatus
  | .created => [.triaged, .claimed, .cancelled]
  | .triaged => [.ready, .claimed, .blocked, .cancelled]
  | .ready => [.claimed, .blocked, .cancelled]
  | .claimed => [.running, .cancelled]
  | .running => [.reviewing, .waitingHelp, .waitingInput, .pendingGate, .pendingCouncil,
      .blocked, .escalated, .completed, .failed, .cancelled]
  | .waitingHelp => [.running, .blocked, .escalated, .failed, .cancelled]
  | .waitingInput => [.running, .cancelled]
  | .pendingGate => [.running, .blocked, .failed, .cancelled]
  | .pendingCouncil => [.reviewing, .waitingInput, .blocked, .failed, .cancelled]
  | .reviewing => [.merging, .completed, .blocked, .escalated, .failed, .cancelled]
  | .blocked => [.running, .escalated, .failed, .cancelled]
  | .escalated => [.reviewing, .merging, .blocked, .failed, .cancelled]
  | .merging => [.completed, .blocked, .failed, .cancelled]
  | .completed => []
  | .failed => []
  | .cancelled => []

/-- A status may stay, or move along the table. -/
def CanTransition (current next : TaskStatus) : Prop :=
  current = next ∨ next ∈ allowedTransitions current

instance (current next : TaskStatus) : Decidable (CanTransition current next) :=
  inferInstanceAs (Decidable (_ ∨ _))

def assertTaskStatusTransition (current next : TaskStatus) : Except Thrown Unit :=
  ensure (CanTransition current next)
    (.error ("Invalid task status transition: " ++ current.text ++ " -> " ++ next.text))

inductive TaskRunStartReason where
  | checkpointResume | councilRefinement | mailboxContinuation

def assertTaskRunStartTransition (current : TaskStatus) :
    TaskRunStartReason → Except Thrown Unit
  | .checkpointResume => do
      ensure (current = .blocked)
        (.error ("Checkpoint resume requires a blocked Task; current status is " ++ current.text))
      assertTaskStatusTransition current .running
  | .mailboxContinuation => do
      ensure (current = .waitingHelp ∨ current = .blocked)
        (.error ("Mailbox continuation requires a waiting or blocked Task; current status is "
          ++ current.text))
      assertTaskStatusTransition current .running
  | .councilRefinement =>
      ensure (current = .completed)
        (.error ("Council refinement Run requires a completed Task; current status is "
          ++ current.text))

@[simp] theorem assertTaskStatusTransition_eq_ok {current next : TaskStatus} {u : Unit} :
    assertTaskStatusTransition current next = .ok u ↔ CanTransition current next :=
  ensure_eq_ok

theorem assertTaskRunStartTransition_eq_ok {current : TaskStatus} {reason : TaskRunStartReason}
    {u : Unit} :
    assertTaskRunStartTransition current reason = .ok u ↔
      match reason with
      | .checkpointResume => current = .blocked
      | .mailboxContinuation => current = .waitingHelp ∨ current = .blocked
      | .councilRefinement => current = .completed := by
  cases reason with
  | checkpointResume =>
      simp only [assertTaskRunStartTransition, bind_eq_ok, ensure_eq_ok,
        assertTaskStatusTransition_eq_ok, exists_and_left, exists_const]
      constructor
      · rintro ⟨rfl, _⟩
        rfl
      · rintro rfl
        exact ⟨rfl, by decide⟩
  | councilRefinement => exact ensure_eq_ok
  | mailboxContinuation =>
      simp only [assertTaskRunStartTransition, bind_eq_ok, ensure_eq_ok,
        assertTaskStatusTransition_eq_ok, exists_and_left, exists_const]
      constructor
      · rintro ⟨h, _⟩
        exact h
      · rintro (rfl | rfl)
        · exact ⟨.inl rfl, by decide⟩
        · exact ⟨.inr rfl, by decide⟩

end Newide
