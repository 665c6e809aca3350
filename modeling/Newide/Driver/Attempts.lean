import Mathlib.Data.List.Induction
import Newide.Driver.StatusMapping

/-!
# Attempts of a driver invocation

The loop of `AdpDriverEndpoint.executeAttempts`.  The executor is code of
the caller: what it does in an attempt, and when a `driver.cancel` comes
meanwhile, is part of the input.  The evidence of all the attempts lies in
one record, so an attempt is judged by what the others left there.
-/

namespace Newide.Driver

open InvocationState

/-! ## The loop -/

inductive Signal where
  /-- `control.markDispatched()` -/
  | dispatched
  /-- an event of a tool -/
  | effect
  /-- a `driver.cancel` of this exchange -/
  | cancel

/-- A call of the executor: what it signals, how it ends, and the report of a result. -/
structure Attempt where
  signals : List Signal := []
  ending : AttemptEnding
  report : Option String := none

open Attempt

namespace InvocationState

def receive (state : InvocationState) : Signal → InvocationState
  | .dispatched => state.markDispatched
  | .effect => state.observeEffect
  | .cancel => state.markCancelRequested

def record (state : InvocationState) : AttemptEnding → InvocationState
  | .returned execution =>
      let state := state.markResultReceived
      if execution.toolEvents ≠ [] ∨ execution.artifacts ≠ [] then state.observeEffect else state
  | .threw error =>
      match error.evidence with
      | some evidence => state.noteTransportEvidence evidence
      | none => state

def after (state : InvocationState) (attempt : Attempt) : InvocationState :=
  (attempt.signals.foldl receive state).record attempt.ending

end InvocationState

structure AttemptOutcome where
  mapped : MappedOutcome
  execution : Option DriverRunResult
  report : Option String
  thrown : Option DriverThrown
  attempts : Nat

open AttemptOutcome

def AttemptEnding.execution? : AttemptEnding → Option DriverRunResult
  | .returned execution => some execution
  | .threw _ => none

def AttemptEnding.thrown? : AttemptEnding → Option DriverThrown
  | .returned _ => none
  | .threw error => some error

def AttemptOutcome.of (mapped : MappedOutcome) (attempt : Attempt) (attempts : Nat) :
    AttemptOutcome where
  mapped
  execution := attempt.ending.execution?
  report := attempt.report
  thrown := attempt.ending.thrown?
  attempts

structure RetrySettings where
  retryPolicy : RetryPolicy
  maxAutoRetries : Nat
  sideEffect : AdpSideEffect

/-- The attempt with this number may be followed by another if it fails. -/
def RetrySettings.Allow (settings : RetrySettings) (attempt : Nat) : Prop :=
  attempt < 1 + settings.maxAutoRetries ∧ settings.retryPolicy .failed settings.sideEffect = true

instance (settings : RetrySettings) (attempt : Nat) : Decidable (settings.Allow attempt) :=
  inferInstanceAs (Decidable (_ ∧ _))

/-- `executeAttempts` from the attempt with this number on.  The list holds what the executor does
each time it is called; there is no outcome before it has answered. -/
def executeAttempts (settings : RetrySettings) (state : InvocationState) (attempt : Nat) :
    List Attempt → Option (AttemptOutcome × InvocationState)
  | [] => none
  | current :: later =>
      let state := state.after current
      let mapped := mapAdpOutcome current.ending state.facts
      if mapped.status = .failed ∧ settings.Allow attempt then
        executeAttempts settings state (attempt + 1) later
      else some (.of mapped current attempt, state)

/-! ## The attempts that are made -/

def recordOf (made : List Attempt) : InvocationState := made.foldl after {}

def outcomeAfter (made : List Attempt) (current : Attempt) : MappedOutcome :=
  mapAdpOutcome current.ending (recordOf (made ++ [current])).facts

def Retried (settings : RetrySettings) (made : List Attempt) (current : Attempt) : Prop :=
  (outcomeAfter made current).status = .failed ∧ settings.Allow (made.length + 1)

instance (settings : RetrySettings) (made : List Attempt) (current : Attempt) :
    Decidable (Retried settings made current) :=
  inferInstanceAs (Decidable (_ ∧ _))

def Begun (settings : RetrySettings) (made : List Attempt) : Prop :=
  ∀ before current later, made = before ++ current :: later → Retried settings before current

variable {settings : RetrySettings}

theorem Begun.first : Begun settings [] := by
  intro before current later h
  simp at h

theorem Begun.next {made : List Attempt} {current : Attempt}
    (h : Begun settings made) (hretried : Retried settings made current) :
    Begun settings (made ++ [current]) := by
  intro before other later hsplit
  rcases List.eq_nil_or_concat later with rfl | ⟨front, last, rfl⟩
  · obtain ⟨rfl, hlast⟩ := List.append_inj' hsplit rfl
    cases hlast
    exact hretried
  · have hfront : made ++ [current] = (before ++ other :: front) ++ [last] := by
      rw [hsplit, List.concat_eq_append, List.append_assoc, List.cons_append]
    obtain ⟨rfl, _⟩ := List.append_inj' hfront rfl
    exact h before other front rfl

theorem Begun.retried {made later : List Attempt} {current : Attempt}
    (h : Begun settings (made ++ current :: later)) : Retried settings made current :=
  h made current later rfl

theorem recordOf_snoc (made : List Attempt) (current : Attempt) :
    recordOf (made ++ [current]) = (recordOf made).after current := by
  rw [recordOf, List.foldl_append]
  rfl

theorem executeAttempts_cons {made later : List Attempt} {current : Attempt} :
    executeAttempts settings (recordOf made) (made.length + 1) (current :: later) =
      if Retried settings made current then
        executeAttempts settings (recordOf (made ++ [current])) ((made ++ [current]).length + 1) later
      else some (.of (outcomeAfter made current) current (made.length + 1),
        recordOf (made ++ [current])) := by
  simp only [executeAttempts, Retried, outcomeAfter, recordOf_snoc, List.length_append,
    List.length_singleton]

theorem executeAttempts_eq_some {attempts : List Attempt}
    {outcome : AttemptOutcome} {state : InvocationState} :
    executeAttempts settings {} 1 attempts = some (outcome, state) ↔
      ∃ made current later, attempts = made ++ current :: later ∧ Begun settings made ∧
        ¬ Retried settings made current ∧
        of (outcomeAfter made current) current (made.length + 1) = outcome ∧
        recordOf (made ++ [current]) = state := by
  have hfrom (made : List Attempt) (hmade : Begun settings made) (attempts : List Attempt) :
      executeAttempts settings (recordOf made) (made.length + 1) attempts = some (outcome, state) ↔
        ∃ further current later, attempts = further ++ current :: later ∧
          Begun settings (made ++ further) ∧ ¬ Retried settings (made ++ further) current ∧
          of (outcomeAfter (made ++ further) current) current
            ((made ++ further).length + 1) = outcome ∧
          recordOf (made ++ further ++ [current]) = state := by
    induction attempts generalizing made with
    | nil => simp [executeAttempts]
    | cons first rest ih =>
        rw [executeAttempts_cons]
        by_cases hretried : Retried settings made first
        · rw [if_pos hretried, ih _ (hmade.next hretried)]
          constructor
          · rintro ⟨further, current, later, rfl, h⟩
            simp only [List.append_assoc, List.singleton_append] at h
            exact ⟨first :: further, current, later, rfl, by simpa using h⟩
          · rintro ⟨further, current, later, hsplit, h⟩
            cases further with
            | nil =>
                obtain ⟨rfl, rfl⟩ := List.cons.inj hsplit
                exact absurd hretried (by simpa using h.2.1)
            | cons other further =>
                obtain ⟨rfl, rfl⟩ := List.cons.inj hsplit
                exact ⟨further, current, later, rfl, by simpa using h⟩
        · rw [if_neg hretried]
          constructor
          · intro h
            obtain ⟨houtcome, hstate⟩ := Prod.mk.inj (Option.some.inj h)
            exact ⟨[], first, rest, rfl, by simpa using ⟨hmade, hretried, houtcome, hstate⟩⟩
          · rintro ⟨further, current, later, hsplit, hbegun, _, houtcome, hstate⟩
            cases further with
            | nil =>
                obtain ⟨rfl, rfl⟩ := List.cons.inj hsplit
                rw [List.append_nil] at houtcome hstate
                rw [houtcome, hstate]
            | cons other further =>
                obtain ⟨rfl, rfl⟩ := List.cons.inj hsplit
                exact absurd hbegun.retried hretried
  exact hfrom [] .first attempts

/-! ## What the record shows -/

namespace InvocationState

variable (state : InvocationState) (attempt : Attempt) (signals : List Signal)

theorem foldl_receive_dispatched : (signals.foldl receive state).facts.dispatched = true ↔
    state.facts.dispatched = true ∨ .dispatched ∈ signals := by
  induction signals generalizing state with
  | nil => simp
  | cons signal signals ih =>
      rw [List.foldl_cons, ih, List.mem_cons]
      cases signal <;> simp [receive, markDispatched, observeEffect, markCancelRequested]

theorem foldl_receive_cancelRequested :
    (signals.foldl receive state).facts.cancelRequested = true ↔
      state.facts.cancelRequested = true ∨ .cancel ∈ signals := by
  induction signals generalizing state with
  | nil => simp
  | cons signal signals ih =>
      rw [List.foldl_cons, ih, List.mem_cons]
      cases signal <;> simp [receive, markDispatched, observeEffect, markCancelRequested]

theorem foldl_receive_transportEvidence :
    (signals.foldl receive state).facts.transportEvidence = state.facts.transportEvidence := by
  induction signals generalizing state with
  | nil => rfl
  | cons signal signals ih =>
      rw [List.foldl_cons, ih]
      cases signal <;> rfl

variable {state} {ending : AttemptEnding}

theorem record_dispatched : (state.record ending).facts.dispatched = state.facts.dispatched := by
  cases ending with
  | returned execution =>
      simp only [record]
      split <;> rfl
  | threw error =>
      cases herror : error.evidence with
      | none => simp only [record, herror]
      | some evidence =>
          simp only [record, herror, noteTransportEvidence]
          split <;> rfl

theorem record_cancelRequested :
    (state.record ending).facts.cancelRequested = state.facts.cancelRequested := by
  cases ending with
  | returned execution =>
      simp only [record]
      split <;> rfl
  | threw error =>
      cases herror : error.evidence with
      | none => simp only [record, herror]
      | some evidence =>
          simp only [record, herror, noteTransportEvidence]
          split <;> rfl

/-- Only a thrown error brings evidence of the transport, and `not_executed` stays. -/
theorem record_notExecuted : (state.record ending).facts.transportEvidence = some .notExecuted ↔
    state.facts.transportEvidence = some .notExecuted ∨
      ∃ error, ending = .threw error ∧ error.evidence = some .notExecuted := by
  cases ending with
  | returned execution =>
      have hsame : (state.record (.returned execution)).facts.transportEvidence =
          state.facts.transportEvidence := by
        simp only [record]
        split <;> rfl
      simp [hsame]
  | threw error =>
      cases herror : error.evidence with
      | none => simp [record, herror]
      | some evidence =>
          by_cases hnoted : state.facts.transportEvidence = some .notExecuted
          · simp [record, herror, noteTransportEvidence, hnoted]
          · simp [record, herror, noteTransportEvidence, hnoted]

end InvocationState

namespace Attempt

variable (attempt : Attempt)

/-- The prompt was handed to the transport. -/
def Dispatches : Prop := .dispatched ∈ attempt.signals

/-- A `driver.cancel` came while it ran. -/
def Cancelled : Prop := .cancel ∈ attempt.signals

/-- It threw the evidence that no driver ran. -/
def ThrewNotExecuted : Prop :=
  ∃ error, attempt.ending = .threw error ∧ error.evidence = some .notExecuted

/-- Its result says that the driver was not started. -/
def StartFailed : Prop := ∃ execution, attempt.ending = .returned execution ∧ execution.StartFailed

/-- A driver ran, as far as the attempt itself can tell: it handed the prompt over, showed effects
or returned a result, and did not end with the evidence that no driver ran. -/
def Executed : Prop :=
  (attempt.Dispatches ∨ .effect ∈ attempt.signals ∨
    ∃ execution, attempt.ending = .returned execution) ∧
    ¬ attempt.ThrewNotExecuted ∧ ¬ attempt.StartFailed

/-- The prompt was handed over, and the ending leaves open what became of it. -/
def Unconfirmed : Prop :=
  attempt.Dispatches ∧ match attempt.ending with
    | .returned execution => execution.Unconfirmed
    | .threw error => error.evidence ≠ some .notExecuted

def ownOutcome : MappedOutcome := outcomeAfter [] attempt

end Attempt

section Record

variable {made : List Attempt}

theorem recordOf_dispatched :
    (recordOf made).facts.dispatched = true ↔ ∃ attempt ∈ made, attempt.Dispatches := by
  induction made using List.reverseRecOn with
  | nil => simp [recordOf]
  | append_singleton made attempt ih =>
      rw [recordOf_snoc, after, record_dispatched,
        foldl_receive_dispatched, ih]
      simp [Attempt.Dispatches, or_and_right, exists_or]

theorem recordOf_cancelRequested :
    (recordOf made).facts.cancelRequested = true ↔ ∃ attempt ∈ made, attempt.Cancelled := by
  induction made using List.reverseRecOn with
  | nil => simp [recordOf]
  | append_singleton made attempt ih =>
      rw [recordOf_snoc, after, record_cancelRequested,
        foldl_receive_cancelRequested, ih]
      simp [Attempt.Cancelled, or_and_right, exists_or]

theorem recordOf_notExecuted : (recordOf made).facts.transportEvidence = some .notExecuted ↔
    ∃ attempt ∈ made, attempt.ThrewNotExecuted := by
  induction made using List.reverseRecOn with
  | nil => simp [recordOf]
  | append_singleton made attempt ih =>
      rw [recordOf_snoc, after, record_notExecuted,
        foldl_receive_transportEvidence, ih]
      simp [Attempt.ThrewNotExecuted, or_and_right, exists_or]

/-- The record says that no driver ran: no attempt handed its prompt over, or one of them said
so. -/
def Unstarted (made : List Attempt) : Prop :=
  (∀ attempt ∈ made, ¬ attempt.Dispatches) ∨ ∃ attempt ∈ made, attempt.ThrewNotExecuted

theorem recordOf_hasNotExecutedEvidence :
    (recordOf made).facts.hasNotExecutedEvidence = true ↔ Unstarted made := by
  rw [InvocationEvidence.hasNotExecutedEvidence, Bool.or_eq_true, decide_eq_true_eq,
    recordOf_notExecuted, Bool.not_eq_true', ← Bool.not_eq_true, recordOf_dispatched]
  simp [Unstarted]

variable {current : Attempt} {execution : DriverRunResult} {error : DriverThrown}

theorem outcomeAfter_returned_failed (hending : current.ending = .returned execution) :
    (outcomeAfter made current).status = .failed ↔
      execution.status = .failed ∧ ¬ (execution.Unconfirmed ∧ ¬ Unstarted (made ++ [current])) := by
  rw [outcomeAfter, hending, mapAdpOutcome_returned_failed, ← recordOf_hasNotExecutedEvidence,
    Bool.not_eq_true]

theorem outcomeAfter_threw_failed (hending : current.ending = .threw error) :
    (outcomeAfter made current).status = .failed ↔
      Unstarted (made ++ [current]) ∧ ∀ attempt ∈ made ++ [current], ¬ attempt.Cancelled := by
  rw [outcomeAfter, hending, mapAdpOutcome_threw_failed, recordOf_hasNotExecutedEvidence,
    ← Bool.not_eq_true, recordOf_cancelRequested]
  simp [or_imp, forall_and]

theorem outcomeAfter_returned_never (hending : current.ending = .returned execution) :
    (outcomeAfter made current).ReportsNeverExecuted ↔ current.StartFailed := by
  rw [outcomeAfter, hending, mapAdpOutcome_returned_never]
  constructor
  · exact fun h => ⟨execution, hending, h⟩
  · rintro ⟨other, hother, h⟩
    rw [hending] at hother
    cases hother
    exact h

theorem outcomeAfter_threw_never (hending : current.ending = .threw error) :
    (outcomeAfter made current).ReportsNeverExecuted ↔ Unstarted (made ++ [current]) := by
  rw [outcomeAfter, hending, mapAdpOutcome_threw_never, recordOf_hasNotExecutedEvidence]

end Record

/-! ## Cancellation -/

/-- After a `driver.cancel` the attempt that was running is the last one. -/
structure StopsAtCancel (settings : RetrySettings) (attempts : List Attempt) : Prop where
  noneStarted : ∀ made current later, attempts = made ++ current :: later →
    Begun settings made → current.Cancelled → ¬ Retried settings made current
  settles : ∀ outcome state, executeAttempts settings {} 1 attempts = some (outcome, state) →
    ∀ made current later, attempts = made ++ current :: later → Begun settings made →
      current.Cancelled → outcome.mapped.status ∈ [.succeeded, .cancelled, .unknown] ∨
        (outcome.mapped.status = .failed ∧ outcome.attempts = made.length + 1)

/-- An attempt returns a failure that is taken as definite, and may be followed by another. -/
def ReturnsFailure (settings : RetrySettings) (made : List Attempt) (current : Attempt) : Prop :=
  settings.Allow (made.length + 1) ∧ ∃ execution, current.ending = .returned execution ∧
    execution.status = .failed ∧ ¬ (execution.Unconfirmed ∧ ¬ Unstarted (made ++ [current]))

theorem Retried.returnsFailure {made : List Attempt} {current : Attempt}
    (hcancelled : current.Cancelled) :
    Retried settings made current ↔ ReturnsFailure settings made current := by
  unfold Retried ReturnsFailure
  cases hending : current.ending with
  | returned execution =>
      rw [outcomeAfter_returned_failed hending]
      simp [and_comm]
  | threw error =>
      rw [outcomeAfter_threw_failed hending]
      constructor
      · rintro ⟨⟨_, hnone⟩, _⟩
        exact absurd hcancelled (hnone current (by simp))
      · rintro ⟨_, _, hreturned, _⟩
        cases hreturned

theorem stops_unique {made made' later later' : List Attempt}
    {current current' : Attempt} (hsplit : made ++ current :: later = made' ++ current' :: later')
    (hbegun : Begun settings made) (hbegun' : Begun settings made')
    (hlast : ¬ Retried settings made current) (hlast' : ¬ Retried settings made' current') :
    made = made' ∧ current = current' := by
  rcases List.append_eq_append_iff.mp hsplit with ⟨extra, hmade, hrest⟩ | ⟨extra, hmade, hrest⟩
  · cases extra with
    | nil =>
        simp only [List.append_nil, List.nil_append] at hmade hrest
        exact ⟨hmade.symm, (List.cons.inj hrest).1⟩
    | cons first extra =>
        obtain ⟨rfl, _⟩ := List.cons.inj hrest
        rw [hmade] at hbegun'
        exact absurd hbegun'.retried hlast
  · cases extra with
    | nil =>
        simp only [List.append_nil, List.nil_append] at hmade hrest
        exact ⟨hmade, (List.cons.inj hrest).1.symm⟩
    | cons first extra =>
        obtain ⟨rfl, _⟩ := List.cons.inj hrest
        rw [hmade] at hbegun
        exact absurd hbegun.retried hlast'

/-- The attempt running at a cancel is the last one exactly when it does not return a failure that
is retried. -/
theorem stopsAtCancel_iff (settings : RetrySettings) (attempts : List Attempt) :
    StopsAtCancel settings attempts ↔ ∀ made current later, attempts = made ++ current :: later →
      Begun settings made → current.Cancelled → ¬ ReturnsFailure settings made current := by
  constructor
  · intro h made current later hsplit hbegun hcancelled hfails
    exact h.noneStarted made current later hsplit hbegun hcancelled
      ((Retried.returnsFailure hcancelled).mpr hfails)
  · intro h
    have hnone : ∀ made current later, attempts = made ++ current :: later →
        Begun settings made → current.Cancelled → ¬ Retried settings made current :=
      fun made current later hsplit hbegun hcancelled hretried =>
        h made current later hsplit hbegun hcancelled
          ((Retried.returnsFailure hcancelled).mp hretried)
    refine ⟨hnone, fun outcome state hsettles made current later hsplit hbegun hcancelled => ?_⟩
    obtain ⟨made', current', later', hsplit', hbegun', hlast', rfl, _⟩ :=
      executeAttempts_eq_some.mp hsettles
    obtain ⟨rfl, rfl⟩ := stops_unique (hsplit.symm.trans hsplit') hbegun hbegun'
      (hnone made current later hsplit hbegun hcancelled) hlast'
    cases hstatus : (outcomeAfter made current).status with
    | succeeded => exact .inl (by simp [of, hstatus])
    | cancelled => exact .inl (by simp [of, hstatus])
    | unknown => exact .inl (by simp [of, hstatus])
    | failed => exact .inr ⟨hstatus, rfl⟩

def retryOnce : RetrySettings where
  retryPolicy status _ := status = .failed
  maxAutoRetries := 1
  sideEffect := .readOnly

def businessFailure : DriverRunResult where
  status := .failed
  error := some { code := "DRIVER_FAILED", message := "tests fail", retryable := false }

/-- A driver that answers a cancel with a failure is called again. -/
theorem retried_after_cancel : ¬ StopsAtCancel retryOnce
    [{ signals := [.dispatched, .cancel], ending := .returned businessFailure },
      { signals := [.dispatched], ending := .returned businessFailure }] := by
  intro h
  refine h.noneStarted [] _ _ rfl .first ?_ (by decide)
  exact List.mem_of_getLast? rfl

/-! ## Reports that no driver ran -/

/-- A start failure and a cancellation before dispatch are true of all the attempts, and only an
attempt that failed for certain is followed by another. -/
structure TruthfulReports (settings : RetrySettings) (attempts : List Attempt) : Prop where
  neverExecuted : ∀ outcome state,
    executeAttempts settings {} 1 attempts = some (outcome, state) →
      outcome.mapped.ReportsNeverExecuted →
        ∀ attempt ∈ attempts.take outcome.attempts, ¬ attempt.Executed
  retried : ∀ made current later, attempts = made ++ current :: later → Begun settings made →
    Retried settings made current →
      current.ownOutcome.status = .failed ∧ ¬ current.Unconfirmed

/-- A failure of this attempt would be followed by another one. -/
def MayRetry (settings : RetrySettings) (made : List Attempt) (current : Attempt) : Prop :=
  settings.Allow (made.length + 1) ∧ ((∃ execution, current.ending = .returned execution) ∨
    ∀ attempt ∈ made ++ [current], ¬ attempt.Cancelled)

/-- The attempt says that the driver was not started, or throws when the record says so. -/
def EndsUnstarted (made : List Attempt) (current : Attempt) : Prop :=
  current.StartFailed ∨
    ((∃ error, current.ending = .threw error) ∧ Unstarted (made ++ [current]))

/-- Where the record of the attempts misjudges one: the last attempt does not start but another
ran, or one that leaves open what it did comes after one that threw `not_executed`. -/
def Misjudged (settings : RetrySettings) (made : List Attempt) (current : Attempt) : Prop :=
  (¬ MayRetry settings made current ∧ EndsUnstarted made current ∧
    ∃ attempt ∈ made ++ [current], attempt.Executed) ∨
  (MayRetry settings made current ∧ current.Unconfirmed ∧
    ∃ earlier ∈ made, earlier.ThrewNotExecuted)

theorem Retried.mayRetry {made : List Attempt} {current : Attempt}
    (h : Retried settings made current) : MayRetry settings made current := by
  refine ⟨h.2, ?_⟩
  cases hending : current.ending with
  | returned execution => exact .inl ⟨execution, rfl⟩
  | threw error => exact .inr ((outcomeAfter_threw_failed hending).mp h.1).2

theorem reportsNever_iff {made : List Attempt} {current : Attempt} :
    (outcomeAfter made current).ReportsNeverExecuted ↔ EndsUnstarted made current := by
  unfold EndsUnstarted
  cases hending : current.ending with
  | returned execution => simp [outcomeAfter_returned_never hending]
  | threw error =>
      have hstart : ¬ current.StartFailed := by
        rintro ⟨_, hreturned, _⟩
        rw [hending] at hreturned
        cases hreturned
      simp [outcomeAfter_threw_never hending, hstart]

theorem EndsUnstarted.retried {made : List Attempt} {current : Attempt}
    (h : EndsUnstarted made current) (hmay : MayRetry settings made current) :
    Retried settings made current := by
  refine ⟨?_, hmay.1⟩
  rcases h with ⟨execution, hending, hstatus, hcode⟩ | ⟨⟨error, hending⟩, hunstarted⟩
  · exact (outcomeAfter_returned_failed hending).mpr
      ⟨hstatus, fun h => startFailed_confirmed hcode h.1.2⟩
  · refine (outcomeAfter_threw_failed hending).mpr ⟨hunstarted, ?_⟩
    rcases hmay.2 with ⟨_, hreturned⟩ | hnone
    · rw [hending] at hreturned
      cases hreturned
    · exact hnone

theorem unstarted_alone {current : Attempt} :
    Unstarted ([] ++ [current]) ↔ ¬ current.Dispatches ∨ current.ThrewNotExecuted := by
  simp [Unstarted]

theorem Attempt.unconfirmed_returned {current : Attempt} {execution : DriverRunResult}
    (hending : current.ending = .returned execution) :
    current.Unconfirmed ↔ current.Dispatches ∧ execution.Unconfirmed := by
  rw [Unconfirmed, hending]

theorem Attempt.unconfirmed_threw {current : Attempt} {error : DriverThrown}
    (hending : current.ending = .threw error) :
    current.Unconfirmed ↔ current.Dispatches ∧ ¬ current.ThrewNotExecuted := by
  simp [Unconfirmed, ThrewNotExecuted, hending]

theorem Attempt.threwNotExecuted_of_returned {current : Attempt} {execution : DriverRunResult}
    (hending : current.ending = .returned execution) : ¬ current.ThrewNotExecuted := by
  rintro ⟨error, hthrew, _⟩
  rw [hending] at hthrew
  cases hthrew

/-- A retried attempt failed by its own evidence unless it leaves open what it did. -/
theorem Retried.own_failed {made : List Attempt} {current : Attempt}
    (h : Retried settings made current) :
    current.ownOutcome.status = .failed ↔ ¬ current.Unconfirmed := by
  unfold ownOutcome
  cases hending : current.ending with
  | returned execution =>
      have hfailed := ((outcomeAfter_returned_failed hending).mp h.1).1
      have hnever := threwNotExecuted_of_returned hending
      rw [outcomeAfter_returned_failed hending, unconfirmed_returned hending,
        unstarted_alone]
      tauto
  | threw error =>
      have hnone := ((outcomeAfter_threw_failed hending).mp h.1).2
      have hcurrent := hnone current (by simp)
      rw [outcomeAfter_threw_failed hending, unconfirmed_threw hending, unstarted_alone]
      simp only [List.nil_append, List.mem_singleton, forall_eq]
      tauto

/-- An attempt that leaves open what it did is retried only after one that threw `not_executed`. -/
theorem Retried.masked {made : List Attempt} {current : Attempt}
    (h : Retried settings made current) (hunconfirmed : current.Unconfirmed) :
    ∃ earlier ∈ made, earlier.ThrewNotExecuted := by
  have hunstarted : Unstarted (made ++ [current]) ∧ ¬ current.ThrewNotExecuted := by
    cases hending : current.ending with
    | returned execution =>
        have hopen := ((outcomeAfter_returned_failed hending).mp h.1).2
        have hexecution := (unconfirmed_returned hending).mp hunconfirmed
        refine ⟨?_, threwNotExecuted_of_returned hending⟩
        by_contra hstarted
        exact hopen ⟨hexecution.2, hstarted⟩
    | threw error =>
        exact ⟨((outcomeAfter_threw_failed hending).mp h.1).1,
          ((unconfirmed_threw hending).mp hunconfirmed).2⟩
  obtain ⟨hnone | ⟨earlier, hearlier, hthrew⟩, hcurrent⟩ := hunstarted
  · exact absurd hunconfirmed.1 (hnone current (by simp))
  · rcases List.mem_append.mp hearlier with hmade | hlast
    · exact ⟨earlier, hmade, hthrew⟩
    · obtain rfl := List.mem_singleton.mp hlast
      exact absurd hthrew hcurrent

theorem take_made {made later : List Attempt} {current : Attempt} :
    (made ++ current :: later).take (made.length + 1) = made ++ [current] := by
  rw [List.take_append, List.take_of_length_le (Nat.le_succ _), Nat.add_sub_cancel_left]
  rfl

/-- Reports are truthful exactly when the record misjudges no attempt. -/
theorem truthfulReports_iff (settings : RetrySettings) (attempts : List Attempt) :
    TruthfulReports settings attempts ↔ ∀ made current later,
      attempts = made ++ current :: later → Begun settings made →
        ¬ Misjudged settings made current := by
  constructor
  · rintro h made current later hsplit hbegun (⟨hlast, hunstarted, hexecuted⟩ | hmasked)
    · have hsettles : executeAttempts settings {} 1 attempts = some (_, _) :=
        executeAttempts_eq_some.mpr ⟨made, current, later, hsplit, hbegun,
          fun hretried => hlast hretried.mayRetry, rfl, rfl⟩
      obtain ⟨attempt, hattempt, hran⟩ := hexecuted
      refine h.neverExecuted _ _ hsettles (reportsNever_iff.mpr hunstarted) attempt ?_ hran
      rw [hsplit]
      exact take_made.symm ▸ hattempt
    · obtain ⟨hmay, hunconfirmed, hearlier⟩ := hmasked
      have hunstarted : Unstarted (made ++ [current]) := by
        obtain ⟨earlier, hmem, hthrew⟩ := hearlier
        exact .inr ⟨earlier, List.mem_append_left _ hmem, hthrew⟩
      have hretried : Retried settings made current := by
        refine ⟨?_, hmay.1⟩
        cases hending : current.ending with
        | returned execution =>
            have hexecution := (unconfirmed_returned hending).mp hunconfirmed
            exact (outcomeAfter_returned_failed hending).mpr
              ⟨hexecution.2.1, fun hopen => hopen.2 hunstarted⟩
        | threw error =>
            refine (outcomeAfter_threw_failed hending).mpr ⟨hunstarted, ?_⟩
            rcases hmay.2 with ⟨_, hreturned⟩ | hnone
            · rw [hending] at hreturned
              cases hreturned
            · exact hnone
      exact (h.retried made current later hsplit hbegun hretried).2 hunconfirmed
  · intro h
    constructor
    · intro outcome state hsettles hnever attempt hattempt hran
      obtain ⟨made, current, later, rfl, hbegun, hlast, rfl, _⟩ :=
        executeAttempts_eq_some.mp hsettles
      have hunstarted := reportsNever_iff.mp hnever
      refine h made current later rfl hbegun
        (.inl ⟨fun hmay => hlast (hunstarted.retried hmay), hunstarted, attempt, ?_, hran⟩)
      rwa [of, take_made] at hattempt
    · intro made current later hsplit hbegun hretried
      have hconfirmed : ¬ current.Unconfirmed := fun hunconfirmed =>
        h made current later hsplit hbegun
          (.inr ⟨hretried.mayRetry, hunconfirmed, hretried.masked hunconfirmed⟩)
      exact ⟨hretried.own_failed.mpr hconfirmed, hconfirmed⟩

/-- The second start fails after the first attempt ran and failed. -/
theorem start_failure_after_run : ¬ TruthfulReports retryOnce
    [{ signals := [.dispatched, .effect], ending := .returned businessFailure },
      { signals := [.dispatched]
        ending := .threw { message := "spawn ENOENT", evidence := some .notExecuted } }] := by
  intro h
  have hran := h.neverExecuted _ _ rfl (by decide) _ (.head _)
  refine hran ⟨.inl (.head _), ?_, ?_⟩
  · rintro ⟨_, hthrew, _⟩
    cases hthrew
  · rintro ⟨_, hreturned, _, hcode⟩
    cases hreturned
    exact absurd hcode (by decide)

end Newide.Driver
