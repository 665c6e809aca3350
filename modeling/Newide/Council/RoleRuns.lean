import Newide.Council.RoleExecution

/-!
# A role and its retries

`tryRunRole`: the attempts of one role, without recovery or beside the
role's entry of the recovery file.  A run of a role is the list of what it
does, in order: it calls `runRole`, it saves its entry, it tells that an
attempt failed.  The entry of a role is written by no other role, so the
file after a crash has for each role what its last save put there.
-/

namespace Newide.Council

structure CouncilRoleExecution where
  result : AgentExecutionResult
  phaseId : String

/-- An entry is written when the workspace of the role is prepared, so its flag `prepared` is true
and left out. -/
structure CouncilRoleRecovery where
  /-- `some false` proves that the role was interrupted before its first dispatch. -/
  driverDispatched : Option Bool := none
  workspaceBefore : WorkspaceFileSnapshot
  sessionId : Option String := none
  execution : Option CouncilRoleExecution := none

inductive CouncilError where
  | plain (message : String)
  | role (error : RoleError)

def differentSession : CouncilError :=
  .plain "Council Driver returned a different session while resuming"

def noDurableSession : CouncilError :=
  .plain "Interrupted Council role has no durable native session ID; refusing a fresh session"

/-! ## The driver stream under recovery -/

inductive EventRecord where
  | ignored
  | saved (role : CouncilRoleRecovery)
  | refused

def onDriverEvent (role : CouncilRoleRecovery) (event : DriverStreamEvent) : EventRecord :=
  match event.eventType with
  | .promptDispatching => .saved { role with driverDispatched := some true }
  | .turnStarted =>
      if event.sessionId = "" then .ignored
      else if role.sessionId.any (· ≠ event.sessionId) then .refused
      else .saved { role with sessionId := some event.sessionId, driverDispatched := some true }
  | .other _ => .ignored

/-- The saves of an attempt, the entry after them, and whether an event was refused. -/
structure Watched where
  saves : List CouncilRoleRecovery
  role : CouncilRoleRecovery
  refused : Bool

def watch (role : CouncilRoleRecovery) : List DriverStreamEvent → Watched
  | [] => { saves := [], role, refused := false }
  | event :: rest =>
      match onDriverEvent role event with
      | .ignored => watch role rest
      | .saved role' => { watch role' rest with saves := role' :: (watch role' rest).saves }
      | .refused => { watch role rest with refused := true }

/-! ## Runs -/

inductive RoleEffect where
  | dispatched (call : RoleCall)
  | saved (role : CouncilRoleRecovery)
  | failed (failure : CouncilRoleExecutionError)

def RoleEffect.call : RoleEffect → Option RoleCall
  | .dispatched call => some call
  | _ => none

@[simp] theorem RoleEffect.call_dispatched (call : RoleCall) :
    (RoleEffect.dispatched call).call = some call := rfl

@[simp] theorem RoleEffect.call_saved (role : CouncilRoleRecovery) :
    (RoleEffect.saved role).call = none := rfl

@[simp] theorem RoleEffect.call_failed (failure : CouncilRoleExecutionError) :
    (RoleEffect.failed failure).call = none := rfl

structure ConcludedRole where
  execution : CouncilRoleExecution
  reviews : Option (List ParsedReview)

/-- A role that ends without a result has the outcome `.ok none`. -/
structure RoleRun where
  effects : List RoleEffect := []
  diagnostics : List String := []
  outcome : Except CouncilError (Option ConcludedRole)

namespace RoleRun

def after (effects : List RoleEffect) (diagnostics : List String) (run : RoleRun) : RoleRun where
  effects := effects ++ run.effects
  diagnostics := diagnostics ++ run.diagnostics
  outcome := run.outcome

variable (effects : List RoleEffect) (diagnostics : List String) (run : RoleRun)

@[simp] theorem after_effects : (run.after effects diagnostics).effects = effects ++ run.effects :=
  rfl

@[simp] theorem after_outcome : (run.after effects diagnostics).outcome = run.outcome := rfl

def calls : List RoleCall := run.effects.filterMap (·.call)

end RoleRun

section Attempts

variable (env : CouncilEnv) (options : CouncilOptions) (councilRunId : String)

def toRoleFailure (call : RoleCall) (error : RoleError) (willRetry : Bool) :
    CouncilRoleExecutionError :=
  let inner := match error with
    | .execution failure => some failure
    | _ => none
  { councilPhase := call.spec.phase
    participant := call.spec.participant
    agentStatus := (inner.map (·.agentStatus)).getD .failed
    agentRunId := inner.bind (·.agentRunId)
    driverRunResultId := inner.bind (·.driverRunResultId)
    failureDetails :=
      (((errorDetails error).spread ((inner.map (·.failureDetails)).getD {})).spread
        { attempt := some call.attempt
          willRetry := some willRetry
          councilRunId := some councilRunId
          phaseId := some (env.ids.phase call.spec.roleId call.attempt) }) }

/-- The next attempt: it goes on with the session that the failure names, and for its reason. -/
def RoleCall.again (call : RoleCall) (failure : CouncilRoleExecutionError)
    (snapshot : WorkspaceFileSnapshot) : RoleCall where
  spec := call.spec
  attempt := call.attempt + 1
  sessionId := failure.failureDetails.sessionId.filter (· ≠ "")
  recoveryReason := some <| (failure.failureDetails.reason <|>
    failure.failureDetails.driverErrorMessage <|>
    failure.failureDetails.errorMessage).getD failure.message
  workspaceBefore := some snapshot

def settle (call : RoleCall) : Except RoleError ConcludedRole :=
  let behaviour := env.behave call
  match runRole env options call councilRunId behaviour with
  | .error error => .error error
  | .ok result =>
      match validate call.spec result behaviour.reviewFile with
      | .error error => .error error
      | .ok reviews => .ok
          { execution := { result, phaseId := env.ids.phase call.spec.roleId call.attempt }
            reviews }

def diagnosticOf (failure : CouncilRoleExecutionError) : String :=
  failure.councilPhase.failureCode ++ ":" ++ failure.participant.participantId

def warningsOf (spec : RoleSpec) (concluded : ConcludedRole) : List String :=
  concluded.execution.result.diagnostics.councilWarnings.map fun warning =>
    spec.participant.participantId ++ ":" ++ warning

/-- The loop over the attempts, of which `remaining` are left.  `role` is the entry of the
recovery file, if the round has one. -/
def attemptRole (snapshot : WorkspaceFileSnapshot) :
    Nat → RoleCall → Option CouncilRoleRecovery → RoleRun
  | 0, _, _ => { outcome := .ok none }
  | remaining + 1, call, role =>
      let watched := role.map fun role => watch role (env.behave call).events
      let seen := .dispatched call ::
        (watched.map fun watched => watched.saves.map RoleEffect.saved).getD []
      if watched.any (·.refused) then
        { effects := seen, outcome := .error differentSession }
      else match settle env options councilRunId call with
      | .ok concluded =>
          { effects := seen ++ (watched.map fun watched =>
              RoleEffect.saved { watched.role with execution := some concluded.execution }).toList
            diagnostics := warningsOf call.spec concluded
            outcome := .ok (some concluded) }
      | .error error =>
          let retry := remaining ≠ 0 && isRecoverableRoleFailure error
          let failure := toRoleFailure env councilRunId call error retry
          let rest : RoleRun := if retry then
              attemptRole snapshot remaining (call.again failure snapshot)
                (watched.map (·.role))
            else { outcome := .ok none }
          rest.after (seen ++ [.failed failure]) [diagnosticOf failure]

def RoleSpec.firstCall (spec : RoleSpec) (sessionId : Option String)
    (workspaceBefore : Option WorkspaceFileSnapshot) : RoleCall where
  spec
  attempt := 1
  sessionId
  recoveryReason := none
  workspaceBefore

/-- The role from its workspace on: an error of the preparation is not tried again. -/
def startRole (spec : RoleSpec) (recorded : Bool) : RoleRun :=
  match env.prepare spec with
  | .error thrown =>
      let failure := toRoleFailure env councilRunId (spec.firstCall none none) (.host thrown) false
      { effects := [.failed failure]
        diagnostics := [diagnosticOf failure]
        outcome := .ok none }
  | .ok snapshot =>
      if recorded then
        let role : CouncilRoleRecovery :=
          { driverDispatched := some false, workspaceBefore := snapshot }
        (attemptRole env options councilRunId snapshot spec.maxAttempts (spec.firstCall none none)
          (some role)).after [.saved role] []
      else attemptRole env options councilRunId snapshot spec.maxAttempts (spec.firstCall none none)
        none

/-- The role from its entry in the file on, with the review file that is in its workspace. -/
def resumeRole (spec : RoleSpec) (saved : CouncilRoleRecovery) (reviewFile : ReviewReading) :
    RoleRun :=
  match saved.execution with
  | some execution =>
      match validate spec execution.result reviewFile with
      | .error error => { outcome := .error (.role error) }
      | .ok reviews => { outcome := .ok (some { execution, reviews }) }
  | none =>
      if saved.driverDispatched ≠ some false ∧ saved.sessionId = none then
        { outcome := .error noDurableSession }
      else
        attemptRole env options councilRunId saved.workspaceBefore spec.maxAttempts
          (spec.firstCall saved.sessionId (some saved.workspaceBefore)) (some saved)

end Attempts

end Newide.Council
