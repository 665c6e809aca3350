import Newide.Council.Transparency

/-!
# A round that is resumed after a crash

The first process crashes after it performed the beginning of what its
roles do: while the proposers work each of them may be anywhere, then the
proposals are recorded one by one, then the reviewer and then the
synthesizer work alone.  The next process finds the file as the last save
left it.

The file has the execution of a role that concluded with a result and
nothing for one that ended without.  So the resumed round keeps what was
concluded exactly when no role had ended without a result.
-/

namespace Newide.Council

/-! ## What a crash leaves behind -/

/-- Where the first process crashes: how many effects of each proposer, how many recorded
proposals, or how many effects of the one role that works. -/
inductive CrashPoint where
  | proposing (performed : String → Nat)
  | recording (count : Nat)
  | reviewing (performed : Nat)
  | synthesising (performed : Nat)

/-- A crash of a round with a recovery key.  Without valid participants there is no file. -/
structure Crash where
  env : CouncilEnv
  options : CouncilOptions
  input : CouncilRoundInput
  panel : CouncilPanel
  resolved : resolveParticipants env input = .ok panel
  point : CrashPoint

structure RolePart where
  role : RoleId
  run : RoleRun
  performed : Nat

def recordEffect (role : RoleId) (roles : Record RoleId CouncilRoleRecovery) (effect : RoleEffect) :
    Record RoleId CouncilRoleRecovery :=
  match effect with
  | .saved entry => Record.set roles role entry
  | _ => roles

namespace RolePart

variable (part : RolePart)

def effects : List RoleEffect := part.run.effects.take part.performed

def finished (role : RoleId) (run : RoleRun) : RolePart := ⟨role, run, run.effects.length⟩

/-- The entries after the part was performed. -/
def record (roles : Record RoleId CouncilRoleRecovery) : Record RoleId CouncilRoleRecovery :=
  part.effects.foldl (recordEffect part.role) roles

/-- The role and what it concluded with, if it concluded. -/
def concluded : Option (RoleId × Option ConcludedRole) :=
  if part.run.effects.length ≤ part.performed then
    match part.run.outcome with
    | .ok result => some (part.role, result)
    | .error _ => none
  else none

end RolePart

def leftFile (env : CouncilEnv) (effects : List RoleEffect) : ReviewReading :=
  ((effects.filterMap (·.call)).getLast?.map fun call => (env.behave call).reviewFile).getD (.ok none)

theorem leftFile_append {env : CouncilEnv} (before : List RoleEffect) {effects : List RoleEffect}
    (h : effects.filterMap (·.call) ≠ []) :
    leftFile env (before ++ effects) = leftFile env effects := by
  unfold leftFile
  rw [List.filterMap_append, List.getLast?_append_of_ne_nil _ h]

namespace CouncilPanel

def proposalRole (participant : CouncilParticipantBinding) : RoleId :=
  ⟨participant.participantId, .proposal⟩

variable (panel : CouncilPanel)

def reviewRole : RoleId := ⟨panel.reviewer.participantId, .review⟩

def synthesisRole : RoleId := ⟨panel.synthesizer.participantId, .synthesis⟩

end CouncilPanel

def RoundRun.roles (panel : CouncilPanel) (run : RoundRun) : List (RoleId × RoleRun) :=
  run.proposing.map (fun entry => (CouncilPanel.proposalRole entry.1, entry.2)) ++
    run.review.toList.map (fun role => (panel.reviewRole, role)) ++
    run.synthesis.toList.map (fun role => (panel.synthesisRole, role))

def RoundRun.proposals (run : RoundRun) : Option (List Proposal) :=
  run.generated.map (·.map Prod.snd)

namespace Crash

variable (crash : Crash)

/-- The first process, had it not crashed. -/
def first : RoundRun := runCouncilRound crash.env crash.options crash.input (some none)

def proposerParts (performed : CouncilParticipantBinding → RoleRun → Nat) : List RolePart :=
  crash.first.proposing.map fun entry =>
    ⟨CouncilPanel.proposalRole entry.1, entry.2, performed entry.1 entry.2⟩

def reviewerParts (performed : RoleRun → Nat) : List RolePart :=
  crash.first.review.toList.map fun run => ⟨crash.panel.reviewRole, run, performed run⟩

def synthesizerParts (performed : Nat) : List RolePart :=
  crash.first.synthesis.toList.map fun run => ⟨crash.panel.synthesisRole, run, performed⟩

/-- The roles that had begun.  A point that the round does not reach is its end. -/
def parts : List RolePart :=
  match crash.point with
  | .proposing performed => crash.proposerParts fun p _ => performed p.participantId
  | .recording _ => crash.proposerParts fun _ run => run.effects.length
  | .reviewing performed =>
      crash.proposerParts (fun _ run => run.effects.length) ++ crash.reviewerParts fun _ => performed
  | .synthesising performed =>
      crash.proposerParts (fun _ run => run.effects.length) ++
        crash.reviewerParts (·.effects.length) ++ crash.synthesizerParts performed

def recorded : List (String × Proposal) :=
  match crash.point with
  | .proposing _ => []
  | .recording count => (crash.first.generated.getD []).take count
  | .reviewing _ | .synthesising _ => crash.first.generated.getD []

def disk : CouncilDisk where
  file :=
    { createRecovery crash.env crash.input crash.panel with
      proposals := Record.ofEntries crash.recorded
      roles := crash.parts.foldl (fun roles part => part.record roles) [] }
  reviewFile := leftFile crash.env
    ((crash.parts.filter (·.role.phase = .review)).flatMap (·.effects))

/-- The roles that had concluded, each with its result or without one. -/
def concluded : List (RoleId × Option ConcludedRole) := crash.parts.filterMap (·.concluded)

def resumed (env' : CouncilEnv) : RoundRun :=
  runCouncilRound env' crash.options crash.input (some (some crash.disk))

/-- The resumed round keeps what was concluded. -/
structure Keeps (env' : CouncilEnv) : Prop where
  /-- A role that had concluded is not dispatched again. -/
  quiet : ∀ role result, (role, result) ∈ crash.concluded →
    ∀ run, (role, run) ∈ (crash.resumed env').roles crash.panel → run.calls = []
  /-- A role that had concluded on the proposals still stands on the same ones. -/
  proposals : ∀ role result, (role, result) ∈ crash.concluded → role.phase ≠ .proposal →
    (crash.resumed env').proposals = crash.first.proposals
  /-- A role that had ended without a result does not fail the round. -/
  survives : ∀ role, (role, none) ∈ crash.concluded →
    ∀ run, (role, run) ∈ (crash.resumed env').roles crash.panel → ∀ e, run.outcome ≠ .error e

end Crash

/-! ## The entry of a role -/

def entryAfter (entry : Option CouncilRoleRecovery) (effects : List RoleEffect) :
    Option CouncilRoleRecovery :=
  effects.foldl (fun entry effect =>
    match effect with
    | .saved role => some role
    | _ => entry) entry

theorem entryAfter_append (entry : Option CouncilRoleRecovery) (a b : List RoleEffect) :
    entryAfter entry (a ++ b) = entryAfter (entryAfter entry a) b :=
  List.foldl_append

variable {run : RoleRun}

variable {entry : Option CouncilRoleRecovery} {reviewFile : ReviewReading}
  {reviews : Option (List ParsedReview)} {performed : CouncilParticipantBinding → RoleRun → Nat}

section Entry

variable {env : CouncilEnv} {options : CouncilOptions} {councilRunId : String} {spec : RoleSpec}
  {snapshot : WorkspaceFileSnapshot} {remaining : Nat} {call : RoleCall}
  {role role' : CouncilRoleRecovery}

theorem onDriverEvent_execution {event : DriverStreamEvent}
    (h : onDriverEvent role event = .saved role') : role'.execution = role.execution := by
  unfold onDriverEvent at h
  cases htype : event.eventType with
  | promptDispatching =>
      rw [htype] at h
      cases h
      rfl
  | other name => simp [htype] at h
  | turnStarted =>
      simp only [htype] at h
      split at h
      · cases h
      · split at h
        · cases h
        · cases h
          rfl

theorem watch_entry (events : List DriverStreamEvent) : ∀ role : CouncilRoleRecovery,
    entryAfter (some role) ((watch role events).saves.map RoleEffect.saved) =
        some (watch role events).role ∧
      (watch role events).role.execution = role.execution := by
  induction events with
  | nil => exact fun role => ⟨rfl, rfl⟩
  | cons event rest ih =>
      intro role
      unfold watch
      cases hevent : onDriverEvent role event with
      | ignored => exact ih role
      | saved role' =>
          obtain ⟨hentry, hexecution⟩ := ih role'
          exact ⟨hentry, hexecution.trans (onDriverEvent_execution hevent)⟩
      | refused => exact ih role

theorem calls_saves (saves : List CouncilRoleRecovery) :
    (saves.map RoleEffect.saved).filterMap (·.call) = [] := by
  rw [List.filterMap_eq_nil_iff]
  simp

/-- What the attempts of a role leave behind: the entry has the execution of a role that concluded
with a result, and the review file is the one its result was checked against. -/
structure Leaves (env : CouncilEnv) (spec : RoleSpec) (entry : Option CouncilRoleRecovery)
    (run : RoleRun) : Prop where
  execution : ∀ result, run.outcome = .ok result →
    (entryAfter entry run.effects).bind (·.execution) = result.map (·.execution)
  called : ∀ concluded, run.outcome = .ok (some concluded) → run.calls ≠ []
  reviews : ∀ concluded, run.outcome = .ok (some concluded) →
    validate spec concluded.execution.result (leftFile env run.effects) = .ok concluded.reviews

theorem settle_reviews {concluded : ConcludedRole}
    (h : settle env options councilRunId call = .ok concluded) :
    validate call.spec concluded.execution.result (env.behave call).reviewFile =
      .ok concluded.reviews := by
  unfold settle at h
  simp only at h
  cases hrun : runRole env options call councilRunId (env.behave call) with
  | error error => simp [hrun] at h
  | ok result =>
      cases hvalid : validate call.spec result (env.behave call).reviewFile with
      | error error => simp [hrun, hvalid] at h
      | ok reviews =>
          simp only [hrun, hvalid, Except.ok.injEq] at h
          rw [← h]
          exact hvalid

theorem Leaves.after {effects : List RoleEffect}
    (h : Leaves env spec (entryAfter entry effects) run) (diagnostics : List String) :
    Leaves env spec entry (run.after effects diagnostics) where
  execution result hresult := by
    rw [RoleRun.after_effects, entryAfter_append]
    exact h.execution result hresult
  called concluded hconcluded := by
    have hcalled := h.called concluded hconcluded
    unfold RoleRun.calls at hcalled ⊢
    rw [RoleRun.after_effects, List.filterMap_append]
    exact List.append_ne_nil_of_right_ne_nil _ hcalled
  reviews concluded hconcluded := by
    rw [RoleRun.after_effects, leftFile_append _ (h.called concluded hconcluded)]
    exact h.reviews concluded hconcluded

theorem leaves_none (h : entry.bind (·.execution) = none) :
    Leaves env spec entry { outcome := .ok none } where
  execution result hresult := by
    cases hresult
    exact h
  called concluded h := by cases h
  reviews concluded h := by cases h

theorem attemptRole_leaves (hspec : call.spec = spec) (hrole : role.execution = none) :
    Leaves env spec (some role)
      (attemptRole env options councilRunId snapshot remaining call (some role)) := by
  induction remaining generalizing call role with
  | zero => exact leaves_none hrole
  | succ remaining ih =>
      obtain ⟨hentry, hexecution⟩ := watch_entry (env.behave call).events role
      simp only [attemptRole, Option.map_some, Option.any_some, Option.getD_some]
      split
      · exact ⟨fun _ h => (by cases h), fun _ h => (by cases h), fun _ h => (by cases h)⟩
      · cases hsettle : settle env options councilRunId call with
        | ok concluded =>
            have hcalls : (RoleEffect.dispatched call ::
                ((watch role (env.behave call).events).saves.map RoleEffect.saved ++
                  [.saved { (watch role (env.behave call).events).role with
                    execution := some concluded.execution }])).filterMap (·.call) = [call] := by
              rw [List.filterMap_cons, List.filterMap_append, calls_saves]
              rfl
            refine ⟨fun result h => ?_, fun _ h => ?_, fun other h => ?_⟩
            · cases h
              show (entryAfter (some role) (RoleEffect.dispatched call :: _ ++ [_])).bind _ = _
              rw [entryAfter_append]
              rfl
            · show List.filterMap _ _ ≠ []
              simp only [Option.toList_some, List.cons_append, hcalls]
              exact List.cons_ne_nil _ _
            · cases h
              simp only [Option.toList_some, List.cons_append, leftFile, hcalls]
              rw [← hspec]
              exact settle_reviews hsettle
        | error error =>
            refine Leaves.after ?_ _
            have hseen : entryAfter (some role) (RoleEffect.dispatched call ::
                (watch role (env.behave call).events).saves.map RoleEffect.saved ++
                  [.failed (toRoleFailure env councilRunId call error
                    (remaining ≠ 0 && isRecoverableRoleFailure error))]) =
                some (watch role (env.behave call).events).role := by
              rw [entryAfter_append]
              exact hentry
            rw [hseen]
            split
            · exact ih hspec (hexecution.trans hrole)
            · exact leaves_none (hexecution.trans hrole)

theorem startRole_leaves : Leaves env spec none (startRole env options councilRunId spec true) := by
  unfold startRole
  cases env.prepare spec with
  | error thrown =>
      refine ⟨fun result h => ?_, fun _ h => (by cases h), fun _ h => (by cases h)⟩
      cases h
      rfl
  | ok snapshot =>
      have hattempts : Leaves env spec
          (some { driverDispatched := some false, workspaceBefore := snapshot })
          (attemptRole env options councilRunId snapshot spec.maxAttempts (spec.firstCall none none)
            (some { driverDispatched := some false, workspaceBefore := snapshot })) :=
        attemptRole_leaves rfl rfl
      exact Leaves.after hattempts []

/-! ## Resuming a role -/

theorem resumeRole_execution {execution : CouncilRoleExecution}
    (h : role.execution = some execution)
    (hvalid : validate spec execution.result reviewFile = .ok reviews) :
    resumeRole env options councilRunId spec role reviewFile =
      { outcome := .ok (some { execution, reviews }) } := by
  simp only [resumeRole, h, hvalid]

theorem attemptRole_calls (entry : Option CouncilRoleRecovery) :
    call ∈ (attemptRole env options councilRunId snapshot (remaining + 1) call entry).calls := by
  simp only [attemptRole]
  split
  · exact List.mem_cons_self
  · cases settle env options councilRunId call with
    | ok concluded => exact List.mem_cons_self
    | error error => exact List.mem_cons_self

theorem resumeRole_calls (h : role.execution = none) (hattempts : 0 < spec.maxAttempts) :
    (∃ e, (resumeRole env options councilRunId spec role reviewFile).outcome = .error e) ∨
      (resumeRole env options councilRunId spec role reviewFile).calls ≠ [] := by
  obtain ⟨n, hn⟩ := Nat.exists_eq_add_one_of_ne_zero (Nat.pos_iff_ne_zero.mp hattempts)
  simp only [resumeRole, h, hn]
  split
  · exact .inl ⟨_, rfl⟩
  · exact .inr (List.ne_nil_of_mem (attemptRole_calls _))

theorem startRole_calls (hprepare : env.prepare spec = .ok snapshot)
    (hattempts : 0 < spec.maxAttempts) :
    (startRole env options councilRunId spec true).calls ≠ [] := by
  obtain ⟨n, hn⟩ := Nat.exists_eq_add_one_of_ne_zero (Nat.pos_iff_ne_zero.mp hattempts)
  simp only [startRole, hprepare, hn, if_true, RoleRun.calls, RoleRun.after_effects,
    List.filterMap_append]
  exact List.append_ne_nil_of_right_ne_nil _ (List.ne_nil_of_mem (attemptRole_calls _))

end Entry

/-! ## The file after a crash -/

section Files

open Record

variable {role other : RoleId} {roles : Record RoleId CouncilRoleRecovery}

theorem distinct_recordEffect (h : Distinct roles) (effect : RoleEffect) :
    Distinct (recordEffect role roles effect) := by
  cases effect with
  | saved entry => exact Record.Distinct.set h role entry
  | dispatched call => exact h
  | failed failure => exact h

theorem get_recordEffect (h : Distinct roles) (effect : RoleEffect) :
    get other (recordEffect role roles effect) =
      if other = role then entryAfter (get role roles) [effect] else get other roles := by
  cases effect with
  | saved entry => exact get_set h other
  | dispatched call =>
      by_cases hsame : other = role
      · rw [if_pos hsame, hsame]
        rfl
      · rw [if_neg hsame]
        rfl
  | failed failure =>
      by_cases hsame : other = role
      · rw [if_pos hsame, hsame]
        rfl
      · rw [if_neg hsame]
        rfl

theorem distinct_record (part : RolePart) (h : Distinct roles) : Distinct (part.record roles) := by
  unfold RolePart.record
  generalize part.effects = effects
  induction effects generalizing roles with
  | nil => exact h
  | cons effect rest ih => exact ih (distinct_recordEffect h effect)

theorem get_record (part : RolePart) (h : Distinct roles) :
    get other (part.record roles) =
      if other = part.role then entryAfter (get part.role roles) part.effects
      else get other roles := by
  unfold RolePart.record
  generalize part.effects = effects
  induction effects generalizing roles with
  | nil =>
      by_cases hsame : other = part.role
      · rw [if_pos hsame, hsame]
        rfl
      · rw [if_neg hsame]
        rfl
  | cons effect rest ih =>
      rw [List.foldl_cons, ih (distinct_recordEffect h effect)]
      by_cases hsame : other = part.role
      · rw [if_pos hsame, if_pos hsame, get_recordEffect h, if_pos rfl]
        rfl
      · rw [if_neg hsame, if_neg hsame, get_recordEffect h, if_neg hsame]

theorem get_recordParts_ne {parts : List RolePart} (h : Distinct roles)
    (hne : ∀ part ∈ parts, other ≠ part.role) :
    get other (parts.foldl (fun roles part => part.record roles) roles) = get other roles := by
  induction parts generalizing roles with
  | nil => rfl
  | cons part rest ih =>
      obtain ⟨hfirst, hrest⟩ := List.forall_mem_cons.mp hne
      rw [List.foldl_cons, ih (distinct_record part h) hrest, get_record part h,
        if_neg hfirst]

theorem get_recordParts {parts : List RolePart} (hparts : (parts.map (·.role)).Nodup)
    (h : Distinct roles) {part : RolePart} (hpart : part ∈ parts) :
    get part.role (parts.foldl (fun roles part => part.record roles) roles) =
      entryAfter (get part.role roles) part.effects := by
  induction parts generalizing roles with
  | nil => cases hpart
  | cons first rest ih =>
      rw [List.map_cons, List.nodup_cons] at hparts
      obtain ⟨hnew, hrest⟩ := hparts
      have hne : ∀ later ∈ rest, first.role ≠ later.role :=
        fun later hlater hsame => hnew (List.mem_map.mpr ⟨later, hlater, hsame.symm⟩)
      rw [List.foldl_cons]
      rcases List.mem_cons.mp hpart with rfl | hpart
      · rw [get_recordParts_ne (distinct_record part h) hne, get_record part h,
          if_pos rfl]
      · rw [ih hrest (distinct_record first h) hpart, get_record first h,
          if_neg (Ne.symm (hne part hpart))]

end Files

/-! ## The stages of a round -/

variable {concluded : List (CouncilParticipantBinding × ConcludedRole)}

section Stages

variable {env : CouncilEnv} {options : CouncilOptions} {input : CouncilRoundInput}
  {panel : CouncilPanel} {recovery : Option CouncilDisk}

theorem proposalExecutions_congr {f g : CouncilParticipantBinding → RoleRun}
    {pending : List CouncilParticipantBinding} (h : ∀ p ∈ pending, (f p).outcome = (g p).outcome) :
    proposalExecutions (pending.map fun p => (p, f p)) =
      proposalExecutions (pending.map fun p => (p, g p)) := by
  induction pending with
  | nil => rfl
  | cons p rest ih =>
      obtain ⟨hp, hrest⟩ := List.forall_mem_cons.mp h
      simp only [List.map_cons, proposalExecutions, hp, ih hrest]

theorem proposalExecutions_eq_ok {runs : List (CouncilParticipantBinding × RoleRun)} :
    ∀ {concluded : List (CouncilParticipantBinding × ConcludedRole)},
      proposalExecutions runs = .ok concluded →
        (∀ entry ∈ runs, ∃ result, entry.2.outcome = .ok result) ∧
          (concluded.map Prod.fst).Sublist (runs.map Prod.fst) := by
  induction runs with
  | nil =>
      intro concluded h
      cases h
      exact ⟨by simp, List.Sublist.refl _⟩
  | cons entry rest ih =>
      intro concluded h
      obtain ⟨p, run⟩ := entry
      cases houtcome : run.outcome with
      | error error => simp [proposalExecutions, houtcome] at h
      | ok result =>
          cases result with
          | none =>
              simp only [proposalExecutions, houtcome] at h
              obtain ⟨hall, hsub⟩ := ih h
              exact ⟨List.forall_mem_cons.mpr ⟨⟨none, houtcome⟩, hall⟩, hsub.cons _⟩
          | some role =>
              simp only [proposalExecutions, houtcome] at h
              cases hothers : proposalExecutions rest with
              | error error =>
                  rw [hothers] at h
                  cases h
              | ok others =>
                  rw [hothers] at h
                  cases h
                  obtain ⟨hall, hsub⟩ := ih hothers
                  exact ⟨List.forall_mem_cons.mpr ⟨⟨some role, houtcome⟩, hall⟩, hsub.cons_cons _⟩

def proposalsOf (env : CouncilEnv) (input : CouncilRoundInput) (recovery : Option CouncilDisk)
    (concluded : List (CouncilParticipantBinding × ConcludedRole)) : List Proposal :=
  input.proposals ++ (generateProposals env recovery concluded).map Prod.snd

theorem runPanel_proposing : (runPanel env options input panel recovery).proposing =
    runProposers env options input panel recovery := by
  unfold runPanel
  simp only
  split <;> rfl

theorem runPanel_review : (runPanel env options input panel recovery).review = some run ↔
      ∃ concluded, proposalExecutions (runProposers env options input panel recovery) =
          .ok concluded ∧
        run = tryRunRole env options (councilRunIdOf env recovery)
          (reviewSpec panel (proposalsOf env input recovery concluded)) recovery := by
  simp only [runPanel]
  cases hproposing : proposalExecutions (runProposers env options input panel recovery) with
  | error error => simp
  | ok concluded =>
      simp only [Option.some.injEq, reviewStage_review, Except.ok.injEq, exists_eq_left', proposalsOf]
      exact eq_comm

theorem runPanel_generated
    (h : proposalExecutions (runProposers env options input panel recovery) = .ok concluded) :
    (runPanel env options input panel recovery).generated =
      some (generateProposals env recovery concluded) := by
  simp only [runPanel, h]

theorem runPanel_synthesis : (runPanel env options input panel recovery).synthesis = some run ↔
      ∃ concluded, proposalExecutions (runProposers env options input panel recovery) =
          .ok concluded ∧
        ∃ reviewer, (tryRunRole env options (councilRunIdOf env recovery)
            (reviewSpec panel (proposalsOf env input recovery concluded)) recovery).outcome =
              .ok reviewer ∧
          ∃ reviews, acceptReviews env panel (proposalsOf env input recovery concluded) reviewer =
              .ok reviews ∧
            run = tryRunRole env options (councilRunIdOf env recovery)
              (synthesisSpec input panel (proposalsOf env input recovery concluded) reviews)
                recovery := by
  simp only [runPanel]
  cases hproposing : proposalExecutions (runProposers env options input panel recovery) with
  | error error => simp
  | ok concluded =>
      simp only [reviewStage, Except.ok.injEq, exists_eq_left', proposalsOf]
      generalize input.proposals ++ (generateProposals env recovery concluded).map Prod.snd =
        proposals
      cases hreview : (tryRunRole env options (councilRunIdOf env recovery)
          (reviewSpec panel proposals) recovery).outcome with
      | error error => simp
      | ok reviewer =>
          simp only [Except.ok.injEq, exists_eq_left']
          cases haccept : acceptReviews env panel proposals reviewer with
          | error error => simp
          | ok reviews =>
              simp only [Except.ok.injEq, exists_eq_left', synthesisStage, Option.some.injEq]
              exact eq_comm

end Stages

/-! ## The first process -/

namespace Crash

variable (crash : Crash)

theorem first_eq : crash.first = runPanel crash.env crash.options crash.input crash.panel
    (some (freshDisk crash.env crash.input crash.panel)) := by
  simp only [first, runCouncilRound, crash.resolved]
  rfl

def begun (spec : RoleSpec) : RoleRun :=
  startRole crash.env crash.options crash.env.ids.councilRun spec true

theorem first_proposing : crash.first.proposing =
    (pendingProposers crash.input crash.panel).map fun p =>
      (p, crash.begun (proposalSpec crash.input p)) := by
  rw [first_eq, runPanel_proposing]
  rfl

def executions : Except CouncilError (List (CouncilParticipantBinding × ConcludedRole)) :=
  proposalExecutions crash.first.proposing

theorem runProposers_fresh : runProposers crash.env crash.options crash.input crash.panel
    (some (freshDisk crash.env crash.input crash.panel)) = crash.first.proposing := by
  rw [first_eq, runPanel_proposing]

theorem first_review : crash.first.review = some run ↔
    ∃ concluded, crash.executions = .ok concluded ∧
      run = crash.begun (reviewSpec crash.panel
        (proposalsOf crash.env crash.input none concluded)) := by
  rw [first_eq, runPanel_review, runProposers_fresh]
  rfl

theorem first_synthesis : crash.first.synthesis = some run ↔
    ∃ concluded, crash.executions = .ok concluded ∧
      ∃ reviewer, (crash.begun (reviewSpec crash.panel
          (proposalsOf crash.env crash.input none concluded))).outcome = .ok reviewer ∧
        ∃ reviews, acceptReviews crash.env crash.panel
            (proposalsOf crash.env crash.input none concluded) reviewer = .ok reviews ∧
          run = crash.begun (synthesisSpec crash.input crash.panel
            (proposalsOf crash.env crash.input none concluded) reviews) := by
  rw [first_eq, runPanel_synthesis, runProposers_fresh]
  rfl

theorem first_generated (h : crash.executions = .ok concluded) :
    crash.first.generated = some (generateProposals crash.env none concluded) := by
  rw [first_eq, runPanel_generated]
  · rfl
  · rw [runProposers_fresh]
    exact h

/-! ## The roles at the crash -/

variable {part : RolePart} {role : RoleId} {spec : RoleSpec} {snapshot : WorkspaceFileSnapshot}

theorem mem_proposerParts : part ∈ crash.proposerParts performed ↔
      ∃ p ∈ pendingProposers crash.input crash.panel,
        ⟨CouncilPanel.proposalRole p, crash.begun (proposalSpec crash.input p),
          performed p (crash.begun (proposalSpec crash.input p))⟩ = part := by
  unfold proposerParts
  rw [first_proposing, List.map_map]
  exact List.mem_map

theorem mem_reviewerParts {performed : RoleRun → Nat} :
    part ∈ crash.reviewerParts performed ↔
      ∃ run, crash.first.review = some run ∧ ⟨crash.panel.reviewRole, run, performed run⟩ = part := by
  unfold reviewerParts
  rw [List.mem_map]
  simp only [Option.mem_toList]

theorem mem_synthesizerParts {performed : Nat} :
    part ∈ crash.synthesizerParts performed ↔ ∃ run, crash.first.synthesis = some run ∧
      ⟨crash.panel.synthesisRole, run, performed⟩ = part := by
  unfold synthesizerParts
  rw [List.mem_map]
  simp only [Option.mem_toList]

theorem mem_parts (h : part ∈ crash.parts) :
    (∃ performed, part ∈ crash.proposerParts performed) ∨
      (∃ performed, part ∈ crash.reviewerParts performed) ∨
        ∃ performed, part ∈ crash.synthesizerParts performed := by
  unfold parts at h
  cases hpoint : crash.point with
  | proposing performed =>
      rw [hpoint] at h
      exact .inl ⟨_, h⟩
  | recording count =>
      rw [hpoint] at h
      exact .inl ⟨_, h⟩
  | reviewing performed =>
      rw [hpoint] at h
      rcases List.mem_append.mp h with h | h
      · exact .inl ⟨_, h⟩
      · exact .inr (.inl ⟨_, h⟩)
  | synthesising performed =>
      rw [hpoint] at h
      rcases List.mem_append.mp h with h | h
      · rcases List.mem_append.mp h with h | h
        · exact .inl ⟨_, h⟩
        · exact .inr (.inl ⟨_, h⟩)
      · exact .inr (.inr ⟨_, h⟩)

theorem part_begun (h : part ∈ crash.parts) :
    ∃ spec, spec.roleId = part.role ∧ part.run = crash.begun spec := by
  rcases crash.mem_parts h with ⟨_, h⟩ | ⟨_, h⟩ | ⟨_, h⟩
  · obtain ⟨p, _, rfl⟩ := crash.mem_proposerParts.mp h
    exact ⟨_, rfl, rfl⟩
  · obtain ⟨run, hrun, rfl⟩ := crash.mem_reviewerParts.mp h
    obtain ⟨concluded, _, rfl⟩ := crash.first_review.mp hrun
    exact ⟨_, rfl, rfl⟩
  · obtain ⟨run, hrun, rfl⟩ := crash.mem_synthesizerParts.mp h
    obtain ⟨concluded, _, reviewer, _, reviews, _, rfl⟩ := crash.first_synthesis.mp hrun
    exact ⟨_, rfl, rfl⟩

theorem pending_distinct :
    ((pendingProposers crash.input crash.panel).map (·.participantId)).Nodup := by
  have hsub : ((pendingProposers crash.input crash.panel).map (·.participantId)).Sublist
      (crash.panel.proposers.map (·.participantId)) :=
    List.filter_sublist.map _
  exact crash.panel.proposers_distinct.sublist hsub

theorem proposerParts_roles (performed : CouncilParticipantBinding → RoleRun → Nat) :
    (crash.proposerParts performed).map (·.role) =
      ((pendingProposers crash.input crash.panel).map (·.participantId)).map
        fun id => ⟨id, .proposal⟩ := by
  unfold proposerParts
  rw [first_proposing, List.map_map, List.map_map, List.map_map]
  rfl

theorem proposerParts_distinct (performed : CouncilParticipantBinding → RoleRun → Nat) :
    ((crash.proposerParts performed).map (·.role)).Nodup := by
  rw [proposerParts_roles]
  refine crash.pending_distinct.map fun a b h => ?_
  exact congrArg RoleId.participantId h

theorem reviewerParts_distinct (performed : RoleRun → Nat) :
    ((crash.reviewerParts performed).map (·.role)).Nodup := by
  unfold reviewerParts
  cases crash.first.review <;> simp

theorem synthesizerParts_distinct (performed : Nat) :
    ((crash.synthesizerParts performed).map (·.role)).Nodup := by
  unfold synthesizerParts
  cases crash.first.synthesis <;> simp

theorem proposerParts_phase (h : role ∈ (crash.proposerParts performed).map (·.role)) :
    role.phase = .proposal := by
  rw [proposerParts_roles] at h
  obtain ⟨id, _, rfl⟩ := List.mem_map.mp h
  rfl

theorem reviewerParts_phase {performed : RoleRun → Nat}
    (h : role ∈ (crash.reviewerParts performed).map (·.role)) : role.phase = .review := by
  obtain ⟨part, hpart, rfl⟩ := List.mem_map.mp h
  obtain ⟨run, _, rfl⟩ := crash.mem_reviewerParts.mp hpart
  rfl

theorem synthesizerParts_phase {performed : Nat}
    (h : role ∈ (crash.synthesizerParts performed).map (·.role)) : role.phase = .synthesis := by
  obtain ⟨part, hpart, rfl⟩ := List.mem_map.mp h
  obtain ⟨run, _, rfl⟩ := crash.mem_synthesizerParts.mp hpart
  rfl

theorem parts_distinct : (crash.parts.map (·.role)).Nodup := by
  have hreview : ∀ performed performed', ((crash.proposerParts performed ++
      crash.reviewerParts performed').map (·.role)).Nodup := by
    intro performed performed'
    rw [List.map_append]
    refine (crash.proposerParts_distinct _).append (crash.reviewerParts_distinct _) ?_
    intro role hproposal hrole
    have hphase := (crash.proposerParts_phase hproposal).symm.trans (crash.reviewerParts_phase hrole)
    cases hphase
  unfold parts
  cases crash.point with
  | proposing performed => exact crash.proposerParts_distinct _
  | recording count => exact crash.proposerParts_distinct _
  | reviewing performed => exact hreview _ _
  | synthesising performed =>
      rw [List.map_append]
      refine (hreview _ _).append (crash.synthesizerParts_distinct _) ?_
      intro role hearlier hrole
      have hphase := crash.synthesizerParts_phase hrole
      rw [List.map_append] at hearlier
      rcases List.mem_append.mp hearlier with h | h
      · exact absurd (crash.proposerParts_phase h) (by rw [hphase]; decide)
      · exact absurd (crash.reviewerParts_phase h) (by rw [hphase]; decide)

variable {result : Option ConcludedRole}

theorem concluded_part (h : (role, result) ∈ crash.concluded) :
    ∃ part ∈ crash.parts, part.role = role ∧
      part.run.outcome = .ok result ∧ part.effects = part.run.effects := by
  obtain ⟨part, hpart, hconcluded⟩ := List.mem_filterMap.mp h
  unfold RolePart.concluded at hconcluded
  by_cases hlength : part.run.effects.length ≤ part.performed
  · rw [if_pos hlength] at hconcluded
    cases houtcome : part.run.outcome with
    | error error => simp [houtcome] at hconcluded
    | ok found =>
        rw [houtcome] at hconcluded
        cases hconcluded
        exact ⟨part, hpart, rfl, houtcome, List.take_of_length_le hlength⟩
  · rw [if_neg hlength] at hconcluded
    cases hconcluded

theorem concluded_entry (h : (role, result) ∈ crash.concluded) :
    (Record.get role crash.disk.file.roles).bind (·.execution) = result.map (·.execution) := by
  obtain ⟨part, hpart, rfl, houtcome, heffects⟩ := crash.concluded_part h
  obtain ⟨spec, _, hrun⟩ := crash.part_begun hpart
  have hnil : Record.Distinct ([] : Record RoleId CouncilRoleRecovery) := List.Pairwise.nil
  have hget : Record.get part.role crash.disk.file.roles = entryAfter none part.effects :=
    get_recordParts crash.parts_distinct hnil hpart
  have hleaves : Leaves crash.env spec none part.run := hrun ▸ startRole_leaves
  rw [hget, heffects]
  exact hleaves.execution result houtcome

theorem later_parts (h : part ∈ crash.parts) (hphase : part.role.phase ≠ .proposal) :
    ∃ performed rest, crash.parts = crash.proposerParts (fun _ run => run.effects.length) ++
        (crash.reviewerParts performed ++ rest) ∧
      (∀ other ∈ rest, other.role.phase = .synthesis) ∧
      crash.recorded = crash.first.generated.getD [] ∧
      (part.role.phase = .synthesis → performed = fun run => run.effects.length) := by
  have hproposer : ∀ performed, part ∉ crash.proposerParts performed := fun performed hpart =>
    hphase (crash.proposerParts_phase (List.mem_map_of_mem hpart))
  unfold parts at h ⊢
  unfold recorded
  cases hpoint : crash.point with
  | proposing performed =>
      rw [hpoint] at h
      exact absurd h (hproposer _)
  | recording count =>
      rw [hpoint] at h
      exact absurd h (hproposer _)
  | reviewing performed =>
      rw [hpoint] at h
      refine ⟨fun _ => performed, [], by rw [List.append_nil], by simp, rfl, fun hsynthesis => ?_⟩
      rcases List.mem_append.mp h with h | h
      · exact absurd h (hproposer _)
      · have hreview := crash.reviewerParts_phase (List.mem_map_of_mem h)
        rw [hreview] at hsynthesis
        cases hsynthesis
  | synthesising performed =>
      refine ⟨(·.effects.length), crash.synthesizerParts performed, List.append_assoc _ _ _,
        fun other hother => crash.synthesizerParts_phase (List.mem_map_of_mem hother), rfl,
        fun _ => rfl⟩

theorem finished_concluded {parts : List RolePart} (h : ⟨role, run, run.effects.length⟩ ∈ parts)
    (houtcome : run.outcome = .ok result) : (role, result) ∈ parts.filterMap (·.concluded) := by
  refine List.mem_filterMap.mpr ⟨_, h, ?_⟩
  unfold RolePart.concluded
  simp only [Nat.le_refl, if_true, houtcome]

variable {p : CouncilParticipantBinding}

theorem later_proposers (h : part ∈ crash.parts) (hphase : part.role.phase ≠ .proposal)
    (hp : p ∈ pendingProposers crash.input crash.panel)
    (houtcome : (crash.begun (proposalSpec crash.input p)).outcome = .ok result) :
    (CouncilPanel.proposalRole p, result) ∈ crash.concluded := by
  obtain ⟨performed, rest, hparts, _⟩ := crash.later_parts h hphase
  refine finished_concluded ?_ houtcome
  rw [hparts]
  exact List.mem_append_left _ (crash.mem_proposerParts.mpr ⟨p, hp, rfl⟩)

theorem later_reviewer (h : part ∈ crash.parts) (hphase : part.role.phase = .synthesis)
    (hrun : crash.first.review = some run) (houtcome : run.outcome = .ok result) :
    (crash.panel.reviewRole, result) ∈ crash.concluded := by
  obtain ⟨performed, rest, hparts, _, _, hperformed⟩ := crash.later_parts h
    (by rw [hphase]; decide)
  refine finished_concluded ?_ houtcome
  rw [hparts, hperformed hphase]
  exact List.mem_append_right _ (List.mem_append_left _
    (crash.mem_reviewerParts.mpr ⟨run, hrun, rfl⟩))

theorem disk_reviewFile (h : (crash.panel.reviewRole, result) ∈ crash.concluded) :
    ∃ run, crash.first.review = some run ∧ run.outcome = .ok result ∧
      crash.disk.reviewFile = leftFile crash.env run.effects := by
  obtain ⟨part, hpart, hrole, houtcome, heffects⟩ := crash.concluded_part h
  have hphase : part.role.phase = .review := by
    rw [hrole]
    rfl
  obtain ⟨performed, rest, hparts, hrest, _⟩ := crash.later_parts hpart (by rw [hphase]; decide)
  have hproposers : ∀ other ∈ crash.proposerParts fun _ run => run.effects.length,
      other.role.phase ≠ .review := by
    intro other hother
    rw [crash.proposerParts_phase (List.mem_map_of_mem hother)]
    decide
  have hrest' : ∀ other ∈ rest, other.role.phase ≠ .review := by
    intro other hother
    rw [hrest other hother]
    decide
  have hreviewer : part ∈ crash.reviewerParts performed := by
    rw [hparts] at hpart
    rcases List.mem_append.mp hpart with hpart | hpart
    · exact absurd hphase (hproposers part hpart)
    · rcases List.mem_append.mp hpart with hpart | hpart
      · exact hpart
      · exact absurd hphase (hrest' part hpart)
  obtain ⟨run, hrun, rfl⟩ := crash.mem_reviewerParts.mp hreviewer
  refine ⟨run, hrun, houtcome, ?_⟩
  have hfilter : crash.parts.filter (·.role.phase = .review) = crash.reviewerParts performed := by
    have hnone : (crash.proposerParts fun _ run => run.effects.length).filter
        (·.role.phase = .review) = [] := List.filter_eq_nil_iff.mpr (by simpa using hproposers)
    have hnone' : rest.filter (·.role.phase = .review) = [] :=
      List.filter_eq_nil_iff.mpr (by simpa using hrest')
    rw [hparts, List.filter_append, List.filter_append, hnone, hnone', List.nil_append,
      List.append_nil]
    refine List.filter_eq_self.mpr fun other hother => ?_
    simpa using crash.reviewerParts_phase (List.mem_map_of_mem hother)
  have hparts' : crash.reviewerParts performed = [⟨crash.panel.reviewRole, run, performed run⟩] := by
    unfold reviewerParts
    rw [hrun]
    rfl
  unfold disk
  rw [hfilter, hparts', List.flatMap_singleton, heffects]

/-! ## The resumed round -/

variable {env' : CouncilEnv}

theorem resumed_eq : crash.resumed env' =
    runPanel env' crash.options crash.input crash.panel (some crash.disk) := by
  unfold resumed runCouncilRound
  exact if_neg (by simp [disk, createRecovery])

def again (env' : CouncilEnv) (spec : RoleSpec) : RoleRun :=
  tryRunRole env' crash.options crash.env.ids.councilRun spec (some crash.disk)

theorem again_saved {result : ConcludedRole} (h : (spec.roleId, some result) ∈ crash.concluded)
    (hvalid : validate spec result.execution.result crash.disk.reviewFile = .ok reviews) :
    crash.again env' spec =
      { outcome := .ok (some { execution := result.execution, reviews }) } := by
  obtain ⟨entry, hget, hexecution⟩ := Option.bind_eq_some_iff.mp (crash.concluded_entry h)
  simp only [again, tryRunRole, hget]
  exact resumeRole_execution hexecution hvalid

theorem again_unsaved (h : (spec.roleId, none) ∈ crash.concluded)
    (hprepare : env'.prepare spec = .ok snapshot) (hattempts : 0 < spec.maxAttempts) :
    (∃ e, (crash.again env' spec).outcome = .error e) ∨ (crash.again env' spec).calls ≠ [] := by
  have hentry := crash.concluded_entry h
  simp only [again, tryRunRole]
  cases hget : Record.get spec.roleId crash.disk.file.roles with
  | none => exact .inr (startRole_calls hprepare hattempts)
  | some entry =>
      rw [hget] at hentry
      exact resumeRole_calls hentry hattempts

theorem begun_leaves (spec : RoleSpec) : Leaves crash.env spec none (crash.begun spec) :=
  startRole_leaves

theorem validate_ne (h : spec.phase ≠ .review) (result : AgentExecutionResult)
    (file : ReviewReading) : validate spec result file = .ok none := by
  unfold validate
  rw [if_neg h]

theorem again_proposer {result : ConcludedRole}
    (houtcome : (crash.begun (proposalSpec crash.input p)).outcome = .ok (some result))
    (h : (CouncilPanel.proposalRole p, some result) ∈ crash.concluded) :
    crash.again env' (proposalSpec crash.input p) = { outcome := .ok (some result) } := by
  have hphase : (proposalSpec crash.input p).phase ≠ .review := fun h => by cases h
  have hrole : ((proposalSpec crash.input p).roleId, some result) ∈ crash.concluded := h
  have hreviews := (crash.begun_leaves _).reviews result houtcome
  rw [validate_ne hphase] at hreviews
  cases hreviews' : result.reviews with
  | some parsed =>
      rw [hreviews'] at hreviews
      cases hreviews
  | none =>
      rw [crash.again_saved hrole (validate_ne hphase _ _), ← hreviews']

theorem resumed_proposing : (crash.resumed env').proposing =
    (pendingProposers crash.input crash.panel).map fun p =>
      (p, crash.again env' (proposalSpec crash.input p)) := by
  rw [resumed_eq, runPanel_proposing]
  rfl

def ProposersSaved : Prop :=
  ∀ p ∈ pendingProposers crash.input crash.panel, ∃ result,
    (crash.begun (proposalSpec crash.input p)).outcome = .ok (some result) ∧
      (CouncilPanel.proposalRole p, some result) ∈ crash.concluded

variable {crash}

theorem ProposersSaved.executions (h : crash.ProposersSaved) :
    proposalExecutions (runProposers env' crash.options crash.input crash.panel
      (some crash.disk)) = crash.executions := by
  unfold Crash.executions
  rw [first_proposing]
  refine proposalExecutions_congr fun p hp => ?_
  obtain ⟨result, houtcome, hconcluded⟩ := h p hp
  have hagain : crash.again env' (proposalSpec crash.input p) = { outcome := .ok (some result) } :=
    crash.again_proposer houtcome hconcluded
  exact (congrArg RoleRun.outcome hagain).trans houtcome.symm

theorem generate_again (h : crash.executions = .ok concluded)
    (hrecorded : crash.recorded = crash.first.generated.getD []) :
    generateProposals env' (some crash.disk) concluded =
      generateProposals crash.env none concluded := by
  have hgenerated : crash.recorded = generateProposals crash.env none concluded := by
    rw [hrecorded, crash.first_generated h]
    rfl
  have hkeys : (generateProposals crash.env none concluded).map Prod.fst =
      (concluded.map Prod.fst).map (·.participantId) := by
    unfold generateProposals
    rw [List.map_map, List.map_map]
    rfl
  have hdistinct : Record.Distinct (generateProposals crash.env none concluded) := by
    have hsub := (proposalExecutions_eq_ok h).2
    rw [crash.first_proposing, List.map_map] at hsub
    unfold Record.Distinct Rows.Distinct
    rw [hkeys]
    refine crash.pending_distinct.sublist ((hsub.map _).trans ?_)
    exact (List.map_id _ ▸ List.Sublist.refl _)
  unfold generateProposals
  refine List.map_congr_left fun entry hentry => ?_
  have hget : Record.get entry.1.participantId crash.disk.file.proposals =
      some (recordedProposal crash.env none entry.1 entry.2) := by
    have hproposals : crash.disk.file.proposals = Record.ofEntries crash.recorded := rfl
    rw [hproposals, hgenerated, hdistinct.ofEntries]
    exact hdistinct.get_of_mem (List.mem_map_of_mem hentry)
  have hagain : recordedProposal env' (some crash.disk) entry.1 entry.2 =
      recordedProposal crash.env none entry.1 entry.2 := by
    unfold recordedProposal at hget ⊢
    simp only [Option.bind_some, hget]
    rfl
  rw [hagain]

theorem later_executions (h : part ∈ crash.parts) (hphase : part.role.phase ≠ .proposal) :
    ∃ concluded, crash.executions = .ok concluded := by
  rcases crash.mem_parts h with ⟨_, hpart⟩ | ⟨_, hpart⟩ | ⟨_, hpart⟩
  · exact absurd (crash.proposerParts_phase (List.mem_map_of_mem hpart)) hphase
  · obtain ⟨run, hrun, _⟩ := crash.mem_reviewerParts.mp hpart
    obtain ⟨concluded, hconcluded, _⟩ := crash.first_review.mp hrun
    exact ⟨concluded, hconcluded⟩
  · obtain ⟨run, hrun, _⟩ := crash.mem_synthesizerParts.mp hpart
    obtain ⟨concluded, hconcluded, _⟩ := crash.first_synthesis.mp hrun
    exact ⟨concluded, hconcluded⟩

theorem later_saved (h : part ∈ crash.parts) (hphase : part.role.phase ≠ .proposal)
    (hproposers : ∀ p ∈ pendingProposers crash.input crash.panel,
      (CouncilPanel.proposalRole p, none) ∉ crash.concluded) : crash.ProposersSaved := by
  intro p hp
  obtain ⟨concluded, hconcluded⟩ := later_executions h hphase
  have hall := (proposalExecutions_eq_ok hconcluded).1
  rw [crash.first_proposing] at hall
  obtain ⟨result, houtcome⟩ := hall _ (List.mem_map_of_mem hp)
  have hmem := crash.later_proposers h hphase hp houtcome
  cases result with
  | none => exact absurd hmem (hproposers p hp)
  | some found => exact ⟨found, houtcome, hmem⟩

theorem resumed_proposals (h : part ∈ crash.parts) (hphase : part.role.phase ≠ .proposal)
    (hsaved : crash.ProposersSaved) (hconcluded : crash.executions = .ok concluded)
    (env' : CouncilEnv) :
    proposalExecutions (runProposers env' crash.options crash.input crash.panel
        (some crash.disk)) = .ok concluded ∧
      proposalsOf env' crash.input (some crash.disk) concluded =
        proposalsOf crash.env crash.input none concluded ∧
      (crash.resumed env').proposals = crash.first.proposals := by
  obtain ⟨_, _, _, _, hrecorded, _⟩ := crash.later_parts h hphase
  have hexecutions : proposalExecutions (runProposers env' crash.options crash.input crash.panel
      (some crash.disk)) = .ok concluded := hsaved.executions.trans hconcluded
  have hgenerated : generateProposals env' (some crash.disk) concluded =
      generateProposals crash.env none concluded := generate_again hconcluded hrecorded
  refine ⟨hexecutions, ?_, ?_⟩
  · unfold proposalsOf
    rw [hgenerated]
  · unfold RoundRun.proposals
    rw [resumed_eq, runPanel_generated hexecutions, crash.first_generated hconcluded, hgenerated]

theorem again_reviewer {result : ConcludedRole}
    (h : (crash.panel.reviewRole, some result) ∈ crash.concluded)
    (hconcluded : crash.executions = .ok concluded) :
    crash.again env' (reviewSpec crash.panel (proposalsOf crash.env crash.input none concluded)) =
      { outcome := .ok (some result) } := by
  obtain ⟨run, hrun, houtcome, hfile⟩ := crash.disk_reviewFile h
  obtain ⟨concluded', hconcluded', rfl⟩ := crash.first_review.mp hrun
  obtain rfl : concluded = concluded' := by
    rw [hconcluded] at hconcluded'
    exact Except.ok.inj hconcluded'
  have hvalid := (crash.begun_leaves _).reviews result houtcome
  rw [← hfile] at hvalid
  have hrole : ((reviewSpec crash.panel (proposalsOf crash.env crash.input none concluded)).roleId,
      some result) ∈ crash.concluded := h
  exact crash.again_saved hrole hvalid

theorem concluded_begun (h : (role, result) ∈ crash.concluded) :
    ∃ part ∈ crash.parts, part.role = role := by
  obtain ⟨part, hpart, hrole, _⟩ := crash.concluded_part h
  exact ⟨part, hpart, hrole⟩

theorem calls_again {result : ConcludedRole} (h : (spec.roleId, some result) ∈ crash.concluded)
    (hphase : spec.phase ≠ .review) :
    (crash.again env' spec).calls = [] := by
  rw [crash.again_saved h (validate_ne hphase _ _)]
  rfl

theorem keeps_of_saved (hsaved : ∀ role, (role, none) ∉ crash.concluded) (env' : CouncilEnv) :
    crash.Keeps env' where
  quiet role result hmem run hrun := by
    obtain ⟨found, rfl⟩ : ∃ found, result = some found := by
      cases result with
      | none => exact absurd hmem (hsaved role)
      | some found => exact ⟨found, rfl⟩
    unfold RoundRun.roles at hrun
    rcases List.mem_append.mp hrun with hrun | hrun
    · rcases List.mem_append.mp hrun with hrun | hrun
      · rw [resumed_proposing, List.map_map] at hrun
        obtain ⟨p, hp, hpair⟩ := List.mem_map.mp hrun
        cases hpair
        have hrole : ((proposalSpec crash.input p).roleId, some found) ∈ crash.concluded := hmem
        exact calls_again hrole fun h => by cases h
      · obtain ⟨run', hrun', hpair⟩ := List.mem_map.mp hrun
        cases hpair
        obtain ⟨part, hpart, hrole⟩ := concluded_begun hmem
        have hphase : part.role.phase ≠ .proposal := by
          rw [hrole]
          exact fun h => by cases h
        have hproposers := later_saved hpart hphase fun p _ => hsaved _
        obtain ⟨concluded, hconcluded⟩ := later_executions hpart hphase
        obtain ⟨hexecutions, hproposals, _⟩ := resumed_proposals hpart hphase hproposers hconcluded
          env'
        rw [resumed_eq, Option.mem_toList, runPanel_review] at hrun'
        obtain ⟨concluded', hconcluded', rfl⟩ := hrun'
        obtain rfl : concluded = concluded' := by
          rw [hexecutions] at hconcluded'
          exact Except.ok.inj hconcluded'
        rw [hproposals]
        exact congrArg RoleRun.calls (again_reviewer hmem hconcluded)
    · obtain ⟨run', hrun', hpair⟩ := List.mem_map.mp hrun
      cases hpair
      rw [resumed_eq, Option.mem_toList, runPanel_synthesis] at hrun'
      obtain ⟨concluded, _, reviewer, _, reviews, _, rfl⟩ := hrun'
      have hrole : ((synthesisSpec crash.input crash.panel
          (proposalsOf env' crash.input (some crash.disk) concluded) reviews).roleId, some found) ∈
            crash.concluded := hmem
      exact calls_again hrole fun h => by cases h
  proposals role result hmem hphase := by
    obtain ⟨part, hpart, rfl⟩ := concluded_begun hmem
    have hproposers := later_saved hpart hphase fun p _ => hsaved _
    obtain ⟨concluded, hconcluded⟩ := later_executions hpart hphase
    exact (resumed_proposals hpart hphase hproposers hconcluded env').2.2
  survives role hmem := absurd hmem (hsaved role)

/-! ## A role that had ended without a result -/

def preparedHost (ids : CouncilIds) : CouncilEnv where
  prepare _ := .ok []
  behave _ := { ending := .inactive }
  ids

theorem Keeps.saved (h : crash.Keeps env')
    (hrun : (spec.roleId, crash.again env' spec) ∈ (crash.resumed env').roles crash.panel)
    (hprepare : env'.prepare spec = .ok snapshot) (hattempts : 0 < spec.maxAttempts) :
    (spec.roleId, none) ∉ crash.concluded := by
  intro hmem
  rcases crash.again_unsaved hmem hprepare hattempts with ⟨e, he⟩ | hcalls
  · exact h.survives _ hmem _ hrun e he
  · exact hcalls (h.quiet _ _ hmem _ hrun)

theorem acceptReviews_host {panel : CouncilPanel} {proposals : List Proposal}
    {reviewer : Option ConcludedRole} {env : CouncilEnv} {reviews : List Review}
    (h : acceptReviews env panel proposals reviewer = .ok reviews) (env' : CouncilEnv) :
    ∃ reviews', acceptReviews env' panel proposals reviewer = .ok reviews' := by
  cases haccept : acceptReviews env' panel proposals reviewer with
  | ok reviews' => exact ⟨reviews', rfl⟩
  | error error =>
      obtain ⟨failure, hfailure, _⟩ := acceptReviews_error haccept
      unfold acceptReviews at h
      rw [hfailure] at h
      cases h

theorem Keeps.proposers (h : crash.Keeps (preparedHost crash.env.ids))
    (hp : p ∈ pendingProposers crash.input crash.panel) :
    (CouncilPanel.proposalRole p, none) ∉ crash.concluded := by
  have hrun : ((proposalSpec crash.input p).roleId,
      crash.again (preparedHost crash.env.ids) (proposalSpec crash.input p)) ∈
        (crash.resumed (preparedHost crash.env.ids)).roles crash.panel := by
    unfold RoundRun.roles
    refine List.mem_append_left _ (List.mem_append_left _ ?_)
    rw [resumed_proposing, List.map_map]
    exact List.mem_map_of_mem hp
  exact h.saved hrun rfl Nat.zero_lt_two

theorem Keeps.reviewer (h : crash.Keeps (preparedHost crash.env.ids)) :
    (crash.panel.reviewRole, none) ∉ crash.concluded := by
  intro hmem
  obtain ⟨part, hpart, hrole⟩ := concluded_begun hmem
  have hphase : part.role.phase ≠ .proposal := by
    rw [hrole]
    exact fun h => by cases h
  have hproposers := later_saved hpart hphase fun p hp => h.proposers hp
  obtain ⟨concluded, hconcluded⟩ := later_executions hpart hphase
  obtain ⟨hexecutions, hproposals, _⟩ := resumed_proposals hpart hphase hproposers hconcluded
    (preparedHost crash.env.ids)
  have hrun : ((reviewSpec crash.panel (proposalsOf crash.env crash.input none concluded)).roleId,
      crash.again (preparedHost crash.env.ids)
        (reviewSpec crash.panel (proposalsOf crash.env crash.input none concluded))) ∈
        (crash.resumed (preparedHost crash.env.ids)).roles crash.panel := by
    unfold RoundRun.roles
    refine List.mem_append_left _ (List.mem_append_right _ (List.mem_map.mpr ⟨_, ?_, rfl⟩))
    rw [Option.mem_toList, resumed_eq, runPanel_review]
    exact ⟨concluded, hexecutions, hproposals ▸ rfl⟩
  exact h.saved hrun rfl Nat.zero_lt_two hmem

theorem Keeps.synthesizer (h : crash.Keeps (preparedHost crash.env.ids)) :
    (crash.panel.synthesisRole, none) ∉ crash.concluded := by
  intro hmem
  obtain ⟨part, hpart, hrole⟩ := concluded_begun hmem
  have hphase : part.role.phase = .synthesis := by
    rw [hrole]
    rfl
  have hlater : part.role.phase ≠ .proposal := by
    rw [hphase]
    decide
  have hproposers := later_saved hpart hlater fun p hp => h.proposers hp
  -- the first process got past its reviewer, so the resumed one does
  obtain ⟨run, hrun⟩ : ∃ run, crash.first.synthesis = some run := by
    rcases crash.mem_parts hpart with ⟨_, hother⟩ | ⟨_, hother⟩ | ⟨_, hother⟩
    · exact absurd (crash.proposerParts_phase (List.mem_map_of_mem hother)) hlater
    · have hreview := crash.reviewerParts_phase (List.mem_map_of_mem hother)
      rw [hphase] at hreview
      cases hreview
    · obtain ⟨run, hrun, _⟩ := crash.mem_synthesizerParts.mp hother
      exact ⟨run, hrun⟩
  obtain ⟨concluded, hconcluded, reviewer, hreviewer, reviews, hreviews, _⟩ :=
    crash.first_synthesis.mp hrun
  obtain ⟨hexecutions, hproposals, _⟩ := resumed_proposals hpart hlater hproposers hconcluded
    (preparedHost crash.env.ids)
  have hreview := crash.later_reviewer hpart hphase
    (crash.first_review.mpr ⟨concluded, hconcluded, rfl⟩) hreviewer
  cases reviewer with
  | none => exact h.reviewer hreview
  | some result =>
      obtain ⟨reviews', hreviews'⟩ := acceptReviews_host hreviews (preparedHost crash.env.ids)
      have hsame : (crash.again (preparedHost crash.env.ids) (reviewSpec crash.panel
          (proposalsOf crash.env crash.input none concluded))).outcome = .ok (some result) :=
        congrArg RoleRun.outcome (again_reviewer hreview hconcluded)
      have hagain : ((synthesisSpec crash.input crash.panel
          (proposalsOf crash.env crash.input none concluded) reviews').roleId,
          crash.again (preparedHost crash.env.ids) (synthesisSpec crash.input crash.panel
            (proposalsOf crash.env crash.input none concluded) reviews')) ∈
          (crash.resumed (preparedHost crash.env.ids)).roles crash.panel := by
        unfold RoundRun.roles
        refine List.mem_append_right _ (List.mem_map.mpr ⟨_, ?_, rfl⟩)
        rw [Option.mem_toList, resumed_eq, runPanel_synthesis]
        refine ⟨concluded, hexecutions, ?_⟩
        rw [hproposals]
        exact ⟨some result, hsame, reviews', hreviews', rfl⟩
      have hattempts : 0 < (synthesisSpec crash.input crash.panel
          (proposalsOf crash.env crash.input none concluded) reviews').maxAttempts := by
        simp only [synthesisSpec]
        omega
      exact h.saved hagain rfl hattempts hmem

/-- Whatever the host of the resumed round does, the round keeps what was concluded, exactly when
no role had ended without a result at the crash. -/
theorem resume_keeps_iff (crash : Crash) :
    (∀ env', crash.Keeps env') ↔ ∀ role, (role, none) ∉ crash.concluded := by
  constructor
  · intro hkeeps role hmem
    have h := hkeeps (preparedHost crash.env.ids)
    obtain ⟨part, hpart, rfl⟩ := concluded_begun hmem
    rcases crash.mem_parts hpart with ⟨_, hother⟩ | ⟨_, hother⟩ | ⟨_, hother⟩
    · obtain ⟨p, hp, rfl⟩ := crash.mem_proposerParts.mp hother
      exact h.proposers hp hmem
    · obtain ⟨run, _, rfl⟩ := crash.mem_reviewerParts.mp hother
      exact h.reviewer hmem
    · obtain ⟨run, _, rfl⟩ := crash.mem_synthesizerParts.mp hother
      exact h.synthesizer hmem
  · exact fun hsaved env' => keeps_of_saved hsaved env'

end Crash

/-! ## A proposer that failed before its first turn -/

/-- The driver of `p0` is launched and breaks before a turn starts; the others deliver. -/
def brokenLaunch (process : String) : CouncilEnv where
  prepare _ := .ok []
  behave call :=
    if call.spec.participant.participantId = "p0" then
      { events := [⟨.promptDispatching, ""⟩]
        ending := .threw (.error "Error" "driver binary is missing" none) }
    else
      { events := [⟨.promptDispatching, ""⟩, ⟨.turnStarted, "session-b"⟩]
        ending := .returned (deliveredFile "session-b" call.spec.participant.participantId)
        reviewFile := approveAll call }
  ids := placeIds process

def fourSeatsPanel : CouncilPanel where
  participants :=
    [⟨"p0", .proposer, 0, "agent-a"⟩, ⟨"p1", .proposer, 1, "agent-b"⟩,
      ⟨"r0", .reviewer, 0, "agent-c"⟩, ⟨"s0", .synthesizer, 0, "agent-d"⟩]
  distinct := by decide
  seated seat h := by
    cases seat with
    | proposer => exact absurd rfl h
    | reviewer => exact ⟨⟨"r0", .reviewer, 0, "agent-c"⟩, by simp, rfl⟩
    | synthesizer => exact ⟨⟨"s0", .synthesizer, 0, "agent-d"⟩, by simp, rfl⟩

/-- The crash comes when the one proposal has been recorded. -/
def brokenLaunchCrash : Crash where
  env := brokenLaunch "first"
  options := {}
  input := fourSeats
  panel := fourSeatsPanel
  resolved := rfl
  point := .recording 1

/-- The first process goes on without the failed proposer; the next one fails the round for it. -/
theorem resume_fails_accepted_failure :
    brokenLaunchCrash.first.outcome.toOption.map (·.decision.verdict) = some .select ∧
      (brokenLaunchCrash.resumed (brokenLaunch "second")).outcome.toOption.isNone ∧
      ¬ brokenLaunchCrash.Keeps (brokenLaunch "second") := by
  have hfirst : brokenLaunchCrash.first.outcome.toOption.map (·.decision.verdict) =
      some .select := by
    decide +kernel
  have hresumed : (brokenLaunchCrash.resumed (brokenLaunch "second")).outcome.toOption.isNone := by
    decide +kernel
  have hconcluded : ∃ entry ∈ brokenLaunchCrash.concluded,
      entry.1 = ⟨"p0", .proposal⟩ ∧ entry.2.isNone := by
    have hany : (brokenLaunchCrash.concluded.any fun entry =>
        entry.1 = ⟨"p0", .proposal⟩ ∧ entry.2.isNone) = true := by
      decide +kernel
    simpa using hany
  have hfails : ∃ entry ∈ (brokenLaunchCrash.resumed (brokenLaunch "second")).roles
      brokenLaunchCrash.panel, entry.1 = ⟨"p0", .proposal⟩ ∧ entry.2.outcome.toOption.isNone := by
    have hany : (((brokenLaunchCrash.resumed (brokenLaunch "second")).roles
        brokenLaunchCrash.panel).any fun entry =>
          entry.1 = ⟨"p0", .proposal⟩ ∧ entry.2.outcome.toOption.isNone) = true := by
      decide +kernel
    simpa using hany
  refine ⟨hfirst, hresumed, fun hkeeps => ?_⟩
  obtain ⟨⟨role, result⟩, hmem, rfl, hnone⟩ := hconcluded
  obtain ⟨⟨role', run⟩, hrun, rfl, herror⟩ := hfails
  obtain rfl : result = none := Option.isNone_iff_eq_none.mp hnone
  cases houtcome : run.outcome with
  | ok concluded => simp [houtcome, Except.toOption] at herror
  | error e => exact hkeeps.survives _ hmem _ hrun e houtcome

end Newide.Council
