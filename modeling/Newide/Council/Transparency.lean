import Newide.Council.Round

/-!
# A round with a recovery file and the same round without one

The recovery watches the driver streams of a role, and it wants all
turns of the role in one session; the retries do not.  So a round
with a recovery key that is not interrupted ends as the round without
one exactly when no role of the latter, over its attempts, starts turns
in two sessions.
-/

namespace Newide.Council

open RoleRun DriverStreamEvent

/-! ## Sessions -/

def DriverStreamEvent.started (event : DriverStreamEvent) : List String :=
  if event.eventType = .turnStarted ∧ event.sessionId ≠ "" then [event.sessionId] else []

def startedSessions (events : List DriverStreamEvent) : List String := events.flatMap (·.started)

/-- No two of them differ. -/
def OneSession (sessions : List String) : Prop := ∀ s ∈ sessions, ∀ t ∈ sessions, s = t

instance (sessions : List String) : Decidable (OneSession sessions) :=
  inferInstanceAs (Decidable (∀ s ∈ sessions, ∀ t ∈ sessions, s = t))

variable {a : List String} {error : CouncilError} {reviewer : Option ConcludedRole}

theorem OneSession.append_left {b : List String} (h : OneSession (a ++ b)) : OneSession a :=
  fun s hs t ht => h s (List.mem_append_left _ hs) t (List.mem_append_left _ ht)

theorem oneSession_option (session : Option String) : OneSession session.toList := by
  cases session <;> simp [OneSession]

theorem OneSession.head_append (h : OneSession a) (b : List String) :
    OneSession (a.head?.toList ++ b) ↔ OneSession (a ++ b) := by
  cases a with
  | nil => rfl
  | cons first rest =>
      have hsame : ∀ s, s ∈ first :: rest ++ b ↔ s ∈ [first] ++ b := by
        intro s
        constructor
        · intro hs
          rcases List.mem_append.mp hs with hs | hs
          · exact List.mem_append_left _ (by simp [h s hs first List.mem_cons_self])
          · exact List.mem_append_right _ hs
        · intro hs
          rcases List.mem_append.mp hs with hs | hs
          · exact List.mem_append_left _ (by simp [List.mem_singleton.mp hs])
          · exact List.mem_append_right _ hs
      unfold OneSession
      simp only [hsame, List.head?_cons, Option.toList_some]

theorem head_head_append (a b : List String) : (a.head?.toList ++ b).head? = (a ++ b).head? := by
  cases a <;> rfl

section Watch

variable {role role' : CouncilRoleRecovery} {event : DriverStreamEvent}

theorem onDriverEvent_ignored (h : onDriverEvent role event = .ignored) : event.started = [] := by
  unfold onDriverEvent at h
  unfold started
  cases htype : event.eventType with
  | promptDispatching => simp
  | other name => simp
  | turnStarted =>
      by_cases hsession : event.sessionId = ""
      · simp [hsession]
      · simp only [htype, hsession, if_false] at h
        split at h <;> cases h

theorem onDriverEvent_saved (h : onDriverEvent role event = .saved role') :
    OneSession (role.sessionId.toList ++ event.started) ∧
      role'.sessionId = (role.sessionId.toList ++ event.started).head? := by
  unfold onDriverEvent at h
  unfold started
  cases htype : event.eventType with
  | promptDispatching =>
      rw [htype] at h
      cases h
      rw [if_neg (by simp), List.append_nil]
      exact ⟨oneSession_option _, by cases role.sessionId <;> rfl⟩
  | other name => simp [htype] at h
  | turnStarted =>
      by_cases hsession : event.sessionId = ""
      · simp [htype, hsession] at h
      · simp only [htype, hsession, if_false] at h
        rw [if_pos ⟨rfl, hsession⟩]
        cases hrole : role.sessionId with
        | none =>
            rw [hrole] at h
            cases h
            exact ⟨by simp [OneSession], rfl⟩
        | some known =>
            rw [hrole] at h
            by_cases hsame : known = event.sessionId
            · subst hsame
              simp only [Option.any_some, ne_eq, not_true_eq_false, decide_false, Bool.false_eq_true,
                if_false] at h
              cases h
              exact ⟨by simp [OneSession], rfl⟩
            · simp [hsame] at h

theorem onDriverEvent_refused (h : onDriverEvent role event = .refused) :
    ¬ OneSession (role.sessionId.toList ++ event.started) := by
  unfold onDriverEvent at h
  unfold started
  cases htype : event.eventType with
  | promptDispatching => simp [htype] at h
  | other name => simp [htype] at h
  | turnStarted =>
      by_cases hsession : event.sessionId = ""
      · simp [htype, hsession] at h
      · simp only [htype, hsession, if_false] at h
        rw [if_pos ⟨rfl, hsession⟩]
        cases hrole : role.sessionId with
        | none => simp [hrole] at h
        | some known =>
            intro hone
            have hsame : known = event.sessionId := hone known (by simp) event.sessionId (by simp)
            simp [hrole, hsame] at h

theorem watch_spec (events : List DriverStreamEvent) : ∀ role : CouncilRoleRecovery,
    ((watch role events).refused = false ↔
      OneSession (role.sessionId.toList ++ startedSessions events)) ∧
    (OneSession (role.sessionId.toList ++ startedSessions events) →
      (watch role events).role.sessionId =
        (role.sessionId.toList ++ startedSessions events).head?) := by
  induction events with
  | nil =>
      intro role
      have hnil : role.sessionId.toList ++ startedSessions [] = role.sessionId.toList :=
        List.append_nil _
      rw [hnil]
      refine ⟨iff_of_true rfl (oneSession_option _), fun _ => ?_⟩
      show role.sessionId = _
      cases role.sessionId <;> rfl
  | cons event rest ih =>
      intro role
      have hcons : startedSessions (event :: rest) = event.started ++ startedSessions rest := rfl
      rw [hcons, ← List.append_assoc]
      unfold watch
      cases hevent : onDriverEvent role event with
      | ignored =>
          rw [onDriverEvent_ignored hevent, List.append_nil]
          exact ih role
      | saved role' =>
          obtain ⟨hone, hsession⟩ := onDriverEvent_saved hevent
          have hrest := ih role'
          rw [hsession, hone.head_append, head_head_append] at hrest
          exact hrest
      | refused =>
          have hdiffer : ¬ OneSession (role.sessionId.toList ++ event.started ++
              startedSessions rest) :=
            fun hone => onDriverEvent_refused hevent hone.append_left
          exact ⟨iff_of_false (by simp) hdiffer, fun hone => absurd hone hdiffer⟩

end Watch

/-! ## A role -/

def RoleRun.sessions (env : CouncilEnv) (run : RoleRun) : List String :=
  run.calls.flatMap fun call => startedSessions (env.behave call).events

/-- The run ends as the plain one if the sessions do not differ, and fails the round otherwise. -/
structure RoleRun.TellsSame (sessions : List String) (plain run : RoleRun) : Prop where
  outcome : OneSession sessions → run.outcome = plain.outcome
  diagnostics : OneSession sessions → run.diagnostics = plain.diagnostics
  refused : ¬ OneSession sessions → run.outcome = .error differentSession

section Roles

variable {env : CouncilEnv} {options : CouncilOptions} {councilRunId : String}
  {snapshot : WorkspaceFileSnapshot} {remaining : Nat} {call : RoleCall}

theorem RoleRun.TellsSame.congr {sessions sessions' : List String} {plain run : RoleRun}
    (h : RoleRun.TellsSame sessions plain run) (hiff : OneSession sessions ↔ OneSession sessions') :
    RoleRun.TellsSame sessions' plain run where
  outcome hone := h.outcome (hiff.mpr hone)
  diagnostics hone := h.diagnostics (hiff.mpr hone)
  refused hdiffer := h.refused (mt hiff.mp hdiffer)

theorem RoleRun.TellsSame.after {sessions : List String} {plain run : RoleRun}
    (h : RoleRun.TellsSame sessions plain run) (effects effects' : List RoleEffect)
    (diagnostics : List String) :
    RoleRun.TellsSame sessions (plain.after effects diagnostics)
      (run.after effects' diagnostics) where
  outcome := h.outcome
  diagnostics hone := congrArg (diagnostics ++ ·) (h.diagnostics hone)
  refused := h.refused

theorem sessions_after_attempt (failure : CouncilRoleExecutionError) (diagnostics : List String)
    (run : RoleRun) :
    (run.after ([.dispatched call] ++ [.failed failure]) diagnostics).sessions env =
      startedSessions (env.behave call).events ++ run.sessions env := by
  simp [sessions, calls, List.filterMap_cons]

theorem attemptRole_ok : ∃ concluded,
    (attemptRole env options councilRunId snapshot remaining call none).outcome = .ok concluded := by
  induction remaining generalizing call with
  | zero => exact ⟨none, rfl⟩
  | succ remaining ih =>
      simp only [attemptRole, Option.map_none, Option.any_none, Bool.false_eq_true, if_false]
      cases settle env options councilRunId call with
      | ok concluded => exact ⟨some concluded, rfl⟩
      | error error =>
          simp only [after_outcome]
          split
          · exact ih
          · exact ⟨none, rfl⟩

theorem sessions_attemptRole : ∃ more,
    (attemptRole env options councilRunId snapshot (remaining + 1) call none).sessions env =
      startedSessions (env.behave call).events ++ more := by
  simp only [attemptRole, Option.map_none, Option.any_none, Bool.false_eq_true, if_false,
    Option.getD_none]
  cases settle env options councilRunId call with
  | ok concluded => exact ⟨[], by simp [sessions, calls]⟩
  | error error => exact ⟨_, by rw [sessions_after_attempt]⟩

theorem attemptRole_tellsSame (role : CouncilRoleRecovery) :
    RoleRun.TellsSame
      (role.sessionId.toList ++
        (attemptRole env options councilRunId snapshot remaining call none).sessions env)
      (attemptRole env options councilRunId snapshot remaining call none)
      (attemptRole env options councilRunId snapshot remaining call (some role)) := by
  induction remaining generalizing call role with
  | zero =>
      refine ⟨fun _ => rfl, fun _ => rfl, fun h => absurd ?_ h⟩
      exact (List.append_nil role.sessionId.toList).symm ▸ oneSession_option role.sessionId
  | succ remaining ih =>
      obtain ⟨hrefused, hsession⟩ := watch_spec (env.behave call).events role
      by_cases hone : OneSession (role.sessionId.toList ++
          startedSessions (env.behave call).events)
      · simp only [attemptRole, Option.map_none, Option.map_some, Option.any_none, Option.any_some,
          Bool.false_eq_true, if_false]
        rw [if_neg (by rw [hrefused.mpr hone]; exact Bool.false_ne_true)]
        cases settle env options councilRunId call with
        | ok concluded =>
            refine ⟨fun _ => rfl, fun _ => rfl, fun h => absurd ?_ h⟩
            simpa [sessions, calls] using hone
        | error error =>
            simp only [Option.getD_none]
            rw [sessions_after_attempt, ← List.append_assoc]
            -- the rest of the recorded run starts from the one session of this attempt
            refine RoleRun.TellsSame.after (RoleRun.TellsSame.congr ?_ (hone.head_append _)) _ _ _
            rw [← hsession hone]
            split
            · exact ih _
            · refine ⟨fun _ => rfl, fun _ => rfl, fun h => absurd ?_ h⟩
              simpa [sessions, calls] using oneSession_option _
      · have hrefuses : (watch role (env.behave call).events).refused = true := by
          rw [← Bool.not_eq_false, hrefused]
          exact hone
        obtain ⟨more, hmore⟩ : ∃ more,
            (attemptRole env options councilRunId snapshot (remaining + 1) call none).sessions env =
              startedSessions (env.behave call).events ++ more := sessions_attemptRole
        have hdiffer : ¬ OneSession (role.sessionId.toList ++
            (attemptRole env options councilRunId snapshot (remaining + 1) call none).sessions
              env) := by
          rw [hmore, ← List.append_assoc]
          exact fun h => hone h.append_left
        refine ⟨fun h => absurd h hdiffer, fun h => absurd h hdiffer, fun _ => ?_⟩
        simp only [attemptRole, Option.map_some, Option.any_some]
        rw [if_pos hrefuses]

def freshDisk (env : CouncilEnv) (input : CouncilRoundInput) (panel : CouncilPanel) : CouncilDisk where
  file := createRecovery env input panel

variable {spec : RoleSpec} {input : CouncilRoundInput} {panel : CouncilPanel}

theorem tryRunRole_tellsSame :
    RoleRun.TellsSame ((tryRunRole env options councilRunId spec none).sessions env)
      (tryRunRole env options councilRunId spec none)
      (tryRunRole env options councilRunId spec (some (freshDisk env input panel))) := by
  have hfresh : Record.get spec.roleId (freshDisk env input panel).file.roles = none := rfl
  simp only [tryRunRole, hfresh, startRole]
  cases env.prepare spec with
  | error thrown =>
      refine ⟨fun _ => rfl, fun _ => rfl, fun h => absurd ?_ h⟩
      simp [sessions, calls, OneSession]
  | ok snapshot =>
      simp only [Bool.false_eq_true, if_false, if_true]
      have hattempts := @attemptRole_tellsSame env options councilRunId snapshot spec.maxAttempts
        (spec.firstCall none none) { driverDispatched := some false, workspaceBefore := snapshot }
      exact ⟨hattempts.outcome, hattempts.diagnostics, hattempts.refused⟩

theorem tryRunRole_ok : ∃ concluded,
    (tryRunRole env options councilRunId spec none).outcome = .ok concluded := by
  simp only [tryRunRole, startRole]
  cases env.prepare spec with
  | error thrown => exact ⟨none, rfl⟩
  | ok snapshot => exact attemptRole_ok

end Roles

/-! ## The round -/

def RoundRun.roleRuns (run : RoundRun) : List RoleRun :=
  run.proposing.map Prod.snd ++ run.review.toList ++ run.synthesis.toList

/-- In no role do the attempts start turns in two sessions. -/
def SessionsAgree (env : CouncilEnv) (run : RoundRun) : Prop :=
  ∀ role ∈ run.roleRuns, OneSession (role.sessions env)

/-- Two processes return the same proposals, reviews, selected artifacts and verdict, or fail with
the same error. -/
def RoundRun.Agrees (a b : RoundRun) : Prop :=
  match a.outcome, b.outcome with
  | .ok r, .ok r' => r.proposals = r'.proposals ∧ r.reviews = r'.reviews ∧
      r.selectedArtifactRefs = r'.selectedArtifactRefs ∧ r.decision.verdict = r'.decision.verdict
  | .error e, .error e' => e = e'
  | _, _ => False

theorem RoundRun.Agrees.of_outcome {a b : RoundRun} (h : a.outcome = b.outcome) : a.Agrees b := by
  unfold RoundRun.Agrees
  rw [h]
  cases b.outcome with
  | ok result => exact ⟨rfl, rfl, rfl, rfl⟩
  | error error => rfl

theorem RoundRun.not_agrees {a b : RoundRun} (ha : a.outcome = .error error)
    (hb : b.outcome ≠ .error error) : ¬ a.Agrees b := by
  unfold RoundRun.Agrees
  rw [ha]
  cases hb' : b.outcome with
  | ok result => exact id
  | error other =>
      intro hsame
      have hsame : error = other := hsame
      exact hb (hb'.trans (congrArg _ hsame.symm))

section Round

variable {env : CouncilEnv} {options : CouncilOptions} {input : CouncilRoundInput}
  {panel : CouncilPanel}

theorem proposalExecutions_map {plain recorded : CouncilParticipantBinding → RoleRun}
    {sessions : CouncilParticipantBinding → List String}
    {pending : List CouncilParticipantBinding}
    (hsame : ∀ p, RoleRun.TellsSame (sessions p) (plain p) (recorded p))
    (hok : ∀ p, ∃ concluded, (plain p).outcome = .ok concluded) :
    ((∀ p ∈ pending, OneSession (sessions p)) →
      proposalExecutions (pending.map fun p => (p, recorded p)) =
        proposalExecutions (pending.map fun p => (p, plain p))) ∧
    ((¬ ∀ p ∈ pending, OneSession (sessions p)) →
      proposalExecutions (pending.map fun p => (p, recorded p)) = .error differentSession) := by
  induction pending with
  | nil => exact ⟨fun _ => rfl, fun h => absurd (by simp) h⟩
  | cons p rest ih =>
      simp only [List.map_cons, proposalExecutions, List.forall_mem_cons, not_and]
      by_cases hone : OneSession (sessions p)
      · rw [(hsame p).outcome hone]
        obtain ⟨concluded, hconcluded⟩ := hok p
        rw [hconcluded]
        constructor
        · rintro ⟨_, hrest⟩
          rw [ih.1 hrest]
        · intro hrest
          rw [ih.2 (hrest hone)]
          cases concluded <;> rfl
      · rw [(hsame p).refused hone]
        exact ⟨fun h => absurd h.1 hone, fun _ => rfl⟩

theorem proposalExecutions_ok {runs : List (CouncilParticipantBinding × RoleRun)}
    (h : ∀ entry ∈ runs, ∃ concluded, entry.2.outcome = .ok concluded) :
    ∃ concluded, proposalExecutions runs = .ok concluded := by
  induction runs with
  | nil => exact ⟨[], rfl⟩
  | cons entry rest ih =>
      obtain ⟨concluded, hconcluded⟩ := h entry List.mem_cons_self
      obtain ⟨executed, hexecuted⟩ := ih fun other hother => h other (List.mem_cons_of_mem _ hother)
      simp only [proposalExecutions, hconcluded, hexecuted]
      cases concluded with
      | none => exact ⟨executed, rfl⟩
      | some role => exact ⟨_, rfl⟩

theorem buildReviews_ok {participant : CouncilParticipantBinding} {parsed : List ParsedReview}
    (hparsed : (reviewer.bind (·.reviews)).getD [] = parsed) {proposals : List Proposal}
    (hcovers : coversEveryProposal proposals (some parsed)) :
    ∃ reviews, buildReviews env participant reviewer proposals = .ok reviews := by
  subst hparsed
  induction proposals with
  | nil => exact ⟨[], rfl⟩
  | cons proposal rest ih =>
      simp only [coversEveryProposal, List.all_cons, Bool.and_eq_true, decide_eq_true_eq] at hcovers
      obtain ⟨hone, hrest⟩ := hcovers
      obtain ⟨reviews, hreviews⟩ := ih hrest
      have hfound : ∃ item, ((reviewer.bind (·.reviews)).getD []).find?
          (·.proposalId = proposal.proposalId) = some item := by
        rw [← Option.isSome_iff_exists, List.find?_isSome]
        have hne := List.ne_nil_of_length_eq_add_one hone
        obtain ⟨item, hitem⟩ := List.exists_mem_of_ne_nil _ hne
        exact ⟨item, List.mem_filter.mp hitem⟩
      obtain ⟨item, hitem⟩ := hfound
      simp only [buildReviews, hitem, hreviews]
      exact ⟨_, rfl⟩

theorem acceptReviews_error {proposals : List Proposal}
    (h : acceptReviews env panel proposals reviewer = .error error) :
    ∃ failure, reviewDeliveryFailure proposals panel.reviewer reviewer = some failure ∧
      error = .role (.execution failure) := by
  unfold acceptReviews at h
  cases hfailure : reviewDeliveryFailure proposals panel.reviewer reviewer with
  | some failure =>
      rw [hfailure] at h
      cases h
      exact ⟨failure, rfl, rfl⟩
  | none =>
      rw [hfailure] at h
      unfold reviewDeliveryFailure at hfailure
      have hbuilt : ∃ reviews, buildReviews env panel.reviewer reviewer proposals = .ok reviews := by
        by_cases hnil : proposals = []
        · subst hnil
          exact ⟨[], rfl⟩
        · rw [if_neg hnil] at hfailure
          cases reviewer with
          | none => simp at hfailure
          | some concluded =>
              cases hreviews : concluded.reviews with
              | none => simp [hreviews, coversEveryProposal] at hfailure
              | some parsed =>
                  have hcovers : coversEveryProposal proposals (some parsed) := by
                    by_contra hcovers
                    simp [hreviews, hcovers] at hfailure
                  exact buildReviews_ok (by simp [hreviews]) hcovers
      obtain ⟨reviews, hreviews⟩ := hbuilt
      rw [hreviews] at h
      cases h

/-- How a stage with a file that has just been created ends, by the sessions of its roles. -/
structure StageTells (sessions : Prop) (plain recorded : Except CouncilError CouncilRunResult) :
    Prop where
  same : sessions → recorded = plain
  refused : ¬ sessions → recorded = .error differentSession

variable {proposals : List Proposal} {executions : List CouncilRoleExecution}
  {diagnosticRefs : List String}

theorem synthesisStage_tells {reviews : List Review} :
    StageTells
      (OneSession ((synthesisStage env options input panel none proposals reviews executions
        diagnosticRefs).1.sessions env))
      (synthesisStage env options input panel none proposals reviews executions diagnosticRefs).2
      (synthesisStage env options input panel (some (freshDisk env input panel)) proposals reviews
        executions diagnosticRefs).2 := by
  have hrole : RoleRun.TellsSame _ _ _ := @tryRunRole_tellsSame env options env.ids.councilRun
    (synthesisSpec input panel proposals reviews) input panel
  simp only [synthesisStage, councilRunIdOf, freshDisk, createRecovery] at hrole ⊢
  constructor
  · intro hone
    rw [hrole.outcome hone, hrole.diagnostics hone]
    rfl
  · intro hdiffer
    rw [hrole.refused hdiffer]
    rfl

theorem reviewStage_review (recovery : Option CouncilDisk) :
    (reviewStage env options input panel recovery proposals executions diagnosticRefs).review =
      tryRunRole env options (councilRunIdOf env recovery) (reviewSpec panel proposals)
        recovery := by
  unfold reviewStage
  simp only
  split
  · rfl
  · split <;> rfl

theorem reviewStage_error
    (h : (reviewStage env options input panel none proposals executions diagnosticRefs).outcome =
      .error error) : ∃ failure, error = .role (.execution failure) := by
  obtain ⟨reviewer, hreviewer⟩ := @tryRunRole_ok env options (councilRunIdOf env none)
    (reviewSpec panel proposals)
  simp only [reviewStage, hreviewer] at h
  cases haccept : acceptReviews env panel proposals reviewer with
  | error other =>
      rw [haccept] at h
      cases h
      obtain ⟨failure, _, hfailure⟩ := acceptReviews_error haccept
      exact ⟨failure, hfailure⟩
  | ok reviews =>
      obtain ⟨synthesizer, hsynthesizer⟩ := @tryRunRole_ok env options (councilRunIdOf env none)
        (synthesisSpec input panel proposals reviews)
      simp only [haccept, synthesisStage, hsynthesizer] at h
      cases h

theorem reviewStage_tells :
    StageTells
      (∀ role ∈ (reviewStage env options input panel none proposals executions
          diagnosticRefs).review :: (reviewStage env options input panel none proposals executions
          diagnosticRefs).synthesis.toList, OneSession (role.sessions env))
      (reviewStage env options input panel none proposals executions diagnosticRefs).outcome
      (reviewStage env options input panel (some (freshDisk env input panel)) proposals executions
        diagnosticRefs).outcome := by
  have hrole : RoleRun.TellsSame _ _ _ := @tryRunRole_tellsSame env options env.ids.councilRun
    (reviewSpec panel proposals) input panel
  have hplain : councilRunIdOf env none = env.ids.councilRun := rfl
  have hfresh : councilRunIdOf env (some (freshDisk env input panel)) = env.ids.councilRun := rfl
  by_cases hone : OneSession ((tryRunRole env options env.ids.councilRun
      (reviewSpec panel proposals) none).sessions env)
  · obtain ⟨reviewer, hok⟩ := @tryRunRole_ok env options env.ids.councilRun
      (reviewSpec panel proposals)
    simp only [reviewStage, hplain, hfresh, hrole.outcome hone, hrole.diagnostics hone, hok]
    cases haccept : acceptReviews env panel proposals reviewer with
    | error error => exact ⟨fun _ => rfl, fun h => absurd (by simpa using hone) h⟩
    | ok reviews =>
        simp only [List.forall_mem_cons, Option.toList_some, hone, true_and, List.not_mem_nil,
          false_implies, implies_true, and_true]
        exact synthesisStage_tells
  · have hrefused : (reviewStage env options input panel (some (freshDisk env input panel))
        proposals executions diagnosticRefs).outcome = .error differentSession := by
      simp only [reviewStage, hfresh, hrole.refused hone]
    refine ⟨fun h => ?_, fun _ => hrefused⟩
    have hreview := h _ List.mem_cons_self
    rw [reviewStage_review] at hreview
    exact absurd hreview hone

theorem runPanel_tells :
    StageTells (SessionsAgree env (runPanel env options input panel none))
      (runPanel env options input panel none).outcome
      (runPanel env options input panel (some (freshDisk env input panel))).outcome := by
  have hsame : ∀ p, RoleRun.TellsSame _ _ _ := fun p => @tryRunRole_tellsSame env options
    env.ids.councilRun (proposalSpec input p) input panel
  obtain ⟨hequal, hrefused⟩ := @proposalExecutions_map _ _ _ (pendingProposers input panel) hsame
    (fun p => tryRunRole_ok)
  have hplain : runProposers env options input panel none = (pendingProposers input panel).map
      fun p => (p, tryRunRole env options env.ids.councilRun (proposalSpec input p) none) := rfl
  have hfresh : runProposers env options input panel (some (freshDisk env input panel)) =
      (pendingProposers input panel).map fun p => (p, tryRunRole env options env.ids.councilRun
        (proposalSpec input p) (some (freshDisk env input panel))) := rfl
  obtain ⟨concluded, hconcluded⟩ : ∃ concluded,
      proposalExecutions (runProposers env options input panel none) = .ok concluded := by
    refine proposalExecutions_ok ?_
    rw [hplain]
    simp only [List.forall_mem_map]
    exact fun p _ => tryRunRole_ok
  have hroles : (runPanel env options input panel none).proposing =
      runProposers env options input panel none := by
    simp only [runPanel, hconcluded]
  by_cases hone : ∀ p ∈ pendingProposers input panel, OneSession ((tryRunRole env options
      env.ids.councilRun (proposalSpec input p) none).sessions env)
  · have hrecorded : proposalExecutions (runProposers env options input panel
        (some (freshDisk env input panel))) = .ok concluded := by
      rw [hfresh, hequal hone, ← hplain, hconcluded]
    have hdiagnostics : (runProposers env options input panel
          (some (freshDisk env input panel))).flatMap (·.2.diagnostics) =
        (runProposers env options input panel none).flatMap (·.2.diagnostics) := by
      rw [hplain, hfresh, List.flatMap_map, List.flatMap_map]
      exact List.flatMap_congr fun p hp => (hsame p).diagnostics (hone p hp)
    have hgenerated : generateProposals env (some (freshDisk env input panel)) concluded =
        generateProposals env none concluded := rfl
    have hproposing : ∀ role ∈ (runProposers env options input panel none).map Prod.snd,
        OneSession (role.sessions env) := by
      rw [hplain, List.map_map, List.forall_mem_map]
      exact hone
    have hstage := @reviewStage_tells env options input panel
      (input.proposals ++ (generateProposals env none concluded).map Prod.snd)
      (concluded.map (·.2.execution))
      ((runProposers env options input panel none).flatMap (·.2.diagnostics))
    have hagree : SessionsAgree env (runPanel env options input panel none) ↔
        ∀ role ∈ (reviewStage env options input panel none
            (input.proposals ++ (generateProposals env none concluded).map Prod.snd)
            (concluded.map (·.2.execution)) ((runProposers env options input panel none).flatMap
              (·.2.diagnostics))).review ::
          (reviewStage env options input panel none
            (input.proposals ++ (generateProposals env none concluded).map Prod.snd)
            (concluded.map (·.2.execution)) ((runProposers env options input panel none).flatMap
              (·.2.diagnostics))).synthesis.toList, OneSession (role.sessions env) := by
      unfold SessionsAgree RoundRun.roleRuns
      simp only [runPanel, hconcluded, List.append_assoc]
      rw [List.forall_mem_append]
      exact and_iff_right hproposing
    rw [hagree]
    simp only [runPanel, hconcluded, hrecorded, hdiagnostics, hgenerated]
    exact hstage
  · refine ⟨fun h => absurd ?_ hone, fun _ => ?_⟩
    · intro p hp
      refine h _ (List.mem_append_left _ (List.mem_append_left _ ?_))
      rw [hroles, hplain, List.map_map]
      exact List.mem_map_of_mem hp
    · simp only [runPanel, hfresh, hrefused hone]

theorem runPanel_error (h : (runPanel env options input panel none).outcome = .error error) :
    ∃ failure, error = .role (.execution failure) := by
  obtain ⟨concluded, hconcluded⟩ : ∃ concluded,
      proposalExecutions (runProposers env options input panel none) = .ok concluded := by
    refine proposalExecutions_ok ?_
    unfold runProposers
    simp only [List.forall_mem_map]
    exact fun p _ => tryRunRole_ok
  simp only [runPanel, hconcluded] at h
  exact reviewStage_error h

end Round

/-! ## A driver that starts over in a new session -/

def fourSeats : CouncilRoundInput where
  taskId := "task"
  participants := some
    [⟨"p0", .proposer, 0, "agent-a"⟩, ⟨"p1", .proposer, 1, "agent-b"⟩,
      ⟨"r0", .reviewer, 0, "agent-c"⟩, ⟨"s0", .synthesizer, 0, "agent-d"⟩]

/-- A completed execution that delivers one file. -/
def deliveredFile (sessionId artifactId : String) : AgentExecutionResult where
  agentRunId := "run-" ++ artifactId
  agentId := none
  driverRunResultId := "driver-" ++ artifactId
  artifactRefs := [⟨artifactId, some { kind := .file, targetPath := some "src/main.ts" }⟩]
  sessionId
  report := { summary := "done" }
  status := .completed

def placeIds (process : String) : CouncilIds where
  councilRun := "council-" ++ process
  phase role attempt := process ++ "-" ++ role.participantId ++ "-" ++ toString attempt
  proposal participantId := "proposal-" ++ process ++ "-" ++ participantId
  review proposalId := "review-" ++ proposalId
  synthesis := "synthesis-" ++ process
  decision := "decision-" ++ process

def approveAll (call : RoleCall) : ReviewReading :=
  .ok (some (call.spec.proposals.map fun proposal =>
    ⟨proposal.proposalId, .approve, "good", [], []⟩))

/-- The first attempt of `p0` starts a turn and then the transport breaks, which the facade throws
with `retryable: true`; the next attempt has no session to go on with. -/
def brokenTransport : CouncilEnv where
  prepare _ := .ok []
  behave call :=
    if call.spec.participant.participantId = "p0" ∧ call.attempt = 1 then
      { events := [⟨.promptDispatching, ""⟩, ⟨.turnStarted, "session-a"⟩]
        ending := .threw (.error "Error" "transport closed" (some true)) }
    else
      { events := [⟨.promptDispatching, ""⟩, ⟨.turnStarted, "session-b"⟩]
        ending := .returned (deliveredFile "session-b" call.spec.participant.participantId)
        reviewFile := approveAll call }
  ids := placeIds "first"

end Newide.Council
