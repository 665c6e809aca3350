import Newide.Foundation.Runs
import Newide.Memory.PersonaHistory
import Newide.Memory.PersonaStrategy

/-!
# Evolved once from an input

Workers claim roles, judge what they claimed and conclude, while claims
run out, fail and are retried and a user rolls Personas back; the Skills
and Experiences of every role stay as they are.  The channel remembers
an evolution in one marker.  As long as no role is claimed whose marker
has lost it, no second version is evolved from the same input.
-/

namespace Newide.Memory

open DefaultPersonaEvolutionStrategy

open Fallible Statement PersonaRepository ClaimedPersonaEvolutionCandidate History

/-! ## Runs -/

/-- What does not change in a run. -/
structure EvolutionSetup where
  runtime : PersonaRuntime
  skills : String → List SkillRecord
  experiences : String → List ExperienceRecord

open EvolutionSetup

/-- A call of `claimNextPersonaEvolutionCandidate` at one role. -/
structure EvolutionClaim where
  roleId : String
  strategy : DefaultPersonaEvolutionStrategy
  approval : PersonaEvolutionApprovalMode
  owner : String
  now : Time
  leaseMs : Int
  policy : DeliveryRetryPolicy := defaultPersonaEvolutionRetryPolicy
  claimToken : String

structure EvolutionWorker where
  candidate : ClaimedPersonaEvolutionCandidate
  strategy : DefaultPersonaEvolutionStrategy
  approval : PersonaEvolutionApprovalMode
  owner : String

structure EvolutionState where
  repo : PersonaRepository
  workers : List EvolutionWorker := []

inductive EvolutionLabel where
  | claim (claim : EvolutionClaim)
  /-- A worker judges its candidate and concludes it. -/
  | conclude (worker : Nat) (sourceRunId reviewedBy : String) (now : Timestamp)
  | fail (request : PersonaEvolutionFailureRequest)
  | restore (roleId : String) (now : Time) (policy : DeliveryRetryPolicy)
  | retry (roleId : String) (now : Time)
  | rollback (request : PersonaRollbackRequest)

namespace EvolutionClaim

def request (claim : EvolutionClaim) : PersonaEvolutionClaimRequest where
  owner := claim.owner
  now := claim.now
  leaseMs := claim.leaseMs
  strategyVersion := claim.strategy.version
  approval := claim.approval
  policy := claim.policy

end EvolutionClaim

def EvolutionWorker.completionRequest (worker : EvolutionWorker) (runtime : PersonaRuntime)
    (sourceRunId reviewedBy : String) (now : Timestamp) :
    Except PersonaEvolutionViolation PersonaEvolutionCompletionRequest :=
  worker.candidate.completionRequest runtime (some worker.owner) worker.strategy
    { approval := worker.approval, sourceRunId, reviewedBy, now }

namespace EvolutionSetup

variable (setup : EvolutionSetup)

def snapshot (roleId : String) : PersonaEvolutionInputSnapshot :=
  buildPersonaEvolutionSnapshot setup.runtime roleId (setup.skills roleId)
    (setup.experiences roleId)

/-- The current `input_snapshot_hash` of a role. -/
def inputHash (roleId : String) : String :=
  setup.runtime.inputSnapshotHash roleId (setup.skills roleId) (setup.experiences roleId)

def claim (claim : EvolutionClaim) :
    RepositoryStatement (Option ClaimedPersonaEvolutionCandidate) :=
  claimPersonaEvolutionSync setup.runtime (setup.skills claim.roleId)
    (setup.experiences claim.roleId) claim.roleId claim.request claim.claimToken

def next (s : EvolutionState) : EvolutionLabel → EvolutionState
  | .claim claim =>
      match setup.claim claim s.repo with
      | (.ok (some candidate), repo) =>
          { repo
            workers := s.workers ++ [{ candidate, strategy := claim.strategy,
                                       approval := claim.approval, owner := claim.owner }] }
      | (_, repo) => { s with repo }
  | .conclude i sourceRunId reviewedBy now =>
      match s.workers[i]? with
      | none => s
      | some worker =>
          match worker.completionRequest setup.runtime sourceRunId reviewedBy now with
          | .error _ => s
          | .ok request => { s with repo := (completePersonaEvolution request s.repo).2 }
  | .fail request => { s with repo := (failPersonaEvolution request s.repo).2 }
  | .restore roleId now policy =>
      { s with repo := (restoreExpiredPersonaEvolutionClaim roleId now policy s.repo).2 }
  | .retry roleId now => { s with repo := (retryDeadLetterPersonaEvolution roleId now s.repo).2 }
  | .rollback request => { s with repo := (rollbackPersona request s.repo).2 }

end EvolutionSetup

/-! ## What a run must not forget -/

/-- The version was written by an evolution from the input with this digest. -/
def PersonaVersionRecord.EvolvedFrom (row : PersonaVersionRecord) (hash : String) : Prop :=
  row.source = .evolution ∧ row.inputSnapshotHash = some hash

instance (row : PersonaVersionRecord) (hash : String) : Decidable (row.EvolvedFrom hash) :=
  inferInstanceAs (Decidable (_ ∧ _))

/-- Some version of the history was evolved from the input with this digest. -/
def AgentStore.HasEvolved (store : AgentStore) (hash : String) : Prop :=
  ∃ version row, store.personaVersions version = some row ∧ row.EvolvedFrom hash

/-- A claim takes the role: its marker can be claimed once it was reset or taken back. -/
def EvolutionClaim.Takes (claim : EvolutionClaim) (marker : Option PersonaEvolutionMarker)
    (hash : String) : Prop :=
  ∃ ready ∈ (planPersonaEvolutionCandidate marker (claim.request.candidateInput hash)).marker
      claim.policy claim.now,
    isDeliveryDue ready claim.now ∧ ready.attemptCount < claim.policy.maxAttempts

namespace EvolutionSetup

/-- A role is claimed for an evolution that its marker no longer tells was made: a version was
evolved from its input, the marker does not say so, the current Persona is not what the input
gives, and nothing about the input keeps it from being evolved and approved. -/
def Forgets (setup : EvolutionSetup) (s : EvolutionState) : EvolutionLabel → Prop
  | .claim claim =>
      ∃ store, s.repo.agents claim.roleId = some store ∧
        store.HasEvolved (setup.inputHash claim.roleId) ∧
        (¬ ∃ last ∈ personaEvolutionLastRun store.personaEvolution,
          last.EvolvedFrom (setup.inputHash claim.roleId)) ∧
        ¬ (buildSkillsOverview (setup.snapshot claim.roleId).skills =
            store.persona.skillsOverview ∧
          buildExperienceCoverage setup.runtime (setup.snapshot claim.roleId).experiences =
            store.persona.experienceCoverage) ∧
        claim.strategy.inputBlocks setup.runtime claim.roleId (setup.snapshot claim.roleId) = [] ∧
        claim.approval = .autoApprove ∧
        claim.Takes store.personaEvolution (setup.inputHash claim.roleId)
  | _ => False

end EvolutionSetup

/-! ## What a step does to the repository -/

variable {store : AgentStore} {allowed : AgentStore → PersonaDef → PersonaVersionRecord → Prop}
  {now : Timestamp} {reviewedBy sourceRunId : String} {worker : EvolutionWorker}

section Steps

variable {repo next : PersonaRepository} {roleId : String}

/-- A method that only writes the marker. -/
abbrev Marks (roleId : String) (repo next : PersonaRepository) : Prop :=
  PersonaFiling (fun _ _ _ => False) roleId repo next

theorem setPersonaEvolution_marks (hstore : repo.agents roleId = some store)
    (marker : Option PersonaEvolutionMarker) :
    Marks roleId repo (repo.assign roleId fun store =>
      { store with personaEvolution := marker }) := by
  rw [assign_of_store hstore]
  exact .marked hstore marker

theorem movePersonaEvolution_marks
    {move : PersonaEvolutionMarker → Option PersonaEvolutionMarker}
    {r : Except String (Option PersonaEvolutionMarker)}
    (h : movePersonaEvolution roleId move repo = (r, next)) : Marks roleId repo next := by
  unfold movePersonaEvolution at h
  rcases read_chain.mp h with ⟨found, hfound, h⟩ | ⟨e, he, _⟩
  case inr => cases he
  obtain rfl := Except.ok.inj hfound
  cases hstore : repo.agents roleId with
  | none =>
      rw [hstore] at h
      obtain ⟨_, rfl⟩ := done_eq.mp h
      exact .same
  | some store =>
      rw [hstore] at h
      dsimp only at h
      cases hmoved : store.personaEvolution.bind move with
      | none =>
          rw [hmoved] at h
          obtain ⟨_, rfl⟩ := done_eq.mp h
          exact .same
      | some moved =>
          simp only [hmoved, setPersonaEvolution, update_chain] at h
          obtain ⟨_, rfl⟩ := done_eq.mp h
          exact setPersonaEvolution_marks hstore _

/-- What a claim hands out was read off the role it took. -/
structure EvolutionSetup.HandsOut (setup : EvolutionSetup) (repo : PersonaRepository)
    (claim : EvolutionClaim) (candidate : ClaimedPersonaEvolutionCandidate) : Prop where
  roleId : candidate.roleId = claim.roleId
  snapshot : candidate.snapshot = setup.snapshot claim.roleId
  hash : candidate.inputSnapshotHash = setup.inputHash claim.roleId
  store : ∃ store, repo.agents claim.roleId = some store ∧ candidate.persona = store.persona ∧
    candidate.lastEvolution = personaEvolutionLastRun store.personaEvolution ∧
    claim.Takes store.personaEvolution (setup.inputHash claim.roleId)

theorem claim_marks {setup : EvolutionSetup} {claim : EvolutionClaim}
    {r : Except String (Option ClaimedPersonaEvolutionCandidate)}
    (h : setup.claim claim repo = (r, next)) :
    Marks claim.roleId repo next ∧
      ∀ candidate, r = .ok (some candidate) → setup.HandsOut repo claim candidate := by
  unfold EvolutionSetup.claim claimPersonaEvolutionSync at h
  rcases read_chain.mp h with ⟨found, hfound, h⟩ | ⟨e, he, _⟩
  case inr => cases he
  obtain rfl := Except.ok.inj hfound
  cases hstore : repo.agents claim.roleId with
  | none =>
      rw [hstore] at h
      obtain ⟨rfl, rfl⟩ := done_eq.mp h
      refine ⟨.same, fun candidate hcandidate => ?_⟩
      cases hcandidate
  | some store =>
      rw [hstore] at h
      dsimp only at h
      cases hready : (planPersonaEvolutionCandidate store.personaEvolution
          (claim.request.candidateInput (setup.inputHash claim.roleId))).marker
            claim.request.policy claim.request.now with
      | none =>
          rw [inputHash] at hready
          rw [hready] at h
          obtain ⟨rfl, rfl⟩ := done_eq.mp h
          refine ⟨.same, fun candidate hcandidate => ?_⟩
          cases hcandidate
      | some ready =>
          have hplan := hready
          rw [inputHash] at hready
          rw [hready] at h
          rcases lift_chain.mp h with ⟨claimed, hclaimed, h⟩ | ⟨e, _, rfl, hthrown⟩
          case inr =>
            refine ⟨.same, fun candidate hcandidate => ?_⟩
            rw [hthrown] at hcandidate
            cases hcandidate
          cases claimed with
          | none =>
              dsimp only at h
              rcases branch_eq.mp h with ⟨_, h⟩ | ⟨_, h⟩
              · simp only [setPersonaEvolution, update_chain] at h
                obtain ⟨rfl, rfl⟩ := done_eq.mp h
                refine ⟨setPersonaEvolution_marks hstore _, fun candidate hcandidate => ?_⟩
                cases hcandidate
              · obtain ⟨rfl, rfl⟩ := done_eq.mp h
                refine ⟨.same, fun candidate hcandidate => ?_⟩
                cases hcandidate
          | some claimed =>
              simp only [setPersonaEvolution, update_chain] at h
              obtain ⟨rfl, rfl⟩ := done_eq.mp h
              refine ⟨setPersonaEvolution_marks hstore _, fun candidate hcandidate => ?_⟩
              cases hcandidate
              obtain ⟨hdue, hleft, _, _⟩ := claimDeliveryRecord_eq_some hclaimed
              exact ⟨rfl, rfl, rfl, store, hstore, rfl, rfl, ready, hplan, hdue, hleft⟩

end Steps

/-! ## What a run keeps -/

/-- At most one version of the history was evolved from the input with this digest. -/
def AgentStore.EvolvedOnce (store : AgentStore) (hash : String) : Prop :=
  ∀ v w row row', store.personaVersions v = some row → store.personaVersions w = some row' →
    row.EvolvedFrom hash → row'.EvolvedFrom hash → v = w

namespace EvolutionSetup

/-- A worker holds what it read off its role; unless the Persona has moved on, it will not evolve
the role again. -/
structure Holds (setup : EvolutionSetup) (repo : PersonaRepository) (worker : EvolutionWorker) :
    Prop where
  hash : worker.candidate.inputSnapshotHash = setup.inputHash worker.candidate.roleId
  store : ∃ store, repo.agents worker.candidate.roleId = some store ∧
    worker.candidate.persona.version ≤ store.persona.version ∧
    (worker.candidate.persona.version = store.persona.version →
      store.HasEvolved (setup.inputHash worker.candidate.roleId) →
        (worker.strategy.evaluate setup.runtime
          (worker.candidate.evaluationInput worker.approval)).verdict ≠ .eligible)

structure Remembers (setup : EvolutionSetup) (s : EvolutionState) : Prop where
  current : s.repo.Current
  once : ∀ roleId store, s.repo.agents roleId = some store →
    store.EvolvedOnce (setup.inputHash roleId)
  workers : ∀ worker ∈ s.workers, setup.Holds s.repo worker

variable {setup : EvolutionSetup} {s : EvolutionState} {repo next : PersonaRepository}
  {roleId : String}

theorem Holds.filing (h : setup.Holds repo worker)
    (hfiling : PersonaFiling allowed roleId repo next) : setup.Holds next worker := by
  obtain ⟨store, hstore, hle, hquiet⟩ := h.store
  refine ⟨h.hash, ?_⟩
  by_cases hrole : worker.candidate.roleId = roleId
  · cases hfiling with
    | same => exact h.store
    | @marked before hbefore marker =>
        rw [hrole] at hstore
        obtain rfl := Option.some.inj (hbefore.symm.trans hstore)
        exact ⟨_, (congrArg _ hrole).trans setAgent_self, hle, hquiet⟩
    | @filed before persona record hbefore marker _ _ hraised _ =>
        rw [hrole] at hstore
        obtain rfl := Option.some.inj (hbefore.symm.trans hstore)
        have hlt := lt_of_le_of_lt hle hraised
        refine ⟨_, (congrArg _ hrole).trans setAgent_self, le_of_lt hlt, ?_⟩
        exact fun heq => absurd heq (ne_of_lt hlt)
  · refine ⟨store, ?_, hle, hquiet⟩
    cases hfiling with
    | same => exact hstore
    | marked | filed => exact (setAgent_ne hrole).trans hstore

theorem evolvedOnce_filed {persona : PersonaDef} {record : PersonaVersionRecord} {hash : String}
    (h : store.EvolvedOnce hash) (hnew : record.EvolvedFrom hash → ¬ store.HasEvolved hash)
    (marker : Option PersonaEvolutionMarker) :
    (store.filed persona record marker).EvolvedOnce hash := by
  intro v w row row' hrow hrow' hfrom hfrom'
  by_cases hv : v = record.personaVersion
  · subst hv
    obtain rfl := Option.some.inj ((file_self (ι := Int)).symm.trans hrow)
    by_cases hw : w = record.personaVersion
    · exact hw.symm
    · exact absurd ⟨w, row', (file_ne hw).symm.trans hrow', hfrom'⟩ (hnew hfrom)
  · have hold := (file_ne hv).symm.trans hrow
    by_cases hw : w = record.personaVersion
    · subst hw
      obtain rfl := Option.some.inj ((file_self (ι := Int)).symm.trans hrow')
      exact absurd ⟨v, row, hold, hfrom⟩ (hnew hfrom')
    · exact h v w row row' hold ((file_ne hw).symm.trans hrow') hfrom hfrom'

theorem Remembers.filing (h : setup.Remembers s)
    (hfiling : PersonaFiling allowed roleId s.repo next)
    (hnew : ∀ store persona record, s.repo.agents roleId = some store →
      allowed store persona record → record.EvolvedFrom (setup.inputHash roleId) →
        ¬ store.HasEvolved (setup.inputHash roleId)) :
    setup.Remembers { s with repo := next } := by
  refine ⟨hfiling.effect.current h.current, fun role store hstore => ?_,
    fun worker hworker => (h.workers worker hworker).filing hfiling⟩
  by_cases hrole : role = roleId
  · cases hfiling with
    | same => exact h.once role store hstore
    | @marked before hbefore marker =>
        subst hrole
        obtain rfl := Option.some.inj (setAgent_self.symm.trans hstore)
        exact h.once role before hbefore
    | @filed before persona record hbefore marker _ _ _ hallowed =>
        subst hrole
        obtain rfl := Option.some.inj (setAgent_self.symm.trans hstore)
        exact evolvedOnce_filed (h.once role before hbefore)
          (hnew before persona record hbefore hallowed) marker
  · cases hfiling with
    | same => exact h.once role store hstore
    | marked | filed =>
        exact h.once role store ((setAgent_ne hrole).symm.trans hstore)

theorem Remembers.marks (h : setup.Remembers s) (hmarks : Marks roleId s.repo next) :
    setup.Remembers { s with repo := next } :=
  h.filing hmarks fun _ _ _ _ hfalse => hfalse.elim

/-! ### Claims and conclusions -/

theorem HandsOut.holds {claim : EvolutionClaim} {candidate : ClaimedPersonaEvolutionCandidate}
    (h : setup.HandsOut s.repo claim candidate) (hgood : ¬ setup.Forgets s (.claim claim)) :
    setup.Holds s.repo
      { candidate, strategy := claim.strategy, approval := claim.approval,
        owner := claim.owner } := by
  obtain ⟨store, hstore, hpersona, hlast, htakes⟩ := h.store
  have hhash : candidate.inputSnapshotHash = setup.inputHash candidate.roleId := by
    rw [h.hash, h.roleId]
  refine ⟨hhash, store, (congrArg _ h.roleId).trans hstore,
    le_of_eq (congrArg PersonaDef.version hpersona), fun _ hevolved heligible => ?_⟩
  obtain ⟨hblocks, hforgotten, hcontent, happroval⟩ :=
    evaluate_eligible heligible
  rw [personaContentMatches_draft] at hcontent
  simp only [evaluationInput, hlast, h.hash, h.snapshot,
    hpersona, h.roleId] at hblocks hforgotten hcontent happroval hevolved
  exact hgood ⟨store, hstore, hevolved, hforgotten, hcontent, hblocks, happroval, htakes⟩

/-- What a worker concludes is about the candidate it holds, and evolves it only where the
strategy finds it eligible. -/
theorem completionRequest_concludes {request : PersonaEvolutionCompletionRequest}
    (h : worker.completionRequest setup.runtime sourceRunId reviewedBy now = .ok request) :
    request.roleId = worker.candidate.roleId ∧
      request.parentVersion = worker.candidate.persona.version ∧
      request.inputSnapshotHash = worker.candidate.inputSnapshotHash ∧
      (request.outcome = .evolved → (worker.strategy.evaluate setup.runtime
        (worker.candidate.evaluationInput worker.approval)).verdict = .eligible) := by
  simp only [EvolutionWorker.completionRequest, completionRequest,
    bind_eq_ok] at h
  obtain ⟨_, _, h⟩ := h
  cases hverdict : (worker.strategy.evaluate setup.runtime
      (worker.candidate.evaluationInput worker.approval)).verdict with
  | rejected =>
      rw [hverdict] at h
      cases h
      exact ⟨rfl, rfl, rfl, fun h => (by cases h)⟩
  | pendingReview =>
      rw [hverdict] at h
      cases h
      exact ⟨rfl, rfl, rfl, fun h => (by cases h)⟩
  | eligible =>
      rw [hverdict] at h
      cases h
      exact ⟨rfl, rfl, rfl, fun _ => rfl⟩

theorem Remembers.conclude (h : setup.Remembers s) (hworker : worker ∈ s.workers)
    {request : PersonaEvolutionCompletionRequest}
    (hrequest : worker.completionRequest setup.runtime sourceRunId reviewedBy now = .ok request) :
    setup.Remembers { s with repo := (completePersonaEvolution request s.repo).2 } := by
  obtain ⟨hrole, hparent, hhash, heligible⟩ := completionRequest_concludes hrequest
  have hfiling : PersonaFiling request.Files request.roleId s.repo
      (completePersonaEvolution request s.repo).2 :=
    (completePersonaEvolution_filing h.current rfl).1
  refine h.filing hfiling fun store persona record hstore hfiles _ hevolved => ?_
  obtain ⟨held, hheld, _, hquiet⟩ := (h.workers worker hworker).store
  rw [hrole] at hstore hevolved
  obtain rfl := Option.some.inj (hheld.symm.trans hstore)
  have hversion : worker.candidate.persona.version = held.persona.version := by
    rw [hfiles.parent, hparent]
  exact hquiet hversion hevolved (heligible hfiles.outcome)

theorem Remembers.claim (h : setup.Remembers s) {claim : EvolutionClaim}
    (hgood : ¬ setup.Forgets s (.claim claim)) : setup.Remembers (setup.next s (.claim claim)) := by
  rcases hcall : setup.claim claim s.repo with ⟨r, repo⟩
  obtain ⟨hmarks, hhands⟩ := claim_marks hcall
  have hkept := h.marks hmarks
  simp only [next, hcall]
  split
  · next candidate after heq =>
      obtain ⟨rfl, rfl⟩ := Prod.mk.inj heq
      refine ⟨hkept.current, hkept.once, fun worker hworker => ?_⟩
      rcases List.mem_append.mp hworker with hold | hnew
      · exact hkept.workers worker hold
      · obtain rfl := List.mem_singleton.mp hnew
        exact ((hhands candidate rfl).holds hgood).filing hmarks
  · next heq =>
      obtain ⟨-, rfl⟩ := Prod.mk.inj heq
      exact hkept

theorem Remembers.step (h : setup.Remembers s) (label : EvolutionLabel)
    (hgood : ¬ setup.Forgets s label) : setup.Remembers (setup.next s label) := by
  cases label with
  | claim claim => exact h.claim hgood
  | conclude i sourceRunId reviewedBy now =>
      simp only [next]
      cases hworker : s.workers[i]? with
      | none => exact h
      | some worker =>
          dsimp only
          cases hrequest : worker.completionRequest setup.runtime sourceRunId reviewedBy now with
          | error violation => exact h
          | ok request => exact h.conclude (List.mem_of_getElem? hworker) hrequest
  | fail request => exact h.marks (movePersonaEvolution_marks rfl)
  | restore roleId now policy => exact h.marks (movePersonaEvolution_marks rfl)
  | retry roleId now => exact h.marks (movePersonaEvolution_marks rfl)
  | rollback request =>
      have hfiling : PersonaFiling (fun _ _ record => record.source = .rollback) request.roleId
          s.repo (rollbackPersona request s.repo).2 :=
        (rollbackPersona_filing h.current rfl).1
      refine h.filing hfiling fun store persona record _ hsource hfrom _ => ?_
      exact absurd (hsource.symm.trans hfrom.1) (by decide)

theorem remembers_start (calls : List PersonaCall)
    (hnew : ∀ roleId store, (calls.foldl step {}).agents roleId = some store →
      ¬ store.HasEvolved (setup.inputHash roleId)) :
    setup.Remembers { repo := calls.foldl step {} } := by
  refine ⟨current_empty.run calls, fun roleId store hstore => ?_,
    fun _ hworker => ?_⟩
  · intro v w row row' hrow _ hfrom _
    exact absurd ⟨v, row, hrow, hfrom⟩ (hnew roleId store hstore)
  · cases hworker

/-- From any state in which nothing was evolved from the current inputs, in every run that claims
no role whose marker has lost an evolution from its input, each history holds at most one version
evolved from it. -/
theorem evolved_once (setup : EvolutionSetup) (calls : List PersonaCall)
    (labels : List EvolutionLabel)
    (hnew : ∀ roleId store, (calls.foldl step {}).agents roleId = some store →
      ¬ store.HasEvolved (setup.inputHash roleId))
    (hforgets : ¬ Runs.Happened setup.next { repo := calls.foldl step {} } labels
      fun s label _ => setup.Forgets s label) :
    ∀ roleId store, (labels.foldl setup.next
        { repo := calls.foldl step {} }).repo.agents roleId = some store →
      store.EvolvedOnce (setup.inputHash roleId) := by
  have hremembers := Runs.invariant_of_not_happened (I := setup.Remembers)
    (fun s label h hgood => h.step label hgood) (remembers_start calls hnew) hforgets
  exact hremembers.once

end EvolutionSetup

/-! ### A rollback between two new strategies -/

def exampleSkillOfCoder : SkillRecord where
  id := "skill-1"
  description := "Split a module."
  content := "Move one definition at a time."
  version := "1.0.0"
  reviewStatus := .approved
  tags := ["lean"]
  promotedFrom := none
  promotedAt := 0
  agentId := "coder"
  marketStatus := "available"
  reviewedBy := none
  reviewedAt := none
  createdAt := 0
  updatedAt := 0

def exampleSetup : EvolutionSetup where
  runtime :=
    { sha256 := fun snapshot => snapshot.roleId ++ toString snapshot.skills.length
      localeCompare := compare
      printed := toString
      toFixed2 := fun thousandths => toString (thousandths / 1000) }
  skills roleId := if roleId = "coder" then [exampleSkillOfCoder] else []
  experiences _ := []

/-- One agent, as it was created. -/
def exampleCalls : List PersonaCall := [.initializeAgent "coder" none "2026-01-01T00:00:00.000Z"]

def exampleTurn (version : String) (version_ne : version ≠ "") (worker : Nat) (now : Time) :
    List EvolutionLabel :=
  [.claim { roleId := "coder", strategy := { version, version_ne }, approval := .autoApprove,
            owner := "job", now, leaseMs := 1000, claimToken := version },
    .conclude worker "run" "system:auto-approval"
      { text := "2026-01-01T01:00:00.000Z", ms := now + 1 }]

def rollbackLabel : EvolutionLabel :=
  .rollback
    { roleId := "coder"
      targetVersion := 1
      expectedCurrentVersion := 2
      now := "2026-01-01T02:00:00.000Z" }

/-- An evolution is rolled back and the next strategy judges the same input. -/
def exampleLabels : List EvolutionLabel :=
  exampleTurn "v1" (by decide) 0 0 ++ rollbackLabel :: exampleTurn "v2" (by decide) 1 10

theorem exampleCalls_new (roleId : String) (store : AgentStore)
    (hstore : (exampleCalls.foldl step {}).agents roleId = some store) :
    ¬ store.HasEvolved (exampleSetup.inputHash roleId) := by
  rintro ⟨version, row, hrow, hsource, _⟩
  by_cases hrole : roleId = "coder"
  · obtain rfl := Option.some.inj ((if_pos hrole).symm.trans hstore)
    by_cases hversion : version = 1
    · obtain rfl := Option.some.inj ((if_pos hversion).symm.trans hrow)
      cases hsource
    · cases (if_neg hversion).symm.trans hrow
  · cases (if_neg hrole).symm.trans hstore

theorem EvolutionSetup.not_forgets_of_remembered {setup : EvolutionSetup} {s : EvolutionState}
    {claim : EvolutionClaim}
    (h : (s.repo.agents claim.roleId).all (fun store =>
      (personaEvolutionLastRun store.personaEvolution).any fun last =>
        last.EvolvedFrom (setup.inputHash claim.roleId)) = true) :
    ¬ setup.Forgets s (.claim claim) := by
  rintro ⟨store, hstore, _, hforgotten, _⟩
  rw [hstore] at h
  obtain ⟨last, hmem, hfrom⟩ := (Option.any_eq_true _ _).mp h
  exact hforgotten ⟨last, hmem, of_decide_eq_true hfrom⟩

/-- The second strategy is told of the evolution and turns the candidate down. -/
theorem evolved_once_of_two_strategies :
    ∃ store, (exampleLabels.foldl exampleSetup.next
        { repo := exampleCalls.foldl step {} }).repo.agents "coder" =
          some store ∧
      store.EvolvedOnce (exampleSetup.inputHash "coder") := by
  have hsome : ((exampleLabels.foldl exampleSetup.next
      { repo := exampleCalls.foldl step {} }).repo.agents "coder").isSome =
        true := by
    decide +kernel
  obtain ⟨store, hstore⟩ := Option.isSome_iff_exists.mp hsome
  refine ⟨store, hstore, ?_⟩
  refine evolved_once exampleSetup exampleCalls exampleLabels exampleCalls_new ?_
    "coder" store hstore
  simp only [exampleLabels, exampleTurn, List.cons_append, List.nil_append,
    Runs.happened_cons_iff, not_or]
  refine ⟨?_, id, id, ?_, id, Runs.not_happened_nil⟩
  · rintro ⟨store, hstore, hevolved, _⟩
    exact exampleCalls_new "coder" store hstore hevolved
  · refine not_forgets_of_remembered ?_
    decide +kernel

/-- A third strategy judges the input once more: only the second one's conclusion is left to tell,
and the evolution that was rolled back is written again. -/
theorem evolves_again_after_rollback :
    (∀ roleId store, (exampleCalls.foldl step {}).agents roleId = some store →
      ¬ store.HasEvolved (exampleSetup.inputHash roleId)) ∧
    ∃ store, ((exampleLabels ++ exampleTurn "v3" (by decide) 2 20).foldl exampleSetup.next
        { repo := exampleCalls.foldl step {} }).repo.agents "coder" =
          some store ∧
      ¬ store.EvolvedOnce (exampleSetup.inputHash "coder") := by
  have hrows : (((exampleLabels ++ exampleTurn "v3" (by decide) 2 20).foldl exampleSetup.next
      { repo := exampleCalls.foldl step {} }).repo.agents "coder").any
        (fun store => [2, 4].all fun version => (store.personaVersions version).any fun row =>
          row.EvolvedFrom (exampleSetup.inputHash "coder")) = true := by
    decide +kernel
  obtain ⟨store, hstore, hall⟩ := (Option.any_eq_true _ _).mp hrows
  refine ⟨exampleCalls_new, store, hstore, fun honce => ?_⟩
  simp only [List.all_cons, List.all_nil, Bool.and_true, Bool.and_eq_true] at hall
  obtain ⟨row, hrow, hfrom⟩ := (Option.any_eq_true _ _).mp hall.1
  obtain ⟨row', hrow', hfrom'⟩ := (Option.any_eq_true _ _).mp hall.2
  have heq := honce 2 4 row row' hrow hrow' (of_decide_eq_true hfrom) (of_decide_eq_true hfrom')
  exact absurd heq (by decide)

end Newide.Memory
