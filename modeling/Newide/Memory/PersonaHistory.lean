import Newide.Memory.PersonaRepository

/-!
# The Persona history is append-only

What one call can do to the repository is said once (`RepositoryEffect`);
from it, over every sequence of calls: the current version is the highest
of the history, its row is the current Persona, which is also the one in
the handle, and rows once filed stay.
-/

namespace Newide.Memory

open Fallible Statement

/-! ## What a call can do -/

/-- The store of `roleId` with one more version, which is the current one. -/
def AgentStore.filed (store : AgentStore) (persona : PersonaDef) (record : PersonaVersionRecord)
    (marker : Option PersonaEvolutionMarker) : AgentStore where
  persona := persona
  handlePersona := persona
  personaVersions := store.personaVersions.file record.personaVersion record
  personaEvolution := marker

inductive PersonaEffect (roleId : String) (store : AgentStore) : AgentStore → Prop where
  | marked (marker : Option PersonaEvolutionMarker) :
      PersonaEffect roleId store { store with personaEvolution := marker }
  | filed {persona : PersonaDef} {record : PersonaVersionRecord}
      (marker : Option PersonaEvolutionMarker) (hrow : record.Of persona)
      (hrole : persona.roleId = roleId) (hraised : store.persona.version < persona.version) :
      PersonaEffect roleId store (store.filed persona record marker)

inductive RepositoryEffect (repo : PersonaRepository) : PersonaRepository → Prop where
  | same : RepositoryEffect repo repo
  | opened {roleId : String} {persona : PersonaDef} {seed : PersonaVersionRecord}
      (hnew : repo.agents roleId = none) (hrow : seed.Of persona)
      (hrole : persona.roleId = roleId) :
      RepositoryEffect repo (repo.setAgent roleId
        { persona
          handlePersona := persona
          personaVersions := History.file (fun _ => none) persona.version seed })
  | wrote {roleId : String} {store next : AgentStore} (hstore : repo.agents roleId = some store)
      (he : PersonaEffect roleId store next) : RepositoryEffect repo (repo.setAgent roleId next)

/-- What a method that writes the marker or files one version does to the store of `roleId`; the
rows it may file are `allowed`. -/
inductive PersonaFiling (allowed : AgentStore → PersonaDef → PersonaVersionRecord → Prop)
    (roleId : String) (repo : PersonaRepository) : PersonaRepository → Prop where
  | same : PersonaFiling allowed roleId repo repo
  | marked {store : AgentStore} (hstore : repo.agents roleId = some store)
      (marker : Option PersonaEvolutionMarker) :
      PersonaFiling allowed roleId repo
        (repo.setAgent roleId { store with personaEvolution := marker })
  | filed {store : AgentStore} {persona : PersonaDef} {record : PersonaVersionRecord}
      (hstore : repo.agents roleId = some store) (marker : Option PersonaEvolutionMarker)
      (hrow : record.Of persona) (hrole : persona.roleId = roleId)
      (hraised : store.persona.version < persona.version)
      (hallowed : allowed store persona record) :
      PersonaFiling allowed roleId repo
        (repo.setAgent roleId (store.filed persona record marker))

theorem PersonaFiling.effect {allowed : AgentStore → PersonaDef → PersonaVersionRecord → Prop}
    {roleId : String} {repo next : PersonaRepository}
    (h : PersonaFiling allowed roleId repo next) : RepositoryEffect repo next := by
  cases h with
  | same => exact .same
  | marked hstore marker => exact .wrote hstore (.marked marker)
  | filed hstore marker hrow hrole hraised => exact .wrote hstore (.filed marker hrow hrole hraised)

/-- The row a completion files: an evolution of the version it was decided on, from its input. -/
structure PersonaEvolutionCompletionRequest.Files (request : PersonaEvolutionCompletionRequest)
    (store : AgentStore) (persona : PersonaDef) (record : PersonaVersionRecord) : Prop where
  outcome : request.outcome = .evolved
  parent : store.persona.version = request.parentVersion
  version : persona.version = request.parentVersion + 1
  source : record.source = .evolution
  input : record.inputSnapshotHash = some request.inputSnapshotHash

/-- The current version of every agent is the highest one, and both copies of it are its row. -/
structure AgentStore.Current (roleId : String) (store : AgentStore) : Prop where
  handle : store.handlePersona = store.persona
  row : ∃ row, store.personaVersions store.persona.version = some row ∧ row.persona = store.persona
  highest : store.personaVersions.Below store.persona.version
  rows : ∀ (version : Int) (row : PersonaVersionRecord), store.personaVersions version = some row →
    row.personaVersion = version ∧ row.Of row.persona ∧ row.persona.roleId = roleId

def PersonaRepository.Current (repo : PersonaRepository) : Prop :=
  ∀ (roleId : String) (store : AgentStore), repo.agents roleId = some store → store.Current roleId

variable {r : Except String PersonaEvolutionCompletionResult}

section Calls

variable {repo next : PersonaRepository} {roleId : String} {store : AgentStore}
  {persona : PersonaDef} {now : String}

theorem requireStore_ok :
    PersonaRepository.requireStore roleId repo = .ok store ↔ repo.agents roleId = some store :=
  orThrow_eq_ok

theorem assertPersonaRoleId_ok {u : Unit} :
    assertPersonaRoleId roleId persona = .ok u ↔ persona.roleId = roleId :=
  ensure_eq_ok

theorem initializeAgent_effect {seed : Option String} {r : Except String PUnit}
    (h : initializeAgent roleId seed now repo = (r, next)) :
    RepositoryEffect repo next ∧ ∀ e, r = .error e → next = repo := by
  unfold initializeAgent at h
  rcases read_chain.mp h with ⟨_, hnew, h⟩ | ⟨e, _, rfl, rfl⟩
  · rcases lift_chain.mp h with ⟨row, hrow, h⟩ | ⟨e, _, rfl, rfl⟩
    · rw [update_eq, Prod.mk.injEq] at h
      obtain ⟨rfl, rfl⟩ := h
      have hof : row.Of (createSeedPersona roleId seed now) := personaVersionRecord_of hrow
      exact ⟨.opened (ensure_eq_ok.mp hnew) hof rfl, nofun⟩
    · exact ⟨.same, fun _ _ => rfl⟩
  · exact ⟨.same, fun _ _ => rfl⟩

theorem savePersona_effect {r : Except String PUnit}
    (h : savePersona roleId persona now repo = (r, next)) :
    RepositoryEffect repo next ∧ ∀ e, r = .error e → next = repo := by
  unfold savePersona at h
  rcases read_chain.mp h with ⟨store, hstore, h⟩ | ⟨e, _, rfl, rfl⟩
  case inr => exact ⟨.same, fun _ _ => rfl⟩
  rcases lift_chain.mp h with ⟨_, hrole, h⟩ | ⟨e, _, rfl, rfl⟩
  case inr => exact ⟨.same, fun _ _ => rfl⟩
  rcases lift_chain.mp h with ⟨record, hrecord, h⟩ | ⟨e, _, rfl, rfl⟩
  case inr => exact ⟨.same, fun _ _ => rfl⟩
  have hof : record.Of persona := personaVersionRecord_of hrecord
  cases hresolution :
      resolvePersonaVersionAppend (store.personaVersions record.personaVersion) record with
  | conflict existing =>
      rw [hresolution] at h
      obtain ⟨rfl, rfl⟩ := lift_eq.mp h
      exact ⟨.same, fun _ _ => rfl⟩
  | identical =>
      rw [hresolution] at h
      obtain ⟨rfl, rfl⟩ := done_eq.mp h
      exact ⟨.same, nofun⟩
  | append =>
      rw [hresolution] at h
      rcases lift_chain.mp h with ⟨_, hraised, h⟩ | ⟨e, _, rfl, rfl⟩
      case inr => exact ⟨.same, fun _ _ => rfl⟩
      have hstore := requireStore_ok.mp hstore
      simp only [setPersona, setHandlePersona, setPersonaVersion, update_chain, update_eq,
        PersonaRepository.assign_of_store hstore, PersonaRepository.assign_setAgent] at h
      obtain ⟨rfl, rfl⟩ := h
      have hlt : store.persona.version < persona.version := by
        rw [← hof.personaVersion]
        exact ensure_eq_ok.mp hraised
      exact ⟨.wrote hstore
        (.filed store.personaEvolution hof (assertPersonaRoleId_ok.mp hrole) hlt), nofun⟩

variable {request : PersonaEvolutionCompletionRequest}

theorem writeEvolvedPersona_cases {settled : PersonaEvolutionMarker}
    (hstore : repo.agents request.roleId = some store) (hcurrent : store.Current request.roleId)
    (hversion : persona.version = request.parentVersion + 1)
    (h : writeEvolvedPersona store request persona settled repo = (r, next)) :
    (store.persona.version ≠ request.parentVersion ∧ next = repo ∧
      r = .ok (.parentConflict request.parentVersion store.persona.version)) ∨
    (store.persona.version = request.parentVersion ∧ r = .ok (.applied settled (some persona)) ∧
      ∃ record : PersonaVersionRecord, record.Of persona ∧ record.source = .evolution ∧
        record.inputSnapshotHash = some request.inputSnapshotHash ∧
        next = repo.setAgent request.roleId (store.filed persona record (some settled))) := by
  unfold writeEvolvedPersona resolvePersonaEvolutionWrite at h
  by_cases hparent : store.persona.version = request.parentVersion
  · rw [if_neg (not_not.mpr hparent)] at h
    rcases lift_chain.mp h with ⟨record, hrecord, h⟩ | ⟨e, he, _⟩
    · have hof : record.Of persona := personaVersionRecord_of hrecord
      have hfree : store.personaVersions record.personaVersion = none := by
        refine hcurrent.highest.free ?_
        rw [hof.personaVersion, hversion, hparent]
        exact Int.lt_succ _
      rw [resolvePersonaVersionAppend_eq_append.mpr hfree] at h
      simp only [if_pos, setPersona, setHandlePersona, setPersonaVersion, setPersonaEvolution,
        update_chain, PersonaRepository.assign_of_store hstore,
        PersonaRepository.assign_setAgent] at h
      obtain ⟨rfl, rfl⟩ := done_eq.mp h
      obtain ⟨hsource, hinput⟩ := personaVersionRecord_origin hrecord
      exact .inr ⟨hparent, rfl, record, hof, hsource, hinput, rfl⟩
    · obtain ⟨record, hrecord⟩ := personaVersionRecord_ok
        { persona, source := .evolution, createdAt := request.now.text
          parentVersion := some request.parentVersion, sourceRunId := some request.sourceRunId
          strategyVersion := some request.strategyVersion
          inputSnapshotHash := some request.inputSnapshotHash
          changeSummary := request.changeSummary, reviewedBy := request.reviewedBy }
      exact absurd (he.symm.trans hrecord) nofun
  · rw [if_pos hparent] at h
    obtain ⟨rfl, rfl⟩ := done_eq.mp h
    exact .inl ⟨hparent, rfl, rfl⟩

theorem evolvedPersona_eq_some :
    request.evolvedPersona = .ok (some persona) ↔
      request.outcome = .evolved ∧ request.persona = some persona ∧
        persona.roleId = request.roleId ∧ persona.version = request.parentVersion + 1 := by
  unfold PersonaEvolutionCompletionRequest.evolvedPersona
  by_cases hevolved : request.outcome = .evolved
  · rw [if_pos hevolved]
    simp only [bind_eq_ok, orThrow_eq_ok, assertPersonaRoleId_ok, ensure_eq_ok, pure_eq_ok]
    constructor
    · rintro ⟨found, hfound, _, hrole, _, hversion, heq⟩
      obtain rfl := Option.some.inj heq
      exact ⟨hevolved, hfound, hrole, hversion⟩
    · rintro ⟨_, hfound, hrole, hversion⟩
      exact ⟨persona, hfound, ⟨⟩, hrole, ⟨⟩, hversion, rfl⟩
  · rw [if_neg hevolved]
    constructor
    · intro h
      cases h
    · intro h
      exact absurd h.1 hevolved

theorem completePersonaEvolution_filing (hcurrent : repo.Current)
    (h : completePersonaEvolution request repo = (r, next)) :
    PersonaFiling request.Files request.roleId repo next ∧ ∀ e, r = .error e → next = repo := by
  unfold completePersonaEvolution at h
  rcases read_chain.mp h with ⟨found, hfound, h⟩ | ⟨e, he, _⟩
  case inr => cases he
  obtain rfl := Except.ok.inj hfound
  cases hstore : repo.agents request.roleId with
  | none =>
      rw [hstore] at h
      obtain ⟨rfl, rfl⟩ := done_eq.mp h
      exact ⟨.same, nofun⟩
  | some store =>
      rw [hstore] at h
      cases hmarker : store.personaEvolution with
      | none =>
          simp only [hmarker] at h
          obtain ⟨rfl, rfl⟩ := done_eq.mp h
          exact ⟨.same, nofun⟩
      | some marker =>
          simp only [hmarker] at h
          rcases lift_chain.mp h with ⟨evolved, hevolved, h⟩ | ⟨e, _, rfl, rfl⟩
          case inr => exact ⟨.same, fun _ _ => rfl⟩
          cases hsettled : completeDeliveryRecord (personaEvolutionSettlement marker request)
              request.holder none with
          | none =>
              rw [hsettled] at h
              obtain ⟨rfl, rfl⟩ := done_eq.mp h
              exact ⟨.same, nofun⟩
          | some settled =>
              rw [hsettled] at h
              cases evolved with
              | none =>
                  simp only [setPersonaEvolution, update_chain,
                    PersonaRepository.assign_of_store hstore] at h
                  obtain ⟨rfl, rfl⟩ := done_eq.mp h
                  exact ⟨.marked hstore (some settled), nofun⟩
              | some persona =>
                  obtain ⟨houtcome, _, hrole, hversion⟩ := evolvedPersona_eq_some.mp hevolved
                  have hcases := writeEvolvedPersona_cases hstore
                    (hcurrent _ store hstore) hversion h
                  rcases hcases with ⟨_, rfl, rfl⟩ |
                    ⟨hparent, rfl, record, hof, hsource, hinput, rfl⟩
                  · exact ⟨.same, nofun⟩
                  · have hlt : store.persona.version < persona.version := by
                      rw [hversion, hparent]
                      exact Int.lt_succ _
                    exact ⟨.filed hstore (some settled) hof hrole hlt
                      ⟨houtcome, hparent, hversion, hsource, hinput⟩, nofun⟩

theorem rollbackPersona_filing {request : PersonaRollbackRequest}
    {r : Except String PersonaRollbackResult} (hcurrent : repo.Current)
    (h : rollbackPersona request repo = (r, next)) :
    PersonaFiling (fun _ _ record => record.source = .rollback) request.roleId repo next ∧
      ∀ e, r = .error e → next = repo := by
  unfold rollbackPersona at h
  rcases read_chain.mp h with ⟨store, hstore, h⟩ | ⟨e, _, rfl, rfl⟩
  case inr => exact ⟨.same, fun _ _ => rfl⟩
  have hstore := requireStore_ok.mp hstore
  cases htarget : store.personaVersions request.targetVersion with
  | none =>
      simp only [htarget] at h
      obtain ⟨rfl, rfl⟩ := done_eq.mp h
      exact ⟨.same, nofun⟩
  | some target =>
      simp only [htarget] at h
      rcases lift_chain.mp h with ⟨_, _, h⟩ | ⟨e, _, rfl, rfl⟩
      case inr => exact ⟨.same, fun _ _ => rfl⟩
      rcases lift_chain.mp h with ⟨_, _, h⟩ | ⟨e, _, rfl, rfl⟩
      case inr => exact ⟨.same, fun _ _ => rfl⟩
      unfold resolvePersonaRollback at h
      by_cases hexpected : store.persona.version = request.expectedCurrentVersion
      · rw [if_neg (not_not.mpr hexpected)] at h
        rcases lift_chain.mp h with ⟨record, hrecord, h⟩ | ⟨e, _, rfl, rfl⟩
        case inr => exact ⟨.same, fun _ _ => rfl⟩
        have hof := personaVersionRecord_of hrecord
        have hlt : store.persona.version < record.personaVersion := by
          rw [hof.personaVersion]
          exact Int.lt_succ _
        have hfree := (hcurrent _ store hstore).highest.free hlt
        rw [resolvePersonaVersionAppend_eq_append.mpr hfree] at h
        simp only [if_pos, setPersona, setHandlePersona, setPersonaVersion, update_chain,
          PersonaRepository.assign_of_store hstore, PersonaRepository.assign_setAgent] at h
        obtain ⟨rfl, rfl⟩ := done_eq.mp h
        rw [hof.personaVersion] at hlt
        exact ⟨.filed hstore store.personaEvolution hof rfl hlt
          (personaVersionRecord_origin hrecord).1, nofun⟩
      · rw [if_pos hexpected] at h
        obtain ⟨rfl, rfl⟩ := done_eq.mp h
        exact ⟨.same, nofun⟩

theorem PersonaCall.effect {call : PersonaCall} {r : Except String PersonaAnswer}
    (hcurrent : repo.Current) (h : call.exec repo = (r, next)) :
    RepositoryEffect repo next ∧ ∀ e, r = .error e → next = repo := by
  cases call with
  | initializeAgent roleId seed now =>
      obtain ⟨r', hcall, herror⟩ := chain_done h
      obtain ⟨heffect, hthrow⟩ := initializeAgent_effect hcall
      exact ⟨heffect, fun e he => hthrow e (herror e he)⟩
  | savePersona roleId persona now =>
      obtain ⟨r', hcall, herror⟩ := chain_done h
      obtain ⟨heffect, hthrow⟩ := savePersona_effect hcall
      exact ⟨heffect, fun e he => hthrow e (herror e he)⟩
  | completePersonaEvolution request =>
      obtain ⟨r', hcall, herror⟩ := chain_done h
      obtain ⟨heffect, hthrow⟩ := completePersonaEvolution_filing hcurrent hcall
      exact ⟨heffect.effect, fun e he => hthrow e (herror e he)⟩
  | rollbackPersona request =>
      obtain ⟨r', hcall, herror⟩ := chain_done h
      obtain ⟨heffect, hthrow⟩ := rollbackPersona_filing hcurrent hcall
      exact ⟨heffect.effect, fun e he => hthrow e (herror e he)⟩
  | mark roleId marker =>
      simp only [PersonaCall.exec, setPersonaEvolution, update_chain] at h
      obtain ⟨rfl, rfl⟩ := done_eq.mp h
      cases hstore : repo.agents roleId with
      | none =>
          rw [PersonaRepository.assign_of_absent hstore]
          exact ⟨.same, nofun⟩
      | some store =>
          rw [PersonaRepository.assign_of_store hstore]
          exact ⟨.wrote hstore (.marked marker), nofun⟩

end Calls

/-! ## The current version is the highest -/

section Current

variable {repo next : PersonaRepository} {roleId : String} {store after : AgentStore}

theorem AgentStore.Current.effect (h : store.Current roleId)
    (he : PersonaEffect roleId store after) : after.Current roleId := by
  cases he with
  | marked marker => exact ⟨h.handle, h.row, h.highest, h.rows⟩
  | @filed persona record marker hof hrole hraised =>
      refine ⟨rfl, ⟨record, ?_, hof.body⟩, ?_, ?_⟩
      · show store.personaVersions.file record.personaVersion record persona.version = some record
        rw [hof.personaVersion, History.file_self]
      · show (store.personaVersions.file record.personaVersion record).Below persona.version
        rw [hof.personaVersion]
        exact h.highest.file hraised record
      · intro version row hrow
        by_cases heq : version = record.personaVersion
        · subst heq
          obtain rfl := Option.some.inj ((History.file_self (ι := Int)).symm.trans hrow)
          exact ⟨rfl, hof.body ▸ hof, hof.body ▸ hrole⟩
        · exact h.rows version row ((History.file_ne heq).symm.trans hrow)

theorem AgentStore.Current.seeded {persona : PersonaDef} {seed : PersonaVersionRecord}
    (hof : seed.Of persona) (hrole : persona.roleId = roleId) :
    AgentStore.Current roleId
      { persona
        handlePersona := persona
        personaVersions := History.file (fun _ => none) persona.version seed } := by
  have hrows : ∀ (version : Int) (row : PersonaVersionRecord),
      History.file (fun _ => none) persona.version seed version = some row →
        version = persona.version ∧ row = seed := by
    intro version row hrow
    by_cases heq : version = persona.version
    · subst heq
      exact ⟨rfl, (Option.some.inj ((History.file_self (ι := Int)).symm.trans hrow)).symm⟩
    · rw [History.file_ne heq] at hrow
      cases hrow
  refine ⟨rfl, ⟨seed, if_pos rfl, hof.body⟩, ?_, ?_⟩
  · intro version row hrow
    exact le_of_eq (hrows version row hrow).1
  · intro version row hrow
    obtain ⟨rfl, rfl⟩ := hrows version row hrow
    exact ⟨hof.personaVersion, hof.body ▸ hof, hof.body ▸ hrole⟩

theorem PersonaRepository.Current.setAgent (h : repo.Current) (hstore : after.Current roleId) :
    (repo.setAgent roleId after).Current := by
  intro role store hrole
  by_cases heq : role = roleId
  · subst heq
    obtain rfl := Option.some.inj (PersonaRepository.setAgent_self.symm.trans hrole)
    exact hstore
  · exact h role store ((PersonaRepository.setAgent_ne heq).symm.trans hrole)

theorem RepositoryEffect.current (he : RepositoryEffect repo next) (h : repo.Current) :
    next.Current := by
  cases he with
  | same => exact h
  | opened hnew hof hrole => exact h.setAgent (.seeded hof hrole)
  | wrote hstore hwrote => exact h.setAgent ((h _ _ hstore).effect hwrote)

theorem PersonaRepository.Current.step (h : repo.Current) (call : PersonaCall) :
    (repo.step call).Current := by
  have heffect : RepositoryEffect repo (repo.step call) := (PersonaCall.effect h rfl).1
  exact heffect.current h

end Current

/-! ## Rows stay, versions rise -/

/-- Neither the Persona, nor its copy in the handle, nor the history has changed. -/
structure AgentStore.SamePersona (store next : AgentStore) : Prop where
  persona : next.persona = store.persona
  handlePersona : next.handlePersona = store.handlePersona
  personaVersions : next.personaVersions = store.personaVersions

/-- The history has kept its rows; where anything has changed the version has risen. -/
structure AgentStore.Grows (store next : AgentStore) : Prop where
  rows : store.personaVersions.Extends next.personaVersions
  raised : store.SamePersona next ∨ store.persona.version < next.persona.version

section Grows

variable {repo next : PersonaRepository} {roleId : String} {store after : AgentStore}

theorem AgentStore.Grows.refl (store : AgentStore) : store.Grows store :=
  ⟨.refl _, .inl ⟨rfl, rfl, rfl⟩⟩

theorem PersonaEffect.grows (he : PersonaEffect roleId store after)
    (h : store.Current roleId) : store.Grows after := by
  cases he with
  | marked marker => exact ⟨.refl _, .inl ⟨rfl, rfl, rfl⟩⟩
  | @filed persona record marker hof hrole hraised =>
      refine ⟨?_, .inr hraised⟩
      have hlt : store.persona.version < record.personaVersion := by
        rw [hof.personaVersion]
        exact hraised
      exact h.highest.extends_file hlt record

theorem RepositoryEffect.grows (he : RepositoryEffect repo next) (h : repo.Current)
    (hstore : repo.agents roleId = some store) :
    ∃ after, next.agents roleId = some after ∧ store.Grows after := by
  cases he with
  | same => exact ⟨store, hstore, .refl store⟩
  | @opened opened _ _ hnew =>
      have hne : roleId ≠ opened := by
        rintro rfl
        rw [hnew] at hstore
        cases hstore
      exact ⟨store, (PersonaRepository.setAgent_ne hne).trans hstore, .refl store⟩
  | @wrote written before after hbefore hwrote =>
      by_cases heq : roleId = written
      · subst heq
        obtain rfl := Option.some.inj (hbefore.symm.trans hstore)
        exact ⟨after, PersonaRepository.setAgent_self, hwrote.grows (h _ _ hbefore)⟩
      · exact ⟨store, (PersonaRepository.setAgent_ne heq).trans hstore, .refl store⟩

theorem PersonaRepository.Current.rows_kept (h : repo.Current) (calls : List PersonaCall)
    (hstore : repo.agents roleId = some store) :
    ∃ after, (calls.foldl PersonaRepository.step repo).agents roleId = some after ∧
      store.personaVersions.Extends after.personaVersions := by
  induction calls generalizing repo store with
  | nil => exact ⟨store, hstore, .refl _⟩
  | cons call rest ih =>
      have heffect : RepositoryEffect repo (repo.step call) := (PersonaCall.effect h rfl).1
      obtain ⟨middle, hmiddle, hgrows⟩ := heffect.grows h hstore
      obtain ⟨last, hlast, hrest⟩ := ih (h.step call) hmiddle
      exact ⟨last, hlast, hgrows.rows.trans hrest⟩

end Grows

/-! ## Decisions on an old version -/

section Stale

variable {repo : PersonaRepository} {store : AgentStore}
  {request : PersonaEvolutionCompletionRequest}

/-- An `evolved` conclusion as its port asks for it, brought by the holder of the claim. -/
structure PersonaEvolutionCompletionRequest.Evolves (request : PersonaEvolutionCompletionRequest)
    (store : AgentStore) : Prop where
  outcome : request.outcome = .evolved
  persona : ∃ persona : PersonaDef, request.persona = some persona ∧
    persona.roleId = request.roleId ∧ persona.version = request.parentVersion + 1
  held : ∃ marker : PersonaEvolutionMarker, store.personaEvolution = some marker ∧
    isHeldBy marker request.holder

theorem completePersonaEvolution_stale (hcurrent : repo.Current)
    (hstore : repo.agents request.roleId = some store)
    (hstale : store.persona.version ≠ request.parentVersion) :
    ∃ after, (completePersonaEvolution request repo).2.agents request.roleId = some after ∧
      store.SamePersona after := by
  have heffect : PersonaFiling request.Files request.roleId repo
      (completePersonaEvolution request repo).2 :=
    (completePersonaEvolution_filing hcurrent rfl).1
  generalize (completePersonaEvolution request repo).2 = next at heffect
  cases heffect with
  | same => exact ⟨store, hstore, rfl, rfl, rfl⟩
  | marked hbefore marker =>
      obtain rfl := Option.some.inj (hbefore.symm.trans hstore)
      exact ⟨_, PersonaRepository.setAgent_self, rfl, rfl, rfl⟩
  | filed hbefore marker hrow hrole hraised hfiles =>
      obtain rfl := Option.some.inj (hbefore.symm.trans hstore)
      exact absurd hfiles.parent hstale

theorem completePersonaEvolution_conflict
    (hstore : repo.agents request.roleId = some store) (hevolves : request.Evolves store)
    (hstale : store.persona.version ≠ request.parentVersion) :
    completePersonaEvolution request repo =
      (.ok (.parentConflict request.parentVersion store.persona.version), repo) := by
  obtain ⟨persona, hpersona, hrole, hversion⟩ := hevolves.persona
  obtain ⟨marker, hmarker, hheld⟩ := hevolves.held
  have hevolved : request.evolvedPersona = .ok (some persona) :=
    evolvedPersona_eq_some.mpr ⟨hevolves.outcome, hpersona, hrole, hversion⟩
  have hsettled : ∃ settled, completeDeliveryRecord (personaEvolutionSettlement marker request)
      request.holder none = some settled := ⟨_, if_pos hheld⟩
  obtain ⟨settled, hsettled⟩ := hsettled
  have hwrite : writeEvolvedPersona store request persona settled repo =
      (.ok (.parentConflict request.parentVersion store.persona.version), repo) := by
    simp only [writeEvolvedPersona, resolvePersonaEvolutionWrite, if_pos hstale]
    rfl
  unfold completePersonaEvolution
  refine read_chain.mpr (.inl ⟨some store, congrArg _ hstore, ?_⟩)
  simp only [hmarker]
  refine lift_chain.mpr (.inl ⟨some persona, hevolved, ?_⟩)
  rw [hsettled]
  exact hwrite

end Stale

/-! ## Whole runs -/

/-- What a call does: a throw changes nothing; rows stay, and where a Persona or its history has
changed the version has risen; a decision on an old version leaves both, and where it evolves
them it ends as a conflict of the parent. -/
structure HistorySafe (repo : PersonaRepository) (call : PersonaCall) : Prop where
  throws : ∀ e, (call.exec repo).1 = .error e → repo.step call = repo
  grows : ∀ (roleId : String) (store : AgentStore), repo.agents roleId = some store →
    ∃ after, (repo.step call).agents roleId = some after ∧ store.Grows after
  stale : ∀ (request : PersonaEvolutionCompletionRequest) (store : AgentStore),
    call = .completePersonaEvolution request → repo.agents request.roleId = some store →
      store.persona.version ≠ request.parentVersion →
        (∃ after, (repo.step call).agents request.roleId = some after ∧
          store.SamePersona after) ∧
        (request.Evolves store → repo.step call = repo ∧ (call.exec repo).1 =
          .ok (.completion (.parentConflict request.parentVersion store.persona.version)))

theorem PersonaRepository.Current.historySafe {repo : PersonaRepository} (h : repo.Current)
    (call : PersonaCall) : HistorySafe repo call := by
  obtain ⟨heffect, hthrow⟩ :
      RepositoryEffect repo (repo.step call) ∧ ∀ e, (call.exec repo).1 = .error e →
        repo.step call = repo := PersonaCall.effect h rfl
  refine ⟨hthrow, fun roleId store hstore => heffect.grows h hstore, ?_⟩
  rintro request store rfl hstore hstale
  have hexec : (PersonaCall.completePersonaEvolution request).exec repo =
      ((completePersonaEvolution request repo).1.map .completion,
        (completePersonaEvolution request repo).2) := by
    rcases hcall : completePersonaEvolution request repo with ⟨_ | _, next⟩
    · exact chain_eq.mpr (.inr ⟨_, hcall, rfl⟩)
    · exact chain_eq.mpr (.inl ⟨_, _, hcall, rfl⟩)
  constructor
  · rw [PersonaRepository.step, hexec]
    exact completePersonaEvolution_stale h hstore hstale
  · intro hevolves
    rw [PersonaRepository.step, hexec,
      completePersonaEvolution_conflict hstore hevolves hstale]
    exact ⟨rfl, rfl⟩

theorem PersonaRepository.current_empty : PersonaRepository.Current {} := by
  intro role store hstore
  cases hstore

theorem PersonaRepository.Current.run {repo : PersonaRepository} (h : repo.Current)
    (calls : List PersonaCall) : (calls.foldl PersonaRepository.step repo).Current := by
  induction calls generalizing repo with
  | nil => exact h
  | cons call rest ih => exact ih (h.step call)

/-- After any calls the current version of every agent is the highest of its history, its row is
the current Persona and the one in the handle; whatever is called next is safe for the history,
and no later call changes a row. -/
theorem persona_history_append_only (calls : List PersonaCall) :
    let repo := calls.foldl PersonaRepository.step {}
    repo.Current ∧ (∀ call, HistorySafe repo call) ∧
      ∀ (later : List PersonaCall) (roleId : String) (store : AgentStore),
        repo.agents roleId = some store →
          ∃ after, (later.foldl PersonaRepository.step repo).agents roleId = some after ∧
            store.personaVersions.Extends after.personaVersions := by
  intro repo
  have hcurrent : repo.Current := PersonaRepository.current_empty.run calls
  exact ⟨hcurrent, hcurrent.historySafe, fun later _ _ hstore => hcurrent.rows_kept later hstore⟩

/-! ### A rejection on an old version -/

def staleMarker : PersonaEvolutionMarker where
  item := {}
  status := .processing
  attemptCount := 1
  claimToken := some "t"
  leaseExpiresAt := some 10
  updatedAt := 0

def editedPersona : PersonaDef :=
  { createSeedPersona "r" none "1970-01-01T00:00:00.001Z" with version := 2 }

def staleRejection : PersonaEvolutionCompletionRequest where
  roleId := "r"
  claimToken := "t"
  parentVersion := 1
  outcome := .rejected
  strategyVersion := "s"
  inputSnapshotHash := "h"
  sourceRunId := "run"
  now := { text := "1970-01-01T00:00:00.005Z", ms := 5 }

/-- The edit made version 2 current; a rejection decided on version 1 is applied to the marker. -/
theorem rejection_applied :
    let repo := [PersonaCall.initializeAgent "r" none "1970-01-01T00:00:00.000Z",
      .mark "r" (some staleMarker),
      .savePersona "r" editedPersona "1970-01-01T00:00:00.001Z"].foldl PersonaRepository.step {}
    (∃ store, repo.agents "r" = some store ∧ store.persona.version = 2 ∧
      staleRejection.parentVersion = 1) ∧
      ∀ expected current, ((PersonaCall.completePersonaEvolution staleRejection).exec repo).1 ≠
        .ok (.completion (.parentConflict expected current)) := by
  intro repo
  refine ⟨⟨_, rfl, rfl, rfl⟩, fun expected current h => ?_⟩
  cases h

end Newide.Memory
