import Newide.Memory.ExtractionRuns

/-!
# A Buffer is extracted once

The Experiences of a Buffer are those of its first places, each once and
as it was written first.  What a run has persisted is a first part of
them, so a later or concurrent run goes on where they end.
-/

namespace Newide.Memory

variable {created index : Nat} {held persisted : List StoredExperience} {later : Run}

variable {i k : Nat}

namespace ExtractionSetup

variable (setup : ExtractionSetup)

def OfBuffer (roleId : String) (seq : Nat) (experience : StoredExperience) : Prop :=
  ∃ index, experience.id = setup.stableExperienceId roleId seq index

open Classical in
/-- The Experiences of a Buffer in the store of a role, in the order they were written in. -/
noncomputable def extracted (repo : InMemoryRepository) (roleId : String) (seq : Nat) :
    List StoredExperience :=
  ((repo.store? roleId).elim [] AgentMemoryStore.experiences).filter fun experience =>
    setup.OfBuffer roleId seq experience

/-- No agent has an Experience of any Buffer yet. -/
structure Unextracted (repo : InMemoryRepository) : Prop where
  agree : ∀ roleId store, repo.store? roleId = some store → store.ExperiencesAgree
  none : ∀ roleId store, repo.store? roleId = some store → ∀ experience ∈ store.experiences,
    ∀ owner seq, ¬ setup.OfBuffer owner seq experience

/-- A run wrote the Experience: it is what the run extracted for the place, with its id, its owner
and an embedding. -/
def WrittenBy (run : Run) (index : Nat) (experience : StoredExperience) : Prop :=
  ∃ extracted embedding, run.extraction.experiences[index]? = some extracted ∧
    experience = { setup.candidate run index extracted with descriptionEmbedding := embedding }

variable {setup} {repo after : InMemoryRepository} {run : Run} {s : State} {roleId : String}
  {seq : Nat} {store : AgentMemoryStore} {experience : StoredExperience}

open Classical in
theorem extracted_of_store (h : repo.store? roleId = some store) :
    setup.extracted repo roleId seq =
      store.experiences.filter fun experience => setup.OfBuffer roleId seq experience := by
  rw [extracted, h]
  rfl

open Classical in
theorem mem_extracted (h : repo.store? roleId = some store) :
    experience ∈ setup.extracted repo roleId seq ↔
      experience ∈ store.experiences ∧ setup.OfBuffer roleId seq experience := by
  rw [extracted_of_store h, List.mem_filter, decide_eq_true_iff]

theorem extracted_of_none (h : repo.store? roleId = none) :
    setup.extracted repo roleId seq = [] := by
  rw [extracted, h]
  rfl

/-! ## What holds between two steps -/

/-- What is there of a Buffer stays in front of what comes. -/
def Grows (setup : ExtractionSetup) (repo after : InMemoryRepository) : Prop :=
  ∀ roleId seq, setup.extracted repo roleId seq <+: setup.extracted after roleId seq

/-- How far a run has come: what it has persisted is a first part of what is there. -/
def RunSound (setup : ExtractionSetup) (repo : InMemoryRepository) (run : Run) : Prop :=
  match run.phase with
  | .reading | .extracting => run.extraction.experiences = []
  | .failed _ => True
  | .saving persisted _ => persisted <+: setup.extracted repo run.roleId run.seq ∧
      persisted.length ≤ run.extraction.experiences.length
  | .embedding persisted _ candidate => persisted <+: setup.extracted repo run.roleId run.seq ∧
      ∃ experience, run.extraction.experiences[persisted.length]? = some experience ∧
        candidate = setup.candidate run persisted.length experience
  | .promoting result | .marking result | .returned result =>
      result.experiences <+: setup.extracted repo run.roleId run.seq ∧
        result.experiences.length = run.extraction.experiences.length

structure Sound (setup : ExtractionSetup) (s : State) : Prop where
  agree : ∀ roleId store, s.repo.store? roleId = some store → store.ExperiencesAgree
  places : ∀ roleId seq, ∃ k, (setup.extracted s.repo roleId seq).map (fun e => e.id) =
    (List.range k).map (setup.stableExperienceId roleId seq)
  written : ∀ roleId store, s.repo.store? roleId = some store → ∀ experience ∈ store.experiences,
    ∀ owner seq index, experience.id = setup.stableExperienceId owner seq index →
      owner = roleId ∧ ∃ run ∈ s.runs, run.roleId = roleId ∧ run.seq = seq ∧
        setup.WrittenBy run index experience
  runs : ∀ run ∈ s.runs, setup.RunSound s.repo run

theorem Grows.refl (setup : ExtractionSetup) (repo : InMemoryRepository) :
    setup.Grows repo repo := fun _ _ => List.prefix_refl _

theorem RunSound.grows (h : setup.RunSound repo run) (hgrows : setup.Grows repo after) :
    setup.RunSound after run := by
  unfold RunSound at h ⊢
  cases hphase : run.phase with
  | reading | extracting =>
      rw [hphase] at h
      exact h
  | failed message => trivial
  | saving persisted created =>
      rw [hphase] at h
      exact ⟨h.1.trans (hgrows _ _), h.2⟩
  | embedding persisted created candidate =>
      rw [hphase] at h
      exact ⟨h.1.trans (hgrows _ _), h.2⟩
  | promoting result | marking result | returned result =>
      rw [hphase] at h
      exact ⟨h.1.trans (hgrows _ _), h.2⟩

/-! ## A first part and what follows it -/

theorem prefix_concat {α : Type} {first whole : List α} {a : α} (h : first <+: whole)
    (hnext : whole[first.length]? = some a) : first ++ [a] <+: whole := by
  obtain ⟨rest, rfl⟩ := h
  rw [List.getElem?_append_right (Nat.le_refl _), Nat.sub_self] at hnext
  cases rest with
  | nil => cases hnext
  | cons b rest =>
      cases hnext
      exact ⟨rest, by simp⟩

theorem stableId_injective (hstable : setup.StableIdsInjective) (roleId : String) (seq : Nat) :
    Function.Injective (setup.stableExperienceId roleId seq) :=
  fun _ _ h => (hstable _ _ _ _ _ _ h).2.2

theorem id_of_getElem (hplaces : held.map (fun e => e.id) =
      (List.range k).map (setup.stableExperienceId roleId seq))
    (hget : held[index]? = some experience) :
    experience.id = setup.stableExperienceId roleId seq index := by
  have hids := congrArg (fun ids : List String => ids[index]?) hplaces
  rw [List.getElem?_map, hget, List.getElem?_map, Option.map_some] at hids
  obtain ⟨n, hn, heq⟩ := Option.map_eq_some_iff.mp hids.symm
  obtain ⟨_, hrange⟩ := List.getElem?_eq_some_iff.mp hn
  rw [List.getElem_range] at hrange
  rw [← heq, ← hrange]

theorem getElem_of_id (hstable : setup.StableIdsInjective) (hplaces : held.map (fun e => e.id) =
      (List.range k).map (setup.stableExperienceId roleId seq)) (hmem : experience ∈ held)
    (hid : experience.id = setup.stableExperienceId roleId seq index) :
    held[index]? = some experience := by
  obtain ⟨place, hplace⟩ := List.getElem?_of_mem hmem
  have hsame := (id_of_getElem hplaces hplace).symm.trans hid
  rw [← stableId_injective hstable roleId seq hsame]
  exact hplace

theorem Sound.found (hstable : setup.StableIdsInjective) (h : setup.Sound s)
    (hstore : s.repo.store? roleId = some store)
    (hfound : store.experience? (setup.stableExperienceId roleId seq index) = some experience) :
    (setup.extracted s.repo roleId seq)[index]? = some experience := by
  obtain ⟨k, hplaces⟩ := h.places roleId seq
  have hid : experience.id = setup.stableExperienceId roleId seq index :=
    of_decide_eq_true (List.find?_some hfound :)
  refine getElem_of_id hstable hplaces ?_ hid
  exact (mem_extracted hstore).mpr ⟨List.mem_of_find?_eq_some hfound, index, hid⟩

/-! ## Writing an Experience -/

open Classical in
theorem extracted_push (hstable : setup.StableIdsInjective)
    (hstore : repo.store? roleId = some store)
    (hid : experience.id = setup.stableExperienceId roleId seq index) (other : String) (seq' : Nat) :
    
    setup.extracted (repo.setStore roleId (store.pushExperience experience)) other seq' =
      if other = roleId ∧ seq' = seq then setup.extracted repo roleId seq ++ [experience]
      else setup.extracted repo other seq' := by
  by_cases hother : other = roleId
  · subst hother
    rw [extracted_of_store (repo.store?_setStore_self other _), extracted_of_store hstore,
      AgentMemoryStore.pushExperience, List.filter_append]
    by_cases hseq : seq' = seq
    · subst hseq
      have hof : setup.OfBuffer other seq' experience := ⟨index, hid⟩
      rw [if_pos ⟨rfl, rfl⟩]
      congr 1
      exact List.filter_cons_of_pos (decide_eq_true hof)
    · have hnot : ¬ setup.OfBuffer other seq' experience := by
        rintro ⟨index', hid'⟩
        exact hseq (hstable _ _ _ _ _ _ (hid'.symm.trans hid)).2.1
      rw [if_neg fun h => hseq h.2, extracted_of_store hstore,
        List.filter_cons_of_neg (by simpa using hnot), List.filter_nil, List.append_nil]
  · rw [if_neg fun h => hother h.1, extracted, extracted, repo.store?_setStore, if_neg hother]

theorem grows_push (hstable : setup.StableIdsInjective) (hstore : repo.store? roleId = some store)
    (hid : experience.id = setup.stableExperienceId roleId seq index) :
    setup.Grows repo (repo.setStore roleId (store.pushExperience experience)) := by
  intro other seq'
  rw [extracted_push hstable hstore hid]
  split
  · next h =>
      rw [h.1, h.2]
      exact List.prefix_append _ _
  · exact List.prefix_refl _

/-! ## The steps of a run -/

/-- The run is the same one, and has not forgotten what it extracted. -/
structure Carries (run later : Run) : Prop where
  roleId : later.roleId = run.roleId
  seq : later.seq = run.seq
  extraction : later.extraction = run.extraction ∨ run.extraction.experiences = []

theorem WrittenBy.carries (h : setup.WrittenBy run index experience) (hcarries : Carries run later) :
    setup.WrittenBy later index experience := by
  obtain ⟨extracted, embedding, hextracted, hexperience⟩ := h
  rcases hcarries.extraction with heq | hnone
  · refine ⟨extracted, embedding, by rw [heq]; exact hextracted, ?_⟩
    rw [candidate, hcarries.roleId, hcarries.seq]
    exact hexperience
  · rw [hnone] at hextracted
    cases hextracted

/-- What a run does with the repository: nothing, or it writes the next Experience. -/
inductive Proceeds (setup : ExtractionSetup) (repo : InMemoryRepository) (run : Run) :
    InMemoryRepository × Run → Prop where
  | stays {later : Run} (hcarries : Carries run later) (hsound : setup.RunSound repo later) :
      Proceeds setup repo run (repo, later)
  | writes {later : Run} {store : AgentMemoryStore} {experience : StoredExperience}
      (hcarries : Carries run later) (hstore : repo.store? run.roleId = some store)
      (hid : experience.id = setup.stableExperienceId run.roleId run.seq
        (setup.extracted repo run.roleId run.seq).length)
      (hwritten : setup.WrittenBy later (setup.extracted repo run.roleId run.seq).length experience)
      (hsound : setup.RunSound (repo.setStore run.roleId (store.pushExperience experience)) later) :
      Proceeds setup repo run (repo.setStore run.roleId (store.pushExperience experience), later)

theorem Proceeds.refl (h : setup.RunSound repo run) : setup.Proceeds repo run (repo, run) :=
  .stays ⟨rfl, rfl, .inl rfl⟩ h

theorem Proceeds.fails (message : String) :
    setup.Proceeds repo run (repo, { run with phase := .failed message }) :=
  .stays ⟨rfl, rfl, .inl rfl⟩ trivial

theorem afterRead_proceeds (h : run.extraction.experiences = [])
    (answer : Except String (Option PendingBufferRead)) :
    setup.Proceeds repo run (repo, afterRead run answer) := by
  unfold afterRead
  split
  · exact .fails _
  · exact .fails _
  · split
    · exact .fails _
    · exact .stays ⟨rfl, rfl, .inl rfl⟩ h

theorem save_proceeds (hstable : setup.StableIdsInjective) (h : setup.Sound s)
    (hpersisted : persisted <+: setup.extracted s.repo run.roleId run.seq)
    (hlength : persisted.length ≤ run.extraction.experiences.length) :
    setup.Proceeds s.repo run (s.repo, setup.save s.repo run persisted created) := by
  unfold save
  cases hnext : run.extraction.experiences[persisted.length]? with
  | none =>
      have hall := List.getElem?_eq_none_iff.mp hnext
      exact .stays ⟨rfl, rfl, .inl rfl⟩ ⟨hpersisted, Nat.le_antisymm hlength hall⟩
  | some experience =>
      dsimp only
      cases hstore : s.repo.store? run.roleId with
      | none =>
          simp only [InMemoryRepository.requireStore, Fallible.orThrow, hstore]
          exact .fails _
      | some store =>
          simp only [InMemoryRepository.requireStore, Fallible.orThrow, hstore]
          cases hfound : store.experience? (setup.candidate run persisted.length experience).id with
          | some existing =>
              refine .stays ⟨rfl, rfl, .inl rfl⟩ ⟨?_, ?_⟩
              · exact prefix_concat hpersisted (h.found hstable hstore hfound)
              · rw [List.length_append, List.length_singleton]
                exact (List.getElem?_eq_some_iff.mp hnext).1
          | none =>
              exact .stays ⟨rfl, rfl, .inl rfl⟩ ⟨hpersisted, experience, hnext, rfl⟩

theorem Sound.persisted_all (h : setup.Sound s) (hstore : s.repo.store? roleId = some store)
    (hpersisted : persisted <+: setup.extracted s.repo roleId seq)
    (habsent : store.experience? (setup.stableExperienceId roleId seq persisted.length) = none) :
    persisted = setup.extracted s.repo roleId seq := by
  refine hpersisted.eq_of_length (Nat.le_antisymm hpersisted.length_le ?_)
  by_contra hlt
  obtain ⟨k, hplaces⟩ := h.places roleId seq
  obtain ⟨experience, hexperience⟩ : ∃ experience,
      (setup.extracted s.repo roleId seq)[persisted.length]? = some experience :=
    ⟨_, List.getElem?_eq_getElem (Nat.lt_of_not_le hlt)⟩
  have hmem := ((mem_extracted hstore).mp (List.mem_of_getElem? hexperience)).1
  have hno := List.find?_eq_none.mp habsent experience hmem
  exact hno (decide_eq_true (id_of_getElem hplaces hexperience))

theorem saveEmbedded_proceeds (hstable : setup.StableIdsInjective) (h : setup.Sound s)
    {experience : CandidateExperience} (hrun : setup.RunSound s.repo run)
    (hpersisted : persisted <+: setup.extracted s.repo run.roleId run.seq)
    (hnext : run.extraction.experiences[persisted.length]? = some experience)
    (answer : Except String Embedding) :
    setup.Proceeds s.repo run (setup.saveEmbedded s.repo run persisted created
      (setup.candidate run persisted.length experience) answer) := by
  have hlength : ∀ stored : StoredExperience,
      (persisted ++ [stored]).length ≤ run.extraction.experiences.length := by
    intro stored
    rw [List.length_append, List.length_singleton]
    exact (List.getElem?_eq_some_iff.mp hnext).1
  unfold saveEmbedded
  cases withDescriptionEmbedding setup.dimensions _ answer with
  | error message => exact .fails _
  | ok embedding =>
      dsimp only
      cases hstore : s.repo.store? run.roleId with
      | none => exact .refl hrun
      | some store =>
          dsimp only
          cases hfound : store.experience? (setup.candidate run persisted.length experience).id with
          | some raced =>
              exact .stays ⟨rfl, rfl, .inl rfl⟩
                ⟨prefix_concat hpersisted (h.found hstable hstore hfound), hlength raced⟩
          | none =>
              have hall := h.persisted_all hstore hpersisted hfound
              refine .writes ⟨rfl, rfl, .inl rfl⟩ hstore ?_ ?_ ?_
              · rw [← hall]
                rfl
              · rw [← hall]
                exact ⟨experience, embedding, hnext, rfl⟩
              · refine ⟨?_, hlength _⟩
                have hid : setup.stableExperienceId run.roleId run.seq persisted.length =
                    setup.stableExperienceId run.roleId run.seq persisted.length := rfl
                rw [extracted_push hstable hstore hid, if_pos ⟨rfl, rfl⟩, ← hall]

theorem proceed_proceeds (hstable : setup.StableIdsInjective) (h : setup.Sound s)
    (hrun : setup.RunSound s.repo run) (label : Label) :
    setup.Proceeds s.repo run (setup.proceed s.repo run label) := by
  cases label with
  | ensureAgent roleId => exact .refl hrun
  | begin roleId seq => exact .refl hrun
  | read i answer =>
      cases hphase : run.phase with
      | reading =>
          simp only [proceed, hphase]
          refine afterRead_proceeds ?_ answer
          simpa only [RunSound, hphase] using hrun
      | _ =>
          simp only [proceed, hphase]
          exact .refl hrun
  | extract i answer =>
      cases hphase : run.phase with
      | extracting =>
          have hnone : run.extraction.experiences = [] := by
            simpa only [RunSound, hphase] using hrun
          cases answer with
          | ok extraction =>
              simp only [proceed, hphase]
              exact .stays ⟨rfl, rfl, .inr hnone⟩ ⟨List.nil_prefix, Nat.zero_le _⟩
          | error message =>
              simp only [proceed, hphase]
              exact .fails _
      | _ =>
          simp only [proceed, hphase]
          exact .refl hrun
  | save i =>
      cases hphase : run.phase with
      | saving persisted created =>
          simp only [proceed, hphase]
          rw [RunSound, hphase] at hrun
          exact save_proceeds hstable h hrun.1 hrun.2
      | _ =>
          simp only [proceed, hphase]
          exact .refl hrun
  | embed i answer =>
      cases hphase : run.phase with
      | embedding persisted created candidate =>
          simp only [proceed, hphase]
          have hkeep := hrun
          rw [RunSound, hphase] at hrun
          obtain ⟨hpersisted, experience, hnext, rfl⟩ := hrun
          exact saveEmbedded_proceeds hstable h hkeep hpersisted hnext answer
      | _ =>
          simp only [proceed, hphase]
          exact .refl hrun
  | promote i answer =>
      cases hphase : run.phase with
      | promoting result =>
          cases answer with
          | error message =>
              simp only [proceed, hphase]
              exact .fails _
          | ok promoted =>
              simp only [proceed, hphase]
              rw [RunSound, hphase] at hrun
              refine .stays ⟨rfl, rfl, .inl rfl⟩ ?_
              cases promoted with
              | false => exact hrun
              | true => exact hrun
      | _ =>
          simp only [proceed, hphase]
          exact .refl hrun
  | mark i answer =>
      cases hphase : run.phase with
      | marking result =>
          cases answer with
          | error message =>
              simp only [proceed, hphase]
              exact .fails _
          | ok done =>
              simp only [proceed, hphase]
              rw [RunSound, hphase] at hrun
              exact .stays ⟨rfl, rfl, .inl rfl⟩ hrun
      | _ =>
          simp only [proceed, hphase]
          exact .refl hrun

/-! ## Steps of the system -/

theorem next_cases (setup : ExtractionSetup) (s : State) (label : Label) :
    (∃ roleId, setup.next s label = { s with repo := s.repo.ensureAgent roleId }) ∨
    (∃ roleId seq, setup.next s label = { s with runs := s.runs ++ [{ roleId, seq }] }) ∨
    setup.next s label = s ∨
    ∃ i run, s.runs[i]? = some run ∧ setup.next s label = {
      repo := (setup.proceed s.repo run label).1
      runs := s.runs.set i (setup.proceed s.repo run label).2 } := by
  have hrun : ∀ i label, label.run? = some i → setup.next s label = (match s.runs[i]? with
      | none => s
      | some run => {
          repo := (setup.proceed s.repo run label).1
          runs := s.runs.set i (setup.proceed s.repo run label).2 }) := by
    intro i label hi
    cases label with
    | ensureAgent roleId => cases hi
    | begin roleId seq => cases hi
    | _ =>
        simp only [next, hi, Option.bind_some]
        cases s.runs[i]? with
        | none => rfl
        | some run => rfl
  cases hlabel : label.run? with
  | none =>
      cases label with
      | ensureAgent roleId => exact .inl ⟨roleId, rfl⟩
      | begin roleId seq => exact .inr (.inl ⟨roleId, seq, rfl⟩)
      | _ => cases hlabel
  | some i =>
      rw [hrun i label hlabel]
      cases hget : s.runs[i]? with
      | none => exact .inr (.inr (.inl rfl))
      | some run => exact .inr (.inr (.inr ⟨i, run, hget, rfl⟩))

theorem extracted_ensureAgent (repo : InMemoryRepository) (created roleId : String) (seq : Nat) :
    setup.extracted (repo.ensureAgent created) roleId seq = setup.extracted repo roleId seq := by
  rw [extracted, extracted, repo.store?_ensureAgent created roleId]
  split
  · next h =>
      rw [h]
      cases repo.store? created with
      | none => rfl
      | some store => rfl
  · rfl

theorem Sound.ensureAgent (h : setup.Sound s) (created : String) :
    setup.Sound { s with repo := s.repo.ensureAgent created } := by
  have hstores : ∀ roleId store, (s.repo.ensureAgent created).store? roleId = some store →
      s.repo.store? roleId = some store ∨ store = {} := by
    intro roleId store hstore
    rw [s.repo.store?_ensureAgent created roleId] at hstore
    split at hstore
    · next heq =>
        rw [heq]
        cases hold : s.repo.store? created with
        | none =>
            rw [hold] at hstore
            exact .inr (Option.some.inj hstore).symm
        | some old =>
            rw [hold] at hstore
            exact .inl hstore
    · exact .inl hstore
  have hgrows : setup.Grows s.repo (s.repo.ensureAgent created) := fun roleId seq => by
    rw [extracted_ensureAgent]
  refine ⟨fun roleId store hstore => ?_, fun roleId seq => ?_,
    fun roleId store hstore experience hmem => ?_, fun run hrun => (h.runs run hrun).grows hgrows⟩
  · rcases hstores roleId store hstore with hold | rfl
    · exact h.agree roleId store hold
    · exact ⟨rfl, rfl, rfl⟩
  · rw [extracted_ensureAgent]
    exact h.places roleId seq
  · rcases hstores roleId store hstore with hold | rfl
    · exact h.written roleId store hold experience hmem
    · cases hmem

theorem Sound.begin (h : setup.Sound s) (roleId : String) (seq : Nat) :
    setup.Sound { s with runs := s.runs ++ [{ roleId, seq }] } where
  agree := h.agree
  places := h.places
  written := fun roleId' store hstore experience hmem owner seq' index hid => by
    obtain ⟨howner, run, hrun, hof⟩ := h.written roleId' store hstore experience hmem owner seq'
      index hid
    exact ⟨howner, run, List.mem_append_left _ hrun, hof⟩
  runs := fun run hrun => by
    rcases List.mem_append.mp hrun with hold | hnew
    · exact h.runs run hold
    · rw [List.mem_singleton.mp hnew]
      rfl

theorem written_set {runs : List Run} (hget : runs[i]? = some run) (hcarries : Carries run later)
    (h : ∃ run ∈ runs, run.roleId = roleId ∧ run.seq = seq ∧
      setup.WrittenBy run index experience) :
    ∃ run ∈ runs.set i later, run.roleId = roleId ∧ run.seq = seq ∧
      setup.WrittenBy run index experience := by
  obtain ⟨other, hother, hrole, hseq, hwritten⟩ := h
  obtain ⟨j, hj⟩ := List.getElem?_of_mem hother
  by_cases hij : i = j
  · subst hij
    obtain rfl := Option.some.inj (hget.symm.trans hj)
    refine ⟨later, List.mem_of_getElem? (List.getElem?_set_self
      (List.getElem?_eq_some_iff.mp hget).1), ?_, ?_, hwritten.carries hcarries⟩
    · rw [hcarries.roleId, hrole]
    · rw [hcarries.seq, hseq]
  · refine ⟨other, List.mem_of_getElem? ((List.getElem?_set_ne hij).trans hj), hrole, hseq,
      hwritten⟩

theorem Sound.proceed (hstable : setup.StableIdsInjective) (h : setup.Sound s)
    {proceeded : InMemoryRepository × Run} (hget : s.runs[i]? = some run)
    (hproceeds : setup.Proceeds s.repo run proceeded) :
    setup.Sound { repo := proceeded.1, runs := s.runs.set i proceeded.2 } ∧
      setup.Grows s.repo proceeded.1 := by
  cases hproceeds with
  | stays hcarries hsound =>
      refine ⟨⟨h.agree, h.places, fun roleId store hstore experience hmem owner seq index hid => ?_,
        fun other hother => ?_⟩, .refl _ _⟩
      · obtain ⟨howner, hwritten⟩ := h.written roleId store hstore experience hmem owner seq index hid
        exact ⟨howner, written_set hget hcarries hwritten⟩
      · rcases List.mem_or_eq_of_mem_set hother with hold | rfl
        · exact h.runs other hold
        · exact hsound
  | @writes later store experience hcarries hstore hid hwritten hsound =>
      have hgrows := grows_push hstable hstore hid
      have hlater : later ∈ s.runs.set i later :=
        List.mem_of_getElem? (List.getElem?_set_self (List.getElem?_eq_some_iff.mp hget).1)
      refine ⟨⟨fun roleId other hother => ?_, fun roleId seq => ?_,
        fun roleId other hother written hmem owner seq index hindex => ?_,
        fun other hother => ?_⟩, hgrows⟩
      · rw [s.repo.store?_setStore run.roleId roleId] at hother
        split at hother
        · cases hother
          exact (h.agree run.roleId store hstore).push experience
        · exact h.agree roleId other hother
      · rw [extracted_push hstable hstore hid]
        obtain ⟨k, hplaces⟩ := h.places roleId seq
        split
        · next heq =>
            obtain ⟨rfl, rfl⟩ := heq
            have hk : k = (setup.extracted s.repo run.roleId run.seq).length := by
              simpa using (congrArg List.length hplaces).symm
            refine ⟨k + 1, ?_⟩
            rw [List.map_append, hplaces, List.map_singleton, hid, ← hk, List.range_succ,
              List.map_append, List.map_singleton]
        · exact ⟨k, hplaces⟩
      · rw [s.repo.store?_setStore run.roleId roleId] at hother
        split at hother
        · next heq =>
            cases hother
            rcases List.mem_append.mp hmem with hold | hnew
            · obtain ⟨howner, hby⟩ := h.written run.roleId store hstore written hold owner seq index
                hindex
              rw [heq]
              exact ⟨howner, written_set hget hcarries hby⟩
            · obtain rfl := List.mem_singleton.mp hnew
              obtain ⟨rfl, rfl, rfl⟩ := hstable _ _ _ _ _ _ (hindex.symm.trans hid)
              exact ⟨heq.symm, later, hlater, hcarries.roleId.trans heq.symm, hcarries.seq, hwritten⟩
        · obtain ⟨howner, hby⟩ := h.written roleId other hother written hmem owner seq index hindex
          exact ⟨howner, written_set hget hcarries hby⟩
      · rcases List.mem_or_eq_of_mem_set hother with hold | rfl
        · exact (h.runs other hold).grows hgrows
        · exact hsound

theorem Sound.next (hstable : setup.StableIdsInjective) (h : setup.Sound s) (label : Label) :
    setup.Sound (setup.next s label) ∧ setup.Grows s.repo (setup.next s label).repo := by
  rcases next_cases setup s label with ⟨roleId, heq⟩ | ⟨roleId, seq, heq⟩ | heq |
    ⟨i, run, hget, heq⟩
  · rw [heq]
    exact ⟨h.ensureAgent roleId, fun other seq => by rw [extracted_ensureAgent]⟩
  · rw [heq]
    exact ⟨h.begin roleId seq, .refl _ _⟩
  · rw [heq]
    exact ⟨h, .refl _ _⟩
  · rw [heq]
    exact h.proceed hstable hget
      (proceed_proceeds hstable h (h.runs run (List.mem_of_getElem? hget)) label)

theorem Sound.steps (hstable : setup.StableIdsInjective) (h : setup.Sound s) (labels : List Label) :
    setup.Sound (labels.foldl setup.next s) ∧
      setup.Grows s.repo (labels.foldl setup.next s).repo := by
  induction labels generalizing s with
  | nil => exact ⟨h, .refl _ _⟩
  | cons label labels ih =>
      obtain ⟨hnext, hgrows⟩ := h.next hstable label
      obtain ⟨hsound, hmore⟩ := ih hnext
      exact ⟨hsound, fun roleId seq => (hgrows roleId seq).trans (hmore roleId seq)⟩

theorem sound_initial (h : setup.Unextracted repo) : setup.Sound { repo } where
  agree := h.agree
  places := fun roleId seq => ⟨0, by
    cases hstore : repo.store? roleId with
    | none => rw [extracted_of_none hstore]; rfl
    | some store =>
        have hnil : setup.extracted repo roleId seq = [] := by
          refine List.eq_nil_iff_forall_not_mem.mpr fun experience hmem => ?_
          obtain ⟨hin, hof⟩ := (mem_extracted hstore).mp hmem
          exact h.none roleId store hstore experience hin roleId seq hof
        rw [hnil]
        rfl⟩
  written := fun roleId store hstore experience hmem owner seq index hid =>
    absurd ⟨index, hid⟩ (h.none roleId store hstore experience hmem owner seq)
  runs := fun run hrun => (by cases hrun)

/-! ## At most once -/

theorem Sound.writtenBy (h : setup.Sound s)
    (hget : (setup.extracted s.repo roleId seq)[index]? = some experience) :
    ∃ run ∈ s.runs, run.roleId = roleId ∧ run.seq = seq ∧
      setup.WrittenBy run index experience := by
  have hmem := List.mem_of_getElem? hget
  cases hstore : s.repo.store? roleId with
  | none =>
      rw [extracted_of_none hstore] at hmem
      cases hmem
  | some store =>
      have hin := ((mem_extracted hstore).mp hmem).1
      obtain ⟨k, hplaces⟩ := h.places roleId seq
      exact (h.written roleId store hstore experience hin roleId seq index
        (id_of_getElem hplaces hget)).2

/-- Whatever the runs of `processPendingBuffer` extract, wherever they stop and however their
awaits interleave, the Experiences of a Buffer are those of its first places, each once, owned by
the role, as the first write left them, and no more than some run extracted. -/
theorem extracted_once (setup : ExtractionSetup) (hstable : setup.StableIdsInjective)
    (repo : InMemoryRepository) (hrepo : setup.Unextracted repo) (labels : List Label)
    (roleId : String) (seq : Nat) :
    let s := labels.foldl setup.next { repo }
    let held := setup.extracted s.repo roleId seq
    (held.map (fun experience => experience.id) =
        (List.range held.length).map (setup.stableExperienceId roleId seq) ∧
      (held ≠ [] → ∃ run ∈ s.runs, run.roleId = roleId ∧ run.seq = seq ∧
        held.length ≤ run.extraction.experiences.length)) ∧
    (∀ index experience, held[index]? = some experience → experience.agentId = roleId ∧
      ∃ run ∈ s.runs, run.roleId = roleId ∧ run.seq = seq ∧
        setup.WrittenBy run index experience) ∧
    (∀ later, held <+: setup.extracted (labels ++ later |>.foldl setup.next { repo }).repo
      roleId seq) ∧
    (∀ other store, s.repo.store? other = some store → store.ExperiencesAgree ∧
      (other ≠ roleId → ∀ experience ∈ store.experiences,
        ¬ setup.OfBuffer roleId seq experience)) ∧
    (∀ run ∈ s.runs, run.roleId = roleId → run.seq = seq → ∀ result,
      run.phase = .promoting result ∨ run.phase = .marking result ∨ run.phase = .returned result →
        result.experiences = held.take run.extraction.experiences.length ∧
        result.experiences.length = run.extraction.experiences.length) := by
  intro s held
  obtain ⟨hsound, _⟩ := (sound_initial hrepo).steps hstable labels
  have hby := fun {index experience} (hget : held[index]? = some experience) =>
    hsound.writtenBy hget
  refine ⟨⟨?_, fun hne => ?_⟩, fun index experience hget => ?_, fun later => ?_,
    fun other store hstore => ⟨hsound.agree other store hstore, ?_⟩, ?_⟩
  · obtain ⟨k, hplaces⟩ := hsound.places roleId seq
    have hk : k = held.length := by simpa using (congrArg List.length hplaces).symm
    rw [← hk]
    exact hplaces
  · -- the run that wrote the last place extracted that many
    have hlast : held[held.length - 1]? = some (held.getLast hne) := by
      rw [← List.getLast?_eq_getElem?, List.getLast?_eq_getLast_of_ne_nil hne]
    obtain ⟨run, hrun, hrole, hseq, extracted, _, hextracted, _⟩ := hby hlast
    have hlt := (List.getElem?_eq_some_iff.mp hextracted).1
    have hpos := List.length_pos_iff.mpr hne
    exact ⟨run, hrun, hrole, hseq, by omega⟩
  · obtain ⟨run, hrun, hrole, hseq, hwritten⟩ := hby hget
    refine ⟨?_, run, hrun, hrole, hseq, hwritten⟩
    obtain ⟨extracted, embedding, _, rfl⟩ := hwritten
    exact hrole
  · rw [List.foldl_append]
    exact (hsound.steps hstable later).2 roleId seq
  · rintro hother experience hmem ⟨index, hid⟩
    exact hother (hsound.written other store hstore experience hmem roleId seq index hid).1.symm
  · rintro run hrun rfl rfl result hphase
    have hrunSound := hsound.runs run hrun
    have hresult : result.experiences <+: held ∧
        result.experiences.length = run.extraction.experiences.length := by
      rcases hphase with hphase | hphase | hphase
      · simpa only [RunSound, hphase] using hrunSound
      · simpa only [RunSound, hphase] using hrunSound
      · simpa only [RunSound, hphase] using hrunSound
    refine ⟨?_, hresult.2⟩
    rw [← hresult.2]
    exact List.prefix_iff_eq_take.mp hresult.1

/-- The seed itself serves for an id, and no embedding is ever computed. -/
def exampleExtraction : ExtractionSetup where
  deterministicUuid := id
  dimensions := 0

theorem exampleExtraction_stable : exampleExtraction.StableIdsInjective :=
  fun _ _ _ _ _ _ h => experienceSeed_injective h

theorem unextracted_empty (setup : ExtractionSetup) : setup.Unextracted {} where
  agree := fun _ _ h => (by cases h)
  none := fun _ _ h => (by cases h)

def exampleCandidate (content : String) : CandidateExperience where
  id := content
  content := content
  confidence := 500
  createdAt := "2026-01-01"
  updatedAt := 0

/-- Two runs on one Buffer extract one and two Experiences; both are saving their first one when
the first run writes it. -/
def exampleLabels : List Label := [
  .ensureAgent "coder", .begin "coder" 1, .begin "coder" 1,
  .read 0 (.ok (some { agentContextStatus := "absent" })),
  .read 1 (.ok (some { agentContextStatus := "absent" })),
  .extract 0 (.ok { experiences := [exampleCandidate "a"] }),
  .extract 1 (.ok { experiences := [exampleCandidate "b", exampleCandidate "c"] }),
  .save 0, .save 1, .embed 0 (.ok []), .embed 1 (.ok []), .save 1, .embed 1 (.ok []), .save 1]

/-- The second run hands on the Experience of the first one and its own second one. -/
theorem second_run_promotes :
    let s := exampleLabels.foldl exampleExtraction.next { repo := {} }
    ∃ run ∈ s.runs, ∃ result, run.phase = .promoting result ∧
      result.experiences.map (fun experience => experience.content) = ["a", "c"] ∧
      result.experiences = (exampleExtraction.extracted s.repo "coder" 1).take 2 := by
  intro s
  have hrun : (s.runs[1]?.any fun run => match run.phase with
      | .promoting result =>
          result.experiences.map (fun experience => experience.content) = ["a", "c"] ∧
          run.roleId = "coder" ∧ run.seq = 1 ∧ run.extraction.experiences.length = 2
      | .reading | .extracting | .saving .. | .embedding .. | .marking _ | .returned _
      | .failed _ => false) = true := by decide +kernel
  obtain ⟨run, hget, hphase⟩ := (Option.any_eq_true _ _).mp hrun
  have hmem := List.mem_of_getElem? hget
  split at hphase
  · next result heq =>
      obtain ⟨hcontent, hrole, hseq, hlength⟩ := of_decide_eq_true hphase
      obtain ⟨_, _, _, _, hhanded⟩ := extracted_once exampleExtraction exampleExtraction_stable {}
        (unextracted_empty _) exampleLabels "coder" 1
      refine ⟨run, hmem, result, heq, hcontent, ?_⟩
      rw [(hhanded run hmem hrole hseq result (.inl heq)).1, hlength]
  all_goals cases hphase

end ExtractionSetup

end Newide.Memory
