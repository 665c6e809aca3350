import Newide.Foundation.Runs
import Newide.Memory.SkillCensus

/-!
# Skills under concurrent calls

A call of the repository writes by what it looked up before its await.  If
that has gone stale the write hits another Skill, or brings a second copy
of one source; in a run without such a write the Skills stay consistent
and every call changes only the Skill it names.
-/

namespace Newide.Memory

open Census InMemoryRepository

variable {roleId : String} {index : Nat} {skill : StoredSkill} {write : SkillWrite}

variable {fromRoleId owner skillId : String} {skills : Census} {updatedSource : StoredSkill}
  {after : InMemoryRepository} {embedded : Except String Embedding} {now : Time}

namespace SkillWrite

def named : SkillWrite → String
  | .push _ skill | .assign _ _ skill => skill.id
  | .delete _ skillId | .move _ _ skillId _ => skillId
  | .adopt _ copy _ _ _ => copy.id

def source : SkillWrite → Option String
  | .adopt _ _ _ _ updatedSource => some updatedSource.id
  | _ => none

def deleted : SkillWrite → Option (String × String)
  | .delete roleId skillId => some (roleId, skillId)
  | _ => none

/-- The Skill that stands at the index is the source, whoever has imported it since. -/
def StillThere (skills : Census) (owner : String) (index : Nat) (updatedSource : StoredSkill) :
    Prop :=
  (skills owner)[index]?.map (fun current => { current with
    importedBy := updatedSource.importedBy, updatedAt := updatedSource.updatedAt }) =
      some updatedSource

instance (skills : Census) (owner : String) (index : Nat) (updatedSource : StoredSkill) :
    Decidable (StillThere skills owner index updatedSource) :=
  inferInstanceAs (Decidable (_ = _))

/-- The write hits a Skill it does not name, or brings a second copy of a source. -/
def Spoils (skills : Census) : SkillWrite → Prop
  | .push roleId skill => ∃ other ∈ skills roleId, SameSource skill other
  | .assign roleId index skill => ¬ Census.At skills roleId index skill.id ∨
      ∃ other ∈ skills roleId, other.id ≠ skill.id ∧ SameSource skill other
  | .delete _ _ => False
  | .move _ _ skillId moved => moved.id ≠ skillId ∨
      ∃ other ∈ skills marketPoolRoleId, other.id ≠ skillId ∧ SameSource moved other
  | .adopt roleId copy owner index updatedSource =>
      (∃ other ∈ skills roleId, SameSource copy other) ∨
        ¬ StillThere skills owner index updatedSource

instance (skills : Census) (write : SkillWrite) : Decidable (write.Spoils skills) := by
  cases write <;> unfold Spoils <;> infer_instance

def newId : SkillWrite → Option String
  | .push _ skill => some skill.id
  | .adopt _ copy _ _ _ => some copy.id
  | _ => none

/-- The agents exist, and what is new has an id nobody has. -/
def Ready (repo : InMemoryRepository) : SkillWrite → Prop
  | .push roleId skill => (repo.store? roleId).isSome ∧
      ∀ other, ∀ old ∈ repo.skillsOf other, old.id ≠ skill.id
  | .assign roleId _ _ | .delete roleId _ => (repo.store? roleId).isSome
  | .move fromRoleId index _ moved => (repo.store? fromRoleId).isSome ∧
      (repo.store? marketPoolRoleId).isSome ∧
        Census.At repo.skillsOf fromRoleId index moved.id
  | .adopt roleId copy owner _ _ => (repo.store? roleId).isSome ∧ (repo.store? owner).isSome ∧
      ∀ other, ∀ old ∈ repo.skillsOf other, old.id ≠ copy.id

structure Sound (repo : InMemoryRepository) (write : SkillWrite) : Prop where
  skills : (repo.write write).SkillsSound
  only : Census.OnlyNamed (some write.named) write.source write.deleted repo.skillsOf
    (repo.write write).skillsOf
  ids : ∀ roleId, ∀ skill ∈ (repo.write write).skillsOf roleId,
    (∃ other, ∃ old ∈ repo.skillsOf other, old.id = skill.id) ∨ write.newId = some skill.id

variable {repo : InMemoryRepository}

theorem sound_push (h : repo.SkillsSound)
    (hready : (push roleId skill).Ready repo) (hnot : ¬ (push roleId skill).Spoils repo.skillsOf) :
    (push roleId skill).Sound repo := by
  obtain ⟨⟨store, hstore⟩, hfresh⟩ := hready.imp_left Option.isSome_iff_exists.mp
  have hskills : (repo.write (push roleId skill)).skillsOf =
      Function.update repo.skillsOf roleId (repo.skillsOf roleId ++ [skill]) := by
    rw [write, skillsOf_modify hstore,
      skillsOf_store hstore]
    rfl
  refine ⟨⟨agree_modify h.agree hstore
    ((h.agree roleId store hstore).push _ skill), ?_⟩, ?_, fun role found hfound => ?_⟩
  · rw [hskills]
    exact h.census.push hfresh fun other hother hsame => hnot ⟨other, hother, hsame⟩
  · rw [hskills]
    exact .push repo.skillsOf roleId skill
  · rw [hskills, mem_push] at hfound
    rcases hfound with hold | ⟨_, rfl⟩
    · exact .inl ⟨role, found, hold, rfl⟩
    · exact .inr rfl

theorem skillsOf_assign
    (hstore : (repo.store? roleId).isSome) (hat : Census.At repo.skillsOf roleId index skill.id) :
    (repo.write (assign roleId index skill)).skillsOf =
      Function.update repo.skillsOf roleId ((repo.skillsOf roleId).set index skill) := by
  obtain ⟨store, hstore⟩ := Option.isSome_iff_exists.mp hstore
  rw [write, skillsOf_modify hstore, ← hat.assign,
    skillsOf_store hstore]
  rfl

theorem sound_assign (h : repo.SkillsSound) (hready : (assign roleId index skill).Ready repo)
    (hnot : ¬ (assign roleId index skill).Spoils repo.skillsOf) :
    (assign roleId index skill).Sound repo := by
  obtain ⟨store, hstore⟩ := Option.isSome_iff_exists.mp hready
  obtain ⟨hat, hcopy⟩ := not_or.mp hnot
  have hat := not_not.mp hat
  have hids := hat.ids
  rw [← hat.assign, skillsOf_store hstore] at hids
  have hskills := skillsOf_assign hready hat
  refine ⟨⟨agree_modify h.agree hstore
    ((h.agree roleId store hstore).assign hids), ?_⟩, ?_, fun role found hfound => ?_⟩
  · rw [hskills]
    exact h.census.assign hat fun other hother hne hsame => hcopy ⟨other, hother, hne, hsame⟩
  · rw [hskills]
    exact .assign h.census hat
  · rw [hskills, h.census.mem_assign hat] at hfound
    rcases hfound with ⟨rfl, rfl⟩ | ⟨hold, _⟩
    · obtain ⟨old, hold, holdId⟩ := hat.getElem
      exact .inl ⟨role, old, List.mem_of_getElem? hold, holdId⟩
    · exact .inl ⟨role, found, hold, rfl⟩

theorem skillsOf_delete (hstore : (repo.store? roleId).isSome)
    (skillId : String) : (repo.modify roleId (·.deleteSkill skillId)).skillsOf =
      Function.update repo.skillsOf roleId
        ((repo.skillsOf roleId).filter fun skill => skill.id ≠ skillId) := by
  obtain ⟨store, hstore⟩ := Option.isSome_iff_exists.mp hstore
  rw [skillsOf_modify hstore, skillsOf_store hstore]
  rfl

theorem skillsSound_delete (h : repo.SkillsSound)
    (hstore : (repo.store? roleId).isSome) (skillId : String) :
    (repo.modify roleId (·.deleteSkill skillId)).SkillsSound := by
  obtain ⟨store, hget⟩ := Option.isSome_iff_exists.mp hstore
  refine ⟨agree_modify h.agree hget
    ((h.agree roleId store hget).delete skillId), ?_⟩
  rw [skillsOf_delete hstore]
  exact h.census.delete roleId skillId

theorem sound_delete (h : repo.SkillsSound) (hready : (delete roleId skillId).Ready repo) :
    (delete roleId skillId).Sound repo := by
  have hskills : (repo.write (delete roleId skillId)).skillsOf = _ :=
    skillsOf_delete hready skillId
  refine ⟨skillsSound_delete h hready skillId, ?_, fun role found hfound => ?_⟩
  · rw [hskills]
    exact .delete repo.skillsOf roleId skillId
  · rw [hskills, mem_filter_update] at hfound
    exact .inl ⟨role, found, hfound.1, rfl⟩

theorem takeSkill_eq_delete (h : repo.SkillsSound)
    (hat : Census.At repo.skillsOf roleId index skillId) :
    repo.modify roleId (·.takeSkill index skillId) =
      repo.modify roleId (·.deleteSkill skillId) := by
  unfold InMemoryRepository.modify
  cases hstore : repo.store? roleId with
  | none => rfl
  | some store =>
      have hskills := skillsOf_store hstore
      have hfilter := eraseIdx_eq_filter (h.census.once roleId) hat
      rw [hskills] at hfilter
      simp only [AgentMemoryStore.takeSkill, AgentMemoryStore.deleteSkill, hfilter]

theorem sound_move (h : repo.SkillsSound) {moved : StoredSkill}
    (hready : (move fromRoleId index skillId moved).Ready repo)
    (hnot : ¬ (move fromRoleId index skillId moved).Spoils repo.skillsOf) :
    (move fromRoleId index skillId moved).Sound repo := by
  obtain ⟨hfrom, hmarket, hat⟩ := hready
  obtain ⟨hid, hcopy⟩ := not_or.mp hnot
  obtain rfl := not_not.mp hid
  have htaken := skillsSound_delete h hfrom moved.id
  have hgone := skillsOf_delete hfrom moved.id
  obtain ⟨store, hstore⟩ := Option.isSome_iff_exists.mp
    (store?_modify_isSome marketPoolRoleId (·.deleteSkill moved.id) hmarket)
  have hskills : (repo.write (move fromRoleId index moved.id moved)).skillsOf =
      Function.update (repo.modify fromRoleId (·.deleteSkill moved.id)).skillsOf marketPoolRoleId
        ((repo.modify fromRoleId (·.deleteSkill moved.id)).skillsOf marketPoolRoleId ++
          [moved]) := by
    rw [write, takeSkill_eq_delete h hat,
      skillsOf_modify hstore, skillsOf_store hstore]
    rfl
  have hleft : ∀ role skill, skill ∈ (repo.modify fromRoleId (·.deleteSkill moved.id)).skillsOf role ↔
      skill ∈ repo.skillsOf role ∧ (role = fromRoleId → skill.id ≠ moved.id) := by
    intro role skill
    rw [hgone]
    exact mem_filter_update
  -- the id was with one agent only, so it is nowhere once it was taken there
  have hfresh : ∀ role, ∀ skill ∈ (repo.modify fromRoleId (·.deleteSkill moved.id)).skillsOf role,
      skill.id ≠ moved.id := by
    intro role skill hmem hsame
    obtain ⟨hold, hne⟩ := (hleft role skill).mp hmem
    obtain ⟨original, horiginal, horiginalId⟩ := hat.getElem
    exact hne (h.census.apart role fromRoleId skill original hold
      (List.mem_of_getElem? horiginal) (hsame.trans horiginalId.symm)) hsame
  refine ⟨⟨?_, ?_⟩, ?_, fun role found hfound => ?_⟩
  · rw [write, takeSkill_eq_delete h hat]
    exact agree_modify htaken.agree hstore
      ((htaken.agree marketPoolRoleId store hstore).receive moved)
  · rw [hskills]
    refine htaken.census.push hfresh fun other hother hsame => hcopy ?_
    exact ⟨other, ((hleft _ _).mp hother).1, hfresh _ other hother, hsame⟩
  · rw [hskills]
    refine ⟨fun role skill hnamed _ => ?_, fun _ _ hsource _ => (by cases hsource),
      fun role skill hmem _ => ?_⟩
    · have hne : skill.id ≠ moved.id := fun heq => hnamed (congrArg some heq)
      rw [mem_push, hleft]
      constructor
      · rintro (hmem | ⟨_, rfl⟩)
        · exact hmem.1
        · exact absurd rfl hne
      · exact fun hmem => .inl ⟨hmem, fun _ => hne⟩
    · by_cases hsame : skill.id = moved.id
      · exact ⟨marketPoolRoleId, moved, mem_push.mpr (.inr ⟨rfl, rfl⟩), hsame.symm⟩
      · exact ⟨role, skill, mem_push.mpr (.inl ((hleft role skill).mpr
          ⟨hmem, fun _ => hsame⟩)), rfl⟩
  · rw [hskills, mem_push] at hfound
    rcases hfound with hold | ⟨_, rfl⟩
    · exact .inl ⟨role, found, ((hleft role found).mp hold).1, rfl⟩
    · obtain ⟨original, horiginal, horiginalId⟩ := hat.getElem
      exact .inl ⟨fromRoleId, original, List.mem_of_getElem? horiginal, horiginalId⟩

theorem StillThere.getElem (h : StillThere skills owner index updatedSource) :
    ∃ current, (skills owner)[index]? = some current ∧ { current with
      importedBy := updatedSource.importedBy, updatedAt := updatedSource.updatedAt } =
        updatedSource :=
  Option.map_eq_some_iff.mp h

theorem StillThere.at (h : StillThere skills owner index updatedSource) :
    Census.At skills owner index updatedSource.id := by
  obtain ⟨current, hcurrent, heq⟩ := h.getElem
  rw [Census.At, hcurrent, ← heq]
  rfl

theorem sound_adopt (h : repo.SkillsSound) {copy : StoredSkill}
    (hready : (adopt roleId copy owner index updatedSource).Ready repo)
    (hnot : ¬ (adopt roleId copy owner index updatedSource).Spoils repo.skillsOf) :
    (adopt roleId copy owner index updatedSource).Sound repo := by
  obtain ⟨hrole, howner, hfresh⟩ := hready
  obtain ⟨hcopy, hthere⟩ := not_or.mp hnot
  have hthere := not_not.mp hthere
  obtain ⟨current, hcurrent, hsource⟩ := hthere.getElem
  have hmem := List.mem_of_getElem? hcurrent
  have hcurrentId : current.id = updatedSource.id := by rw [← hsource]
  have hcurrentFrom : current.importedFrom = updatedSource.importedFrom := by rw [← hsource]
  obtain ⟨store, hstore⟩ := Option.isSome_iff_exists.mp hrole
  have hpushed : (repo.modify roleId (·.pushSkill .imported copy)).skillsOf =
      Function.update repo.skillsOf roleId (repo.skillsOf roleId ++ [copy]) := by
    rw [skillsOf_modify hstore, skillsOf_store hstore]
    rfl
  have hmid : (repo.modify roleId (·.pushSkill .imported copy)).SkillsSound := by
    refine ⟨agree_modify h.agree hstore
      ((h.agree roleId store hstore).push _ copy), ?_⟩
    rw [hpushed]
    exact h.census.push hfresh fun other hother hsame => hcopy ⟨other, hother, hsame⟩
  have hat : Census.At (repo.modify roleId (·.pushSkill .imported copy)).skillsOf owner index
      updatedSource.id := by
    rw [hpushed, Census.At]
    by_cases heq : owner = roleId
    · subst heq
      rw [Function.update_self,
        List.getElem?_append_left (List.getElem?_eq_some_iff.mp hcurrent).1]
      exact hthere.at
    · rw [Function.update_of_ne heq]
      exact hthere.at
  -- the source keeps where it is from, so it is no second copy either
  have hspoils : ¬ (assign owner index updatedSource).Spoils
      (repo.modify roleId (·.pushSkill .imported copy)).skillsOf := by
    rintro (hnotAt | ⟨other, hother, hne, hsame⟩)
    · exact hnotAt hat
    · rw [hpushed, mem_push] at hother
      rcases hother with hold | ⟨rfl, rfl⟩
      · have hpair : SameSource current other := ⟨hcurrentFrom ▸ hsame.1,
          hcurrentFrom.trans hsame.2⟩
        exact hne ((h.census.oneCopy owner current other hmem hold hpair).symm.trans hcurrentId)
      · exact hcopy ⟨current, hmem, hsame.symm.1, hsame.symm.2.trans hcurrentFrom.symm⟩
  have hassign := sound_assign hmid (store?_modify_isSome owner _ howner) hspoils
  have honly := hassign.only
  rw [hpushed] at honly
  have hpush := Census.OnlyNamed.push repo.skillsOf roleId copy
  refine ⟨hassign.skills, ⟨fun role skill hnamed hsourceId => ?_,
    fun role skill hsourceId hskill => ?_, fun role skill hskill _ => ?_⟩,
    fun role found hfound => ?_⟩
  · exact (honly.others role skill hsourceId nofun).trans (hpush.others role skill hnamed nofun)
  · have hid : skill.id = updatedSource.id := Option.some.inj hsourceId
    obtain rfl := h.census.apart role owner skill current hskill hmem (hid.trans hcurrentId.symm)
    obtain rfl := h.census.unique hskill hmem (hid.trans hcurrentId.symm)
    refine ⟨updatedSource.importedBy, updatedSource.updatedAt, ?_⟩
    have hafter := skillsOf_assign (store?_modify_isSome role _ howner) hat
    rw [hsource]
    refine hafter ▸ (hmid.census.mem_assign hat).mpr (.inl ⟨rfl, rfl⟩)
  · obtain ⟨middle, pushed, hmiddle, hpushedId⟩ := hpush.kept role skill hskill nofun
    obtain ⟨last, found, hfound, hfoundId⟩ := honly.kept middle pushed hmiddle nofun
    exact ⟨last, found, hfound, hfoundId.trans hpushedId⟩
  · rcases hassign.ids role found hfound with ⟨other, old, hold, holdId⟩ | hnew
    · rw [hpushed, mem_push] at hold
      rcases hold with hold | ⟨_, rfl⟩
      · exact .inl ⟨other, old, hold, holdId⟩
      · exact .inr (congrArg some holdId)
    · cases hnew

theorem sound (h : repo.SkillsSound) (hready : write.Ready repo)
    (hnot : ¬ write.Spoils repo.skillsOf) : write.Sound repo := by
  cases write with
  | push roleId skill => exact sound_push h hready hnot
  | assign roleId index skill => exact sound_assign h hready hnot
  | delete roleId skillId => exact sound_delete h hready
  | move fromRoleId index skillId moved => exact sound_move h hready hnot
  | adopt roleId copy owner index updatedSource => exact sound_adopt h hready hnot

theorem store?_write_isSome (write : SkillWrite)
    (h : (repo.store? roleId).isSome) : ((repo.write write).store? roleId).isSome := by
  cases write with
  | push => exact store?_modify_isSome _ _ h
  | assign => exact store?_modify_isSome _ _ h
  | delete => exact store?_modify_isSome _ _ h
  | move | adopt =>
      refine store?_modify_isSome roleId _ ?_
      exact store?_modify_isSome roleId _ h

end SkillWrite

namespace SkillCall

def named? : SkillCall → Option String
  | .saving _ skill | .updating _ _ skill => some skill.id
  | .importing _ _ _ _ copy _ => some copy.id
  | .transferring _ _ skillId _ => some skillId
  | .ended _ => none

def source? : SkillCall → Option String
  | .importing _ _ _ source _ _ => some source.id
  | _ => none

def newId? : SkillCall → Option String
  | .saving _ skill => some skill.id
  | .importing _ _ _ _ copy _ => some copy.id
  | _ => none

def roles : SkillCall → List String
  | .saving roleId _ | .updating roleId _ _ => [roleId]
  | .importing roleId owner _ _ _ _ => [roleId, owner]
  | .transferring fromRoleId _ _ _ => [fromRoleId, marketPoolRoleId]
  | .ended _ => []

end SkillCall

namespace SkillState

variable {s : SkillState} {dimensions : Nat} {label : SkillLabel} {call : SkillCall}

def named? (s : SkillState) : SkillLabel → Option String
  | .updateSkillEmbedding _ skillId _ | .deleteSkill _ skillId => some skillId
  | .resume i _ _ => s.calls[i]?.bind SkillCall.named?
  | _ => none

def source? (s : SkillState) : SkillLabel → Option String
  | .resume i _ _ => s.calls[i]?.bind SkillCall.source?
  | _ => none

def deleted? : SkillLabel → Option (String × String)
  | .deleteSkill roleId skillId => some (roleId, skillId)
  | _ => none

/-- A new Skill comes with an id that no other Skill was ever given. -/
def Fresh (s : SkillState) (label : SkillLabel) : Prop :=
  ∀ id ∈ newId? label, id ∉ s.issued

/-- The step writes by what has gone stale, or brings a second copy of a source. -/
def Spoils (dimensions : Nat) (s : SkillState) (label : SkillLabel) : Prop :=
  ∃ write ∈ s.written dimensions label, write.Spoils s.repo.skillsOf

/-- The step changes only the Skill its call names, and the importers of the Skill it imports; and
a Skill goes only when it is deleted. -/
def OnlyNamed (s : SkillState) (label : SkillLabel) (t : SkillState) : Prop :=
  Census.OnlyNamed (s.named? label) (s.source? label) (deleted? label) s.repo.skillsOf
    t.repo.skillsOf

instance (s : SkillState) (label : SkillLabel) : Decidable (s.Fresh label) :=
  inferInstanceAs (Decidable (∀ id ∈ newId? label, id ∉ s.issued))

instance (dimensions : Nat) (s : SkillState) (label : SkillLabel) :
    Decidable (s.Spoils dimensions label) :=
  inferInstanceAs (Decidable (∃ write ∈ s.written dimensions label,
    write.Spoils s.repo.skillsOf))

/-- The agents of a call exist, and the id it gives nobody has. -/
structure Stands (repo : InMemoryRepository) (issued : List String) (call : SkillCall) : Prop where
  roles : ∀ roleId ∈ call.roles, (repo.store? roleId).isSome
  issued : ∀ id ∈ call.newId?, id ∈ issued ∧ ∀ roleId, ∀ skill ∈ repo.skillsOf roleId, skill.id ≠ id

structure Sound (s : SkillState) : Prop where
  skills : s.repo.SkillsSound
  issued : ∀ roleId, ∀ skill ∈ s.repo.skillsOf roleId, skill.id ∈ s.issued
  calls : ∀ call ∈ s.calls, Stands s.repo s.issued call
  distinct : ∀ (i j : Nat) (a b : SkillCall) id, s.calls[i]? = some a → s.calls[j]? = some b →
    id ∈ a.newId? → id ∈ b.newId? → i = j

theorem skillsOf_ensureAgent (repo : InMemoryRepository) (roleId : String) :
    (repo.ensureAgent roleId).skillsOf = repo.skillsOf := by
  funext other
  unfold skillsOf
  rw [repo.store?_ensureAgent roleId other]
  split
  · next h =>
      rw [h]
      cases repo.store? roleId with
      | none => rfl
      | some store => rfl
  · rfl

variable {repo : InMemoryRepository}

theorem store?_ensureAgent_isSome {other : String} (h : (repo.store? other).isSome)
    (roleId : String) :
    ((repo.ensureAgent roleId).store? other).isSome := by
  rw [repo.store?_ensureAgent roleId other]
  split
  · rfl
  · exact h

/-! ## What a call writes -/

theorem stands_ended (repo : InMemoryRepository) (issued : List String)
    (result : Except String SkillReply) : Stands repo issued (.ended result) where
  roles := fun _ h => (by cases h)
  issued := fun _ h => (by cases h)

theorem finish_named (h : (finish dimensions repo call embedded now).1 = some write) :
    call.named? = some write.named ∧ call.source? = write.source ∧ write.deleted = none ∧
      (write.newId = none ∨ write.newId = call.newId?) := by
  cases call with
  | saving roleId skill =>
      simp only [finish] at h
      split at h
      · cases h
      · split at h
        · cases h
        · cases h
          exact ⟨rfl, rfl, rfl, .inr rfl⟩
  | updating roleId index skill =>
      simp only [finish] at h
      split at h
      · cases h
      · split at h
        · split at h
          · cases h
          · cases h
            exact ⟨rfl, rfl, rfl, .inl rfl⟩
        · cases h
          exact ⟨rfl, rfl, rfl, .inl rfl⟩
  | importing roleId owner index source copy begun =>
      simp only [finish] at h
      split at h
      · cases h
      · cases h
        exact ⟨rfl, rfl, rfl, .inr rfl⟩
  | transferring fromRoleId index skillId marketStatus =>
      simp only [finish] at h
      split at h
      · cases h
      · cases h
        exact ⟨rfl, rfl, rfl, .inl rfl⟩
  | ended result => cases h

variable {issued : List String}

theorem finish_ready (hstands : Stands repo issued call)
    (h : (finish dimensions repo call embedded now).1 = some write) : write.Ready repo := by
  cases call with
  | saving roleId skill =>
      have hfresh := (hstands.issued skill.id rfl).2
      have hrole := hstands.roles roleId (.head _)
      simp only [finish] at h
      split at h
      · cases h
      · split at h
        · cases h
        · cases h
          exact ⟨hrole, hfresh⟩
  | updating roleId index skill =>
      have hrole := hstands.roles roleId (.head _)
      simp only [finish] at h
      split at h
      · cases h
      · split at h
        · split at h
          · cases h
          · cases h
            exact hrole
        · cases h
          exact hrole
  | importing roleId owner index source copy begun =>
      have hfresh := (hstands.issued copy.id rfl).2
      have hrole := hstands.roles roleId (.head _)
      have howner := hstands.roles owner (.tail _ (.head _))
      simp only [finish] at h
      split at h
      · cases h
      · cases h
        exact ⟨hrole, howner, hfresh⟩
  | transferring fromRoleId index skillId marketStatus =>
      have hrole := hstands.roles fromRoleId (.head _)
      have hmarket := hstands.roles marketPoolRoleId (.tail _ (.head _))
      simp only [finish] at h
      split at h
      · cases h
      · next original horiginal =>
          cases h
          exact ⟨hrole, hmarket, Option.map_eq_some_iff.mpr ⟨original, horiginal, rfl⟩⟩
  | ended result => cases h

/-! ## How a call begins -/

theorem requireStore_isSome {store : AgentMemoryStore} (h : repo.requireStore roleId = .ok store) :
    repo.store? roleId = some store :=
  Fallible.orThrow_eq_ok.mp h

theorem findSkillOwner_store {source : StoredSkill}
    (h : repo.findSkillOwner skillId = some (owner, index, source)) :
    (repo.store? owner).isSome := by
  obtain ⟨agent, hmem, hfound⟩ := List.exists_of_findSome?_eq_some h
  obtain ⟨index', _, hfound⟩ := Option.bind_eq_some_iff.mp hfound
  obtain ⟨skill, _, heq⟩ := Option.map_eq_some_iff.mp hfound
  cases heq
  have hget := repo.distinct.get_of_mem (k := agent.1) (a := agent.2) hmem
  exact Option.isSome_iff_exists.mpr ⟨_, hget⟩

theorem start_written (h : (start repo label).1 = some write) :
    write.Ready repo ∧ write.source = none ∧
      write.newId = none ∧ deleted? label = write.deleted ∧
      (∀ s : SkillState, s.named? label = some write.named ∧ s.source? label = none) ∧
      createdAgent? repo label = none := by
  cases label with
  | updateSkillEmbedding roleId skillId embedding =>
      simp only [start] at h
      split at h
      · cases h
      · next store hstore =>
          split at h
          · cases h
          · next index hindex =>
              split at h
              · cases h
              · next existing hexisting =>
                  cases h
                  have hid : existing.id = skillId := by
                    obtain ⟨hlt, hget⟩ := List.getElem?_eq_some_iff.mp hexisting
                    have hfound := (List.findIdx?_eq_some_iff_getElem.mp hindex).2.1
                    rw [hget] at hfound
                    exact of_decide_eq_true hfound
                  exact ⟨Option.isSome_iff_exists.mpr ⟨store, requireStore_isSome hstore⟩, rfl,
                    rfl, rfl, fun _ => ⟨congrArg some hid.symm, rfl⟩, rfl⟩
  | deleteSkill roleId skillId =>
      simp only [start] at h
      split at h
      · cases h
      · next store hstore =>
          split at h
          · cases h
            exact ⟨Option.isSome_iff_exists.mpr ⟨store, requireStore_isSome hstore⟩, rfl, rfl, rfl,
              fun _ => ⟨rfl, rfl⟩, rfl⟩
          · cases h
  | ensureAgent | saveSkillIfAbsent | updateSkill | marketImportSkill | transferSkillToMarket |
      resume => cases h

theorem startSave_stands
    (hafter : ∀ other, (repo.store? other).isSome → (after.store? other).isSome)
    (hid : skill.id ∈ issued ∧ ∀ roleId, ∀ old ∈ after.skillsOf roleId, old.id ≠ skill.id) :
    Stands after issued (startSave repo roleId skill) := by
  unfold startSave
  split
  · exact stands_ended _ _ _
  · next store hstore =>
      split
      · exact stands_ended _ _ _
      · refine ⟨fun other hother => ?_, fun id hnew => ?_⟩
        · rw [List.mem_singleton.mp hother]
          exact hafter _ (Option.isSome_iff_exists.mpr ⟨store, requireStore_isSome hstore⟩)
        · obtain rfl := Option.some.inj hnew
          exact hid

theorem startUpdate_stands
    (hafter : ∀ other, (repo.store? other).isSome → (after.store? other).isSome) :
    Stands after issued (startUpdate repo roleId skill) := by
  unfold startUpdate
  split
  · exact stands_ended _ _ _
  · next store hstore =>
      split
      · exact stands_ended _ _ _
      · refine ⟨fun other hother => ?_, fun id hnew => (by cases hnew)⟩
        rw [List.mem_singleton.mp hother]
        exact hafter _ (Option.isSome_iff_exists.mpr ⟨store, requireStore_isSome hstore⟩)

theorem startImport_stands {sourceSkillId uuid : String}
    (hafter : ∀ other, (repo.store? other).isSome → (after.store? other).isSome)
    (hid : uuid ∈ issued ∧ ∀ roleId, ∀ old ∈ after.skillsOf roleId, old.id ≠ uuid) :
    Stands after issued (startImport repo roleId sourceSkillId uuid now) := by
  unfold startImport
  split
  · exact stands_ended _ _ _
  · next owner index source hfound =>
      split
      · exact stands_ended _ _ _
      · split
        · exact stands_ended _ _ _
        · next importer hstore =>
            split
            · exact stands_ended _ _ _
            · refine ⟨fun other hother => ?_, fun id hnew => ?_⟩
              · rcases List.mem_cons.mp hother with rfl | hrest
                · exact hafter _ (Option.isSome_iff_exists.mpr ⟨importer, requireStore_isSome hstore⟩)
                · rw [List.mem_singleton.mp hrest]
                  exact hafter _ (findSkillOwner_store hfound)
              · obtain rfl := Option.some.inj hnew
                exact hid

theorem startTransfer_stands {marketStatus : Option String}
    (hafter : ∀ other, (repo.store? other).isSome → (after.store? other).isSome)
    (hmarket : (∃ role index id status,
        startTransfer repo fromRoleId skillId marketStatus = .transferring role index id status) →
      (after.store? marketPoolRoleId).isSome) :
    Stands after issued (startTransfer repo fromRoleId skillId marketStatus) := by
  unfold startTransfer at hmarket ⊢
  split at hmarket
  · exact stands_ended _ _ _
  · next store hstore =>
      split at hmarket
      · exact stands_ended _ _ _
      · refine ⟨fun other hother => ?_, fun id hnew => (by cases hnew)⟩
        rcases List.mem_cons.mp hother with rfl | hrest
        · exact hafter _ (Option.isSome_iff_exists.mpr ⟨store, requireStore_isSome hstore⟩)
        · rw [List.mem_singleton.mp hrest]
          exact hmarket ⟨_, _, _, _, rfl⟩

theorem start_newId {id : String} (h : id ∈ (start repo label).2.newId?) : id ∈ newId? label := by
  cases label with
  | ensureAgent | resume => cases h
  | saveSkillIfAbsent roleId skill =>
      simp only [start, startSave] at h
      split at h
      · cases h
      · split at h
        · cases h
        · exact h
  | updateSkill roleId skill =>
      simp only [start, startUpdate] at h
      split at h
      · cases h
      · split at h
        · cases h
        · cases h
  | updateSkillEmbedding roleId skillId embedding =>
      simp only [start] at h
      split at h
      · cases h
      · split at h
        · cases h
        · split at h
          · cases h
          · cases h
  | deleteSkill roleId skillId =>
      simp only [start] at h
      split at h
      · cases h
      · split at h
        · cases h
        · cases h
  | marketImportSkill roleId sourceSkillId uuid now =>
      simp only [start, startImport] at h
      split at h
      · cases h
      · split at h
        · cases h
        · split at h
          · cases h
          · split at h
            · cases h
            · exact h
  | transferSkillToMarket fromRoleId skillId marketStatus =>
      simp only [start, startTransfer] at h
      split at h
      · cases h
      · split at h
        · cases h
        · cases h

/-! ## A step -/

/-- What a step writes, and who is about to make the new Skill in it. -/
structure Writes (s : SkillState) (label : SkillLabel) (write : SkillWrite) : Prop where
  ready : write.Ready s.repo
  named : s.named? label = some write.named
  source : s.source? label = write.source
  deleted : deleted? label = write.deleted
  newId : ∀ id ∈ write.newId, ∃ i embedded now call, label = .resume i embedded now ∧
    s.calls[i]? = some call ∧ id ∈ call.newId?
  notCreating : createdAgent? s.repo label = none

theorem Sound.writes (h : s.Sound)
    (hwrite : s.written dimensions label = some write) : Writes s label write := by
  have hstart : ∀ {label : SkillLabel}, (start s.repo label).1 = some write →
      Writes s label write := by
    intro label hwrite
    obtain ⟨hready, hsource, hnew, hdeleted, hnamed, hcreated⟩ := start_written hwrite
    refine ⟨hready, (hnamed s).1, (hnamed s).2.trans hsource.symm, hdeleted, fun id hid => ?_,
      hcreated⟩
    rw [hnew] at hid
    cases hid
  cases label with
  | resume i embedded now =>
      obtain ⟨call, hcall, hfinish⟩ := Option.bind_eq_some_iff.mp hwrite
      obtain ⟨hnamed, hsource, hdeleted, hnew⟩ := finish_named hfinish
      refine ⟨finish_ready (h.calls call (List.mem_of_getElem? hcall)) hfinish, ?_, ?_,
        hdeleted.symm, fun id hid => ⟨i, embedded, now, call, rfl, hcall, ?_⟩, rfl⟩
      · rw [named?, hcall]
        exact hnamed
      · rw [source?, hcall]
        exact hsource
      · rcases hnew with hnone | hsame
        · rw [hnone] at hid
          cases hid
        · rw [← hsame]
          exact hid
  | _ => exact hstart hwrite

structure Stepped (s : SkillState) (label : SkillLabel) (after : InMemoryRepository) : Prop where
  skills : after.SkillsSound
  only : Census.OnlyNamed (s.named? label) (s.source? label) (deleted? label) s.repo.skillsOf
    after.skillsOf
  stores : ∀ roleId, (s.repo.store? roleId).isSome → (after.store? roleId).isSome
  ids : ∀ roleId, ∀ skill ∈ after.skillsOf roleId,
    (∃ other, ∃ old ∈ s.repo.skillsOf other, old.id = skill.id) ∨
      ∃ i embedded now call, label = .resume i embedded now ∧ s.calls[i]? = some call ∧
        skill.id ∈ call.newId?

theorem stepped_of_same (hskills : after.skillsOf = s.repo.skillsOf) (hagree : after.SkillsSound)
    (hstores : ∀ roleId, (s.repo.store? roleId).isSome → (after.store? roleId).isSome) :
    Stepped s label after where
  skills := hagree
  only := by
    rw [hskills]
    exact ⟨fun _ _ _ _ => Iff.rfl, fun roleId skill _ hmem =>
      ⟨skill.importedBy, skill.updatedAt, hmem⟩, fun roleId skill hmem _ =>
      ⟨roleId, skill, hmem, rfl⟩⟩
  stores := hstores
  ids := fun roleId skill hmem => .inl ⟨roleId, skill, by rw [← hskills]; exact hmem, rfl⟩

theorem skillsSound_ensureAgent (h : repo.SkillsSound) (roleId : String) :
    (repo.ensureAgent roleId).SkillsSound where
  agree := fun other store hstore => by
    rw [repo.store?_ensureAgent roleId other] at hstore
    split at hstore
    · cases hold : repo.store? roleId with
      | none =>
          rw [hold] at hstore
          cases hstore
          exact ⟨rfl, rfl, rfl⟩
      | some old =>
          rw [hold] at hstore
          cases hstore
          exact h.agree roleId old hold
    · exact h.agree other store hstore
  census := by
    rw [skillsOf_ensureAgent]
    exact h.census

theorem Sound.stepped (h : s.Sound) (hnot : ¬ s.Spoils dimensions label) :
    Stepped s label (s.next dimensions label).repo := by
  cases hcreated : createdAgent? s.repo label with
  | some roleId =>
      simp only [next, hcreated]
      exact stepped_of_same (skillsOf_ensureAgent _ _) (skillsSound_ensureAgent h.skills roleId)
        fun _ hstore => store?_ensureAgent_isSome hstore roleId
  | none =>
      cases hwritten : s.written dimensions label with
      | none =>
          simp only [next, hcreated, hwritten]
          exact stepped_of_same rfl h.skills fun _ => id
      | some write =>
          have hwrites := h.writes hwritten
          have hsound := SkillWrite.sound h.skills hwrites.ready
            fun hspoils => hnot ⟨write, hwritten, hspoils⟩
          simp only [next, hcreated, hwritten]
          refine ⟨hsound.skills, ?_, fun _ => SkillWrite.store?_write_isSome write,
            fun roleId skill hmem => (hsound.ids roleId skill hmem).imp_right
              fun hnew => hwrites.newId skill.id hnew⟩
          rw [hwrites.named, hwrites.source, hwrites.deleted]
          exact hsound.only

theorem Sound.stands (h : s.Sound) (hstepped : Stepped s label (s.next dimensions label).repo)
    {j : Nat} (hcall : s.calls[j]? = some call)
    (hother : ∀ i embedded now, label = .resume i embedded now → i ≠ j) :
    Stands (s.next dimensions label).repo (s.next dimensions label).issued call := by
  obtain ⟨hroles, hissued⟩ := h.calls call (List.mem_of_getElem? hcall)
  refine ⟨fun roleId hmem => hstepped.stores roleId (hroles roleId hmem), fun id hid => ?_⟩
  refine ⟨List.mem_append_right _ (hissued id hid).1, fun roleId skill hmem heq => ?_⟩
  rcases hstepped.ids roleId skill hmem with ⟨other, old, hold, holdId⟩ |
    ⟨i, embedded, now, resumed, hlabel, hresumed, hnew⟩
  · exact (hissued id hid).2 other old hold (holdId.trans heq)
  · rw [heq] at hnew
    exact hother i embedded now hlabel (h.distinct i j resumed call id hresumed hcall hnew hid)

theorem calling_cases (dimensions : Nat) (s : SkillState) (label : SkillLabel) :
    (s.calling dimensions label = s.calls ∧
      ∀ i embedded now, label = .resume i embedded now → s.calls[i]? = none) ∨
    (∃ i embedded now result, label = .resume i embedded now ∧ i < s.calls.length ∧
      s.calling dimensions label = s.calls.set i (.ended result)) ∨
    (s.calling dimensions label = s.calls ++ [(start s.repo label).2] ∧
      ∀ i embedded now, label ≠ .resume i embedded now) := by
  cases label with
  | ensureAgent roleId => exact .inl ⟨rfl, nofun⟩
  | resume i embedded now =>
      simp only [calling]
      cases hcall : s.calls[i]? with
      | none =>
          refine .inl ⟨rfl, fun j embedded' now' heq => ?_⟩
          cases heq
          exact hcall
      | some call =>
          exact .inr (.inl ⟨i, embedded, now, _, rfl, (List.getElem?_eq_some_iff.mp hcall).1, rfl⟩)
  | _ => exact .inr (.inr ⟨rfl, nofun⟩)

theorem Sound.stands_start (h : s.Sound) (hfresh : s.Fresh label)
    (hstepped : Stepped s label (s.next dimensions label).repo)
    (hlabel : ∀ i embedded now, label ≠ .resume i embedded now) :
    Stands (s.next dimensions label).repo (s.next dimensions label).issued
      (start s.repo label).2 := by
  have hnew : ∀ id ∈ newId? label, id ∈ (s.next dimensions label).issued ∧
      ∀ roleId, ∀ skill ∈ (s.next dimensions label).repo.skillsOf roleId, skill.id ≠ id := by
    intro id hid
    refine ⟨List.mem_append_left _ (Option.mem_toList.mpr hid), fun roleId skill hmem heq => ?_⟩
    rcases hstepped.ids roleId skill hmem with ⟨other, old, hold, holdId⟩ |
      ⟨i, embedded, now, _, heqLabel, _, _⟩
    · have hin := h.issued other old hold
      rw [holdId, heq] at hin
      exact hfresh id hid hin
    · exact hlabel i embedded now heqLabel
  cases label with
  | ensureAgent roleId => exact stands_ended _ _ _
  | resume i embedded now => exact absurd rfl (hlabel i embedded now)
  | saveSkillIfAbsent roleId skill => exact startSave_stands hstepped.stores (hnew skill.id rfl)
  | updateSkill roleId skill => exact startUpdate_stands hstepped.stores
  | updateSkillEmbedding roleId skillId embedding =>
      simp only [start]
      split
      · exact stands_ended _ _ _
      · split
        · exact stands_ended _ _ _
        · split
          · exact stands_ended _ _ _
          · exact stands_ended _ _ _
  | deleteSkill roleId skillId =>
      simp only [start]
      split
      · exact stands_ended _ _ _
      · split
        · exact stands_ended _ _ _
        · exact stands_ended _ _ _
  | marketImportSkill roleId sourceSkillId uuid now =>
      exact startImport_stands hstepped.stores (hnew uuid rfl)
  | transferSkillToMarket fromRoleId skillId marketStatus =>
      refine startTransfer_stands hstepped.stores fun htransferring => ?_
      obtain ⟨role, index, id, status, heq⟩ := htransferring
      have hcreated : createdAgent? s.repo
          (.transferSkillToMarket fromRoleId skillId marketStatus) = some marketPoolRoleId := by
        simp only [createdAgent?, heq]
      simp only [next, hcreated]
      rw [s.repo.store?_ensureAgent marketPoolRoleId marketPoolRoleId, if_pos rfl]
      rfl

theorem Sound.next (h : s.Sound) (hfresh : s.Fresh label) (hnot : ¬ s.Spoils dimensions label) :
    (s.next dimensions label).Sound ∧ s.OnlyNamed label (s.next dimensions label) := by
  have hstepped := h.stepped hnot
  refine ⟨⟨hstepped.skills, fun roleId skill hmem => ?_, ?_, ?_⟩, hstepped.only⟩
  · rcases hstepped.ids roleId skill hmem with ⟨other, old, hold, holdId⟩ |
      ⟨i, _, _, call, _, hcall, hnew⟩
    · rw [← holdId]
      exact List.mem_append_right _ (h.issued other old hold)
    · exact List.mem_append_right _
        ((h.calls call (List.mem_of_getElem? hcall)).issued skill.id hnew).1
  · intro call hcall
    obtain ⟨j, hj⟩ := List.getElem?_of_mem hcall
    rcases calling_cases dimensions s label with ⟨hsame, hnone⟩ |
      ⟨i, embedded, now, result, hlabel, hlt, hset⟩ | ⟨hbegun, hlabel⟩
    · have hold : s.calls[j]? = some call := by rw [← hsame]; exact hj
      refine h.stands hstepped hold fun i embedded now heq hij => ?_
      have hgone := hnone i embedded now heq
      rw [hij, hold] at hgone
      cases hgone
    · have hold : (s.calls.set i (.ended result))[j]? = some call := by rw [← hset]; exact hj
      by_cases hij : i = j
      · subst hij
        obtain rfl := Option.some.inj ((List.getElem?_set_self hlt).symm.trans hold)
        exact stands_ended _ _ _
      · rw [List.getElem?_set_ne hij] at hold
        refine h.stands hstepped hold fun i' embedded' now' heq => ?_
        cases hlabel.symm.trans heq
        exact hij
    · have hmem : call ∈ s.calls ++ [(start s.repo label).2] := by rw [← hbegun]; exact hcall
      rcases List.mem_append.mp hmem with hold | hnew
      · obtain ⟨k, hk⟩ := List.getElem?_of_mem hold
        exact h.stands hstepped hk fun i embedded now heq => absurd heq (hlabel i embedded now)
      · rw [List.mem_singleton.mp hnew]
        exact h.stands_start hfresh hstepped hlabel
  · intro i j a b id ha hb hida hidb
    rcases calling_cases dimensions s label with ⟨hsame, _⟩ |
      ⟨k, embedded, now, result, _, hlt, hset⟩ | ⟨hbegun, _⟩
    · refine h.distinct i j a b id ?_ ?_ hida hidb
      · rw [← hsame]; exact ha
      · rw [← hsame]; exact hb
    · have hold : ∀ {j : Nat} {b : SkillCall}, (s.next dimensions label).calls[j]? = some b →
          id ∈ b.newId? → s.calls[j]? = some b := by
        intro j b hb hid
        have hb' : (s.calls.set k (.ended result))[j]? = some b := by rw [← hset]; exact hb
        by_cases hkj : k = j
        · subst hkj
          obtain rfl := Option.some.inj ((List.getElem?_set_self hlt).symm.trans hb')
          cases hid
        · rwa [List.getElem?_set_ne hkj] at hb'
      exact h.distinct i j a b id (hold ha hida) (hold hb hidb) hida hidb
    · have hcase : ∀ {j : Nat} {b : SkillCall}, (s.next dimensions label).calls[j]? = some b →
          id ∈ b.newId? → s.calls[j]? = some b ∨ (j = s.calls.length ∧ id ∈ newId? label) := by
        intro j b hb hid
        have hb' : (s.calls ++ [(start s.repo label).2])[j]? = some b := by
          rw [← hbegun]; exact hb
        by_cases hlt : j < s.calls.length
        · exact .inl ((List.getElem?_append_left hlt).symm.trans hb')
        · have hj := (List.getElem?_eq_some_iff.mp hb').1
          have heq : j = s.calls.length := by
            rw [List.length_append, List.length_singleton] at hj
            omega
          subst heq
          obtain rfl := Option.some.inj ((List.getElem?_concat_length ..).symm.trans hb')
          exact .inr ⟨rfl, start_newId hid⟩
      have hissued : ∀ {j : Nat} {b : SkillCall}, s.calls[j]? = some b → id ∈ b.newId? →
          id ∈ newId? label → False := by
        intro j b hb hid hnew
        exact hfresh id hnew ((h.calls b (List.mem_of_getElem? hb)).issued id hid).1
      rcases hcase ha hida with ha' | ⟨rfl, hnewA⟩
      · rcases hcase hb hidb with hb' | ⟨rfl, hnewB⟩
        · exact h.distinct i j a b id ha' hb' hida hidb
        · exact (hissued ha' hida hnewB).elim
      · rcases hcase hb hidb with hb' | ⟨rfl, _⟩
        · exact (hissued hb' hidb hnewA).elim
        · rfl

/-! ## Runs -/

theorem sound_initial : Sound {} where
  skills := by
    refine ⟨fun _ _ h => (by cases h), ⟨fun _ => List.nodup_nil, fun _ _ _ _ h => (by cases h),
      fun _ _ _ h => (by cases h)⟩⟩
  issued := fun _ _ h => (by cases h)
  calls := fun _ h => (by cases h)
  distinct := fun _ _ _ _ _ h => (by cases h)

/-- As long as no step writes by what has gone stale or brings a second copy of a source, the
Skills of all agents stay consistent, and every call changes only the Skill it names. -/
theorem skills_consistent (dimensions : Nat) (labels : List SkillLabel)
    (hfresh : ¬ Runs.Happened (next dimensions) {} labels fun s label _ => ¬ s.Fresh label)
    (hspoils : ¬ Runs.Happened (next dimensions) {} labels fun s label _ =>
      s.Spoils dimensions label) :
    (labels.foldl (next dimensions) {}).repo.SkillsSound ∧
      ¬ Runs.Happened (next dimensions) {} labels fun s label t => ¬ s.OnlyNamed label t := by
  have hgood : ¬ Runs.Happened (next dimensions) {} labels fun s label _ =>
      ¬ s.Fresh label ∨ s.Spoils dimensions label := by
    rintro ⟨pre, label, post, hlabels, hunfresh | hspoiled⟩
    · exact hfresh ⟨pre, label, post, hlabels, hunfresh⟩
    · exact hspoils ⟨pre, label, post, hlabels, hspoiled⟩
  have hstep : ∀ (s : SkillState) (label : SkillLabel), s.Sound →
      ¬ (¬ s.Fresh label ∨ s.Spoils dimensions label) →
        (s.next dimensions label).Sound ∧ s.OnlyNamed label (s.next dimensions label) :=
    fun s label h hbad => h.next (not_not.mp (not_or.mp hbad).1) (not_or.mp hbad).2
  constructor
  · exact (Runs.invariant_of_not_happened (I := Sound)
      (fun s label h hbad => (hstep s label h hbad).1) sound_initial hgood).skills
  · exact Runs.not_happened (I := Sound) (fun s label h hbad => (hstep s label h hbad).1)
      (fun s label h hbad honly => honly (hstep s label h hbad).2) sound_initial hgood

def exampleSkill (id : String) : StoredSkill where
  id := id
  description := id
  content := id
  version := "1.0.0"
  reviewStatus := .approved
  tags := []
  promotedFrom := none
  promotedAt := 0
  agentId := "coder"
  marketStatus := "available"
  reviewedBy := none
  reviewedAt := none
  createdAt := 0
  updatedAt := 0

/-- Two Skills are saved, and a third agent imports the second one. -/
def importLabels : List SkillLabel := [
  .ensureAgent "coder", .ensureAgent "tester",
  .saveSkillIfAbsent "coder" (exampleSkill "a"), .saveSkillIfAbsent "coder" (exampleSkill "b"),
  .resume 1 (.ok []) 1, .resume 0 (.ok []) 1, .marketImportSkill "tester" "b" "c" 2,
  .resume 2 (.ok []) 3]

theorem import_consistent : (importLabels.foldl (next 0) {}).repo.SkillsSound :=
  (skills_consistent 0 importLabels (by decide +kernel) (by decide +kernel)).1

/-- While the first Skill is updated it is deleted, and the second one moves to its place. -/
def staleLabels : List SkillLabel := [
  .ensureAgent "coder", .saveSkillIfAbsent "coder" (exampleSkill "a"), .resume 0 (.ok []) 1,
  .saveSkillIfAbsent "coder" (exampleSkill "b"), .resume 1 (.ok []) 1,
  .updateSkill "coder" (exampleSkill "a"), .deleteSkill "coder" "a", .resume 2 (.ok []) 2]

/-- The update then replaces the second Skill, and the id list of the agent still names it. -/
theorem update_replaces_other :
    ¬ Runs.Happened (next 0) {} staleLabels (fun s label _ => ¬ s.Fresh label) ∧
    ((staleLabels.foldl (next 0) {}).repo.skillsOf "coder").map (fun skill => skill.id) = ["a"] ∧
    ¬ (staleLabels.foldl (next 0) {}).repo.SkillsSound := by
  refine ⟨by decide +kernel, by decide +kernel, fun h => ?_⟩
  have hany : ((staleLabels.foldl (next 0) {}).repo.store? "coder").any (fun store =>
      store.handle.ownedSkills ≠ store.skills.map fun skill => skill.id) = true := by
    decide +kernel
  obtain ⟨store, hstore, hne⟩ := (Option.any_eq_true _ _).mp hany
  exact of_decide_eq_true hne (h.agree "coder" store hstore).owned

end SkillState

end Newide.Memory
