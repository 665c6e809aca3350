import Newide.Memory.SkillStore
import Mathlib.Data.List.Nodup
import Mathlib.Logic.Function.Basic

/-!
# The Skills of all agents

What is true of the Skills of all agents together, as a function from the
agents to their lists: every id once, with one agent, and of every source
at most one copy with an agent.  Adding, replacing and taking away a Skill
keep it; what else they leave alone is said next to it.
-/

namespace Newide.Memory

abbrev Census := String → List StoredSkill

/-- Both are copies of one Skill of the market. -/
def SameSource (a b : StoredSkill) : Prop := a.importedFrom ≠ none ∧ a.importedFrom = b.importedFrom

instance (a b : StoredSkill) : Decidable (SameSource a b) :=
  inferInstanceAs (Decidable (_ ∧ _))

theorem SameSource.symm {a b : StoredSkill} (h : SameSource a b) : SameSource b a :=
  ⟨h.2 ▸ h.1, h.2.symm⟩

variable {id other : String}

namespace Census

structure Consistent (skills : Census) : Prop where
  once : ∀ roleId, ((skills roleId).map fun skill => skill.id).Nodup
  apart : ∀ roleId other a b, a ∈ skills roleId → b ∈ skills other → a.id = b.id → roleId = other
  oneCopy : ∀ roleId a b, a ∈ skills roleId → b ∈ skills roleId → SameSource a b → a.id = b.id

/-- All that may have happened to the Skills: one was named, and one is the source of an import.
A Skill is gone only if it was deleted. -/
structure OnlyNamed (named source : Option String) (deleted : Option (String × String))
    (skills after : Census) : Prop where
  others : ∀ roleId skill, some skill.id ≠ named → some skill.id ≠ source →
    (skill ∈ after roleId ↔ skill ∈ skills roleId)
  source : ∀ roleId skill, some skill.id = source → skill ∈ skills roleId →
    ∃ importedBy updatedAt, { skill with importedBy, updatedAt } ∈ after roleId
  kept : ∀ roleId skill, skill ∈ skills roleId → deleted ≠ some (roleId, skill.id) →
    ∃ other found, found ∈ after other ∧ found.id = skill.id

variable {skills after : Census} {roleId : String} {skill x : StoredSkill} {index : Nat}

theorem Consistent.unique (h : Consistent skills) {a b : StoredSkill} (ha : a ∈ skills roleId)
    (hb : b ∈ skills roleId) (hid : a.id = b.id) : a = b :=
  List.inj_on_of_nodup_map (h.once roleId) ha hb hid

theorem Consistent.sublist (h : Consistent skills)
    (hsub : ∀ roleId, (after roleId).Sublist (skills roleId)) : Consistent after where
  once := fun roleId => (h.once roleId).sublist ((hsub roleId).map _)
  apart := fun roleId other a b ha hb =>
    h.apart roleId other a b ((hsub roleId).subset ha) ((hsub other).subset hb)
  oneCopy := fun roleId a b ha hb =>
    h.oneCopy roleId a b ((hsub roleId).subset ha) ((hsub roleId).subset hb)

/-! ## Adding a Skill -/

theorem mem_push : skill ∈ Function.update skills roleId (skills roleId ++ [x]) other ↔
    skill ∈ skills other ∨ (other = roleId ∧ skill = x) := by
  by_cases h : other = roleId
  · subst h
    rw [Function.update_self, List.mem_append, List.mem_singleton]
    simp
  · rw [Function.update_of_ne h]
    simp [h]

theorem Consistent.push (h : Consistent skills)
    (hfresh : ∀ other, ∀ skill ∈ skills other, skill.id ≠ x.id)
    (hcopy : ∀ skill ∈ skills roleId, ¬ SameSource x skill) :
    Consistent (Function.update skills roleId (skills roleId ++ [x])) where
  once := fun other => by
    by_cases heq : other = roleId
    · subst heq
      rw [Function.update_self, List.map_append, List.map_singleton]
      refine List.nodup_append.mpr ⟨h.once other, List.nodup_singleton _, ?_⟩
      intro id hid id' hid'
      obtain ⟨skill, hskill, rfl⟩ := List.mem_map.mp hid
      rw [List.mem_singleton.mp hid']
      exact hfresh other skill hskill
    · rw [Function.update_of_ne heq]
      exact h.once other
  apart := fun first second a b ha hb hid => by
    rcases mem_push.mp ha with ha' | ⟨rfl, rfl⟩
    · rcases mem_push.mp hb with hb' | ⟨rfl, rfl⟩
      · exact h.apart first second a b ha' hb' hid
      · exact absurd hid (hfresh first a ha')
    · rcases mem_push.mp hb with hb' | ⟨rfl, rfl⟩
      · exact absurd hid.symm (hfresh second b hb')
      · rfl
  oneCopy := fun other a b ha hb hsame => by
    rcases mem_push.mp ha with ha' | ⟨rfl, rfl⟩
    · rcases mem_push.mp hb with hb' | ⟨rfl, rfl⟩
      · exact h.oneCopy other a b ha' hb' hsame
      · exact absurd hsame.symm (hcopy a ha')
    · rcases mem_push.mp hb with hb' | ⟨_, rfl⟩
      · exact absurd hsame (hcopy b hb')
      · rfl

theorem OnlyNamed.push (skills : Census) (roleId : String) (x : StoredSkill) :
    OnlyNamed (some x.id) none none skills
      (Function.update skills roleId (skills roleId ++ [x])) where
  others := fun other skill hnamed _ => by
    rw [mem_push]
    constructor
    · rintro (hmem | ⟨_, rfl⟩)
      · exact hmem
      · exact absurd rfl hnamed
    · exact .inl
  source := fun _ _ h _ => (by cases h)
  kept := fun other skill hmem _ => ⟨other, skill, mem_push.mpr (.inl hmem), rfl⟩

/-! ## Replacing a Skill -/

def At (skills : Census) (roleId : String) (index : Nat) (id : String) : Prop :=
  ((skills roleId)[index]?.map fun skill => skill.id) = some id

instance (skills : Census) (roleId : String) (index : Nat) (id : String) :
    Decidable (At skills roleId index id) := inferInstanceAs (Decidable (_ = _))

theorem At.getElem (h : At skills roleId index id) :
    ∃ old, (skills roleId)[index]? = some old ∧ old.id = id :=
  Option.map_eq_some_iff.mp h

theorem At.assign (h : At skills roleId index id) (x : StoredSkill) :
    assign (skills roleId) index x = (skills roleId).set index x := by
  obtain ⟨old, hold, _⟩ := h.getElem
  exact if_pos (List.getElem?_eq_some_iff.mp hold).1

theorem At.ids (h : At skills roleId index x.id) :
    ((skills roleId).set index x).map (fun skill => skill.id) =
      (skills roleId).map fun skill => skill.id := by
  obtain ⟨old, hold, hid⟩ := h.getElem
  refine List.ext_getElem? fun j => ?_
  rw [List.getElem?_map, List.getElem?_map]
  by_cases hij : index = j
  · subst hij
    rw [List.getElem?_set_self (List.getElem?_eq_some_iff.mp hold).1, hold, Option.map_some,
      Option.map_some, hid]
  · rw [List.getElem?_set_ne hij]

theorem Consistent.mem_set (h : Consistent skills) (hat : At skills roleId index x.id) :
    skill ∈ (skills roleId).set index x ↔
      skill = x ∨ (skill ∈ skills roleId ∧ skill.id ≠ x.id) := by
  obtain ⟨old, hold, hid⟩ := hat.getElem
  obtain ⟨hlt, hget⟩ := List.getElem?_eq_some_iff.mp hold
  have holdMem := List.mem_of_getElem? hold
  constructor
  · intro hmem
    obtain ⟨j, hj⟩ := List.getElem?_of_mem hmem
    by_cases hij : index = j
    · subst hij
      rw [List.getElem?_set_self hlt] at hj
      exact .inl (Option.some.inj hj).symm
    · rw [List.getElem?_set_ne hij] at hj
      refine .inr ⟨List.mem_of_getElem? hj, fun hsame => hij ?_⟩
      obtain ⟨hjlt, hjget⟩ := List.getElem?_eq_some_iff.mp hj
      have heq : skill = old :=
        h.unique (List.mem_of_getElem? hj) holdMem (hsame.trans hid.symm)
      exact (List.Nodup.of_map _ (h.once roleId)).getElem_inj_iff.mp
        (hget.trans (heq.symm.trans hjget.symm))
  · rintro (rfl | ⟨hmem, hne⟩)
    · exact List.mem_set hlt _
    · obtain ⟨j, hj⟩ := List.getElem?_of_mem hmem
      have hij : index ≠ j := by
        rintro rfl
        obtain rfl := Option.some.inj (hold.symm.trans hj)
        exact hne hid
      exact List.mem_of_getElem? ((List.getElem?_set_ne hij).trans hj)

theorem Consistent.mem_assign (h : Consistent skills) (hat : At skills roleId index x.id) :
    skill ∈ Function.update skills roleId ((skills roleId).set index x) other ↔
      (other = roleId ∧ skill = x) ∨ (skill ∈ skills other ∧ (other = roleId → skill.id ≠ x.id)) := by
  by_cases heq : other = roleId
  · subst heq
    rw [Function.update_self, h.mem_set hat]
    simp
  · rw [Function.update_of_ne heq]
    simp [heq]

theorem Consistent.assign (h : Consistent skills) (hat : At skills roleId index x.id)
    (hcopy : ∀ skill ∈ skills roleId, skill.id ≠ x.id → ¬ SameSource x skill) :
    Consistent (Function.update skills roleId ((skills roleId).set index x)) where
  once := fun other => by
    by_cases heq : other = roleId
    · subst heq
      rw [Function.update_self, hat.ids]
      exact h.once other
    · rw [Function.update_of_ne heq]
      exact h.once other
  apart := fun first second a b ha hb hid => by
    obtain ⟨old, hold, holdId⟩ := hat.getElem
    have holdMem := List.mem_of_getElem? hold
    -- the new Skill stands where the old one of its id stood
    have hplace : ∀ role c, c ∈ Function.update skills roleId ((skills roleId).set index x) role →
        ∃ d ∈ skills role, d.id = c.id := by
      intro role c hc
      rcases (h.mem_assign hat).mp hc with ⟨rfl, rfl⟩ | ⟨hmem, _⟩
      · exact ⟨old, holdMem, holdId⟩
      · exact ⟨c, hmem, rfl⟩
    obtain ⟨a', ha', haId⟩ := hplace first a ha
    obtain ⟨b', hb', hbId⟩ := hplace second b hb
    exact h.apart first second a' b' ha' hb' (haId.trans (hid.trans hbId.symm))
  oneCopy := fun other a b ha hb hsame => by
    rcases (h.mem_assign hat).mp ha with ⟨rfl, rfl⟩ | ⟨ha', haId⟩
    · rcases (h.mem_assign hat).mp hb with ⟨_, rfl⟩ | ⟨hb', hbId⟩
      · rfl
      · exact absurd hsame (hcopy b hb' (hbId rfl))
    · rcases (h.mem_assign hat).mp hb with ⟨rfl, rfl⟩ | ⟨hb', _⟩
      · exact absurd hsame.symm (hcopy a ha' (haId rfl))
      · exact h.oneCopy other a b ha' hb' hsame

theorem OnlyNamed.assign (h : Consistent skills) (hat : At skills roleId index x.id) :
    OnlyNamed (some x.id) none none skills
      (Function.update skills roleId ((skills roleId).set index x)) where
  others := fun other skill hnamed _ => by
    have hne : skill.id ≠ x.id := fun heq => hnamed (congrArg some heq)
    rw [h.mem_assign hat]
    constructor
    · rintro (⟨_, rfl⟩ | ⟨hmem, _⟩)
      · exact absurd rfl hne
      · exact hmem
    · exact fun hmem => .inr ⟨hmem, fun _ => hne⟩
  source := fun _ _ h _ => (by cases h)
  kept := fun other skill hmem _ => by
    by_cases hnamed : other = roleId ∧ skill.id = x.id
    · exact ⟨roleId, x, (h.mem_assign hat).mpr (.inl ⟨rfl, rfl⟩), hnamed.2.symm⟩
    · refine ⟨other, skill, (h.mem_assign hat).mpr (.inr ⟨hmem, ?_⟩), rfl⟩
      exact fun heq hid => hnamed ⟨heq, hid⟩

/-! ## Taking a Skill away -/

theorem eraseIdx_eq_filter {α : Type} {key : α → String} {items : List α}
    (hdistinct : (items.map key).Nodup) (hat : items[index]?.map key = some id) :
    items.eraseIdx index = items.filter fun item => key item ≠ id := by
  induction items generalizing index with
  | nil => rfl
  | cons item items ih =>
      obtain ⟨hnew, hrest⟩ := List.nodup_cons.mp hdistinct
      cases index with
      | zero =>
          obtain rfl : key item = id := Option.some.inj hat
          rw [List.eraseIdx_cons_zero, List.filter_cons_of_neg (by simp)]
          have hall : ∀ other ∈ items, key other ≠ key item := fun other hother heq =>
            hnew (List.mem_map.mpr ⟨other, hother, heq⟩)
          exact (List.filter_eq_self.mpr fun other hother => by simpa using hall other hother).symm
      | succ index =>
          obtain ⟨old, hold, hkey⟩ := Option.map_eq_some_iff.mp hat
          have hne : key item ≠ id := fun heq => hnew
            (List.mem_map.mpr ⟨old, List.mem_of_getElem? hold, hkey.trans heq.symm⟩)
          rw [List.eraseIdx_cons_succ, List.filter_cons_of_pos (by simpa using hne)]
          exact congrArg _ (ih hrest hat)

theorem mem_filter_update :
    skill ∈ Function.update skills roleId
        ((skills roleId).filter fun skill => skill.id ≠ id) other ↔
      skill ∈ skills other ∧ (other = roleId → skill.id ≠ id) := by
  by_cases heq : other = roleId
  · subst heq
    rw [Function.update_self, List.mem_filter]
    simp
  · rw [Function.update_of_ne heq]
    simp [heq]

theorem Consistent.delete (h : Consistent skills) (roleId id : String) :
    Consistent (Function.update skills roleId
      ((skills roleId).filter fun skill => skill.id ≠ id)) := by
  refine h.sublist fun other => ?_
  by_cases heq : other = roleId
  · subst heq
    rw [Function.update_self]
    exact List.filter_sublist
  · rw [Function.update_of_ne heq]

theorem OnlyNamed.delete (skills : Census) (roleId id : String) :
    OnlyNamed (some id) none (some (roleId, id)) skills (Function.update skills roleId
      ((skills roleId).filter fun skill => skill.id ≠ id)) where
  others := fun other skill hnamed _ => by
    rw [mem_filter_update]
    exact ⟨And.left, fun hmem => ⟨hmem, fun _ heq => hnamed (congrArg some heq)⟩⟩
  source := fun _ _ h _ => (by cases h)
  kept := fun other skill hmem hdeleted => by
    refine ⟨other, skill, mem_filter_update.mpr ⟨hmem, fun hother hid => hdeleted ?_⟩, rfl⟩
    rw [hother, hid]

end Census

/-! ## The stores -/

namespace AgentMemoryStore

/-- The counts and the id list of the Skills are those of the list. -/
structure SkillsAgree (store : AgentMemoryStore) : Prop where
  handle : store.handle.skillCount = store.skills.length
  metrics : store.metrics.skillCount = store.skills.length
  owned : store.handle.ownedSkills = store.skills.map fun skill => skill.id

variable {store : AgentMemoryStore}

theorem SkillsAgree.push (h : store.SkillsAgree) (gain : SkillGain) (skill : StoredSkill) :
    (store.pushSkill gain skill).SkillsAgree where
  handle := rfl
  metrics := by cases gain <;> rfl
  owned := by simp only [pushSkill, h.owned, List.map_append, List.map_singleton]

theorem SkillsAgree.receive (h : store.SkillsAgree) (skill : StoredSkill) :
    (store.receiveSkill skill).SkillsAgree where
  handle := rfl
  metrics := rfl
  owned := by simp only [receiveSkill, h.owned, List.map_append, List.map_singleton]

theorem SkillsAgree.delete (h : store.SkillsAgree) (skillId : String) :
    (store.deleteSkill skillId).SkillsAgree where
  handle := rfl
  metrics := rfl
  owned := by
    simp only [deleteSkill, withoutSkill, h.owned, List.filter_map]
    rfl

theorem SkillsAgree.assign (h : store.SkillsAgree) {index : Nat} {skill : StoredSkill}
    (hids : (Memory.assign store.skills index skill).map (fun skill => skill.id) =
      store.skills.map fun skill => skill.id) : (store.assignSkill index skill).SkillsAgree := by
  have hlength : (Memory.assign store.skills index skill).length = store.skills.length := by
    simpa using congrArg List.length hids
  exact ⟨h.handle.trans hlength.symm, h.metrics.trans hlength.symm, h.owned.trans hids.symm⟩

end AgentMemoryStore

namespace InMemoryRepository

/-- The stores agree with their lists, and the lists with each other. -/
structure SkillsSound (repo : InMemoryRepository) : Prop where
  agree : ∀ roleId store, repo.store? roleId = some store → store.SkillsAgree
  census : Census.Consistent repo.skillsOf

variable {repo : InMemoryRepository} {roleId : String} {store : AgentMemoryStore}
  {f : AgentMemoryStore → AgentMemoryStore}

theorem skillsOf_store (h : repo.store? roleId = some store) :
    repo.skillsOf roleId = store.skills := by
  rw [skillsOf, h]
  rfl

theorem store?_modify (h : repo.store? roleId = some store) (f : AgentMemoryStore → AgentMemoryStore)
    (other : String) : (repo.modify roleId f).store? other =
      if other = roleId then some (f store) else repo.store? other := by
  unfold modify
  rw [h]
  exact repo.store?_setStore roleId other (f store)

theorem skillsOf_modify (h : repo.store? roleId = some store) (f : AgentMemoryStore → AgentMemoryStore) :
    (repo.modify roleId f).skillsOf = Function.update repo.skillsOf roleId (f store).skills := by
  funext other
  unfold skillsOf
  rw [store?_modify h]
  by_cases heq : other = roleId
  · subst heq
    rw [if_pos rfl, Function.update_self]
    rfl
  · rw [if_neg heq, Function.update_of_ne heq]

theorem store?_modify_isSome (other : String) (f : AgentMemoryStore → AgentMemoryStore)
    (h : (repo.store? other).isSome) : ((repo.modify roleId f).store? other).isSome := by
  cases hstore : repo.store? roleId with
  | none => simpa only [modify, hstore] using h
  | some store =>
      rw [store?_modify hstore]
      split
      · rfl
      · exact h

theorem agree_modify (h : ∀ roleId store, repo.store? roleId = some store → store.SkillsAgree)
    (hstore : repo.store? roleId = some store) (hf : (f store).SkillsAgree) :
    ∀ other found, (repo.modify roleId f).store? other = some found → found.SkillsAgree := by
  intro other found hfound
  rw [store?_modify hstore] at hfound
  split at hfound
  · cases hfound
    exact hf
  · exact h other found hfound

end InMemoryRepository

end Newide.Memory
