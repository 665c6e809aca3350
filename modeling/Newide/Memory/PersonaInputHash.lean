import Newide.Foundation.Collation
import Newide.Foundation.Tables
import Newide.Hook.Loader
import Newide.Memory.Experiences

/-!
# The hash of Persona inputs

`personaEvolutionInputSnapshotHash` of
`src/memory/services/persona-evolution-candidates.ts` over the snapshots
of `src/memory/ports/persona-evolution-strategy.ts`: the entries are
sorted by id and their fields joined with two unprintable separators, the
tags of an entry with commas.

Nothing is escaped.  Without separators in the texts the hash still takes
two tags for one with a comma, no tag for an empty one, and keeps entries
apart by order whose ids `localeCompare` calls equal.
-/

namespace Newide.Memory.InputHash

open Collation Tables Hook

/-! ## Snapshots -/

inductive ReviewStatus where
  | pending | approved | rejected

inductive MarketStatus where
  | available | superseded | retiredUnique

structure SkillSnapshot where
  id : String
  description : String
  content : String
  tags : List String
  reviewStatus : ReviewStatus
  marketStatus : Option MarketStatus := none
  updatedAt : String

universe u
variable {ν : Type u}

structure ExperienceSnapshot (ν : Type u) where
  id : String
  description : String
  content : String
  tags : List String
  type : ExperienceType
  confidence : ν
  updatedAt : String

structure FeedbackSummary (ν : Type u) where
  appliedFeedbackCount : ν
  averageConfidence : ν
  lastFeedbackAt : Option String := none

/-- `PersonaEvolutionInputSnapshot` -/
structure InputSnapshot (ν : Type u) where
  roleId : String
  skills : List SkillSnapshot := []
  experiences : List (ExperienceSnapshot ν) := []
  feedback : Option (FeedbackSummary ν) := none

/-! ## The hash -/

def ReviewStatus.text : ReviewStatus → String
  | .pending => "pending"
  | .approved => "approved"
  | .rejected => "rejected"

def MarketStatus.text : MarketStatus → String
  | .available => "available"
  | .superseded => "superseded"
  | .retiredUnique => "retired_unique"

def experienceTypeText : ExperienceType → String
  | .positive => "positive"
  | .negative => "negative"

/-- The digest of a text, the order of texts in the language of the platform, and `String(n)`. -/
structure HashPorts (ν : Type u) where
  sha256 : String → String
  localeCompare : String → String → Ordering
  numberText : ν → String

/-- `[...tags].sort().join(',')`, in the order of the code units. -/
def tagsText (tags : List String) : String :=
  ",".intercalate (sortOn compare codeUnits tags)

def skillRow (skill : SkillSnapshot) : List String :=
  [skill.id, skill.reviewStatus.text, (skill.marketStatus.map MarketStatus.text).getD "",
    skill.description, skill.content, tagsText skill.tags, skill.updatedAt]

def experienceRow (ports : HashPorts ν) (experience : ExperienceSnapshot ν) : List String :=
  [experience.id, experienceTypeText experience.type, ports.numberText experience.confidence,
    experience.description, experience.content, tagsText experience.tags, experience.updatedAt]

def feedbackRow (ports : HashPorts ν) : Option (FeedbackSummary ν) → List String
  | none => ["feedback:absent"]
  | some feedback =>
      ["feedback", ports.numberText feedback.appliedFeedbackCount,
        ports.numberText feedback.averageConfidence, feedback.lastFeedbackAt.getD ""]

def parts (ports : HashPorts ν) (snapshot : InputSnapshot ν) : List (List String) :=
  let skills := sortOn ports.localeCompare SkillSnapshot.id snapshot.skills
  let experiences := sortOn ports.localeCompare ExperienceSnapshot.id snapshot.experiences
  [["persona-evolution.v1"], [snapshot.roleId], ["skills:" ++ toString skills.length]] ++
    skills.map skillRow ++ [["experiences:" ++ toString experiences.length]] ++
    experiences.map (experienceRow ports) ++ [feedbackRow ports snapshot.feedback]

def personaEvolutionInputSnapshotHash (ports : HashPorts ν) (snapshot : InputSnapshot ν) : String :=
  ports.sha256 (table '\u001e' '\u001f' (parts ports snapshot))

/-! ## What the hash is to tell apart -/

/-- The same entry with its tags in another order. -/
def SkillSnapshot.Same (skill other : SkillSnapshot) : Prop :=
  skill.tags.Perm other.tags ∧ { skill with tags := [] } = { other with tags := [] }

def ExperienceSnapshot.Same (experience other : ExperienceSnapshot ν) : Prop :=
  experience.tags.Perm other.tags ∧ { experience with tags := [] } = { other with tags := [] }

def Rearranged {α : Type u} (same : α → α → Prop) (entries others : List α) : Prop :=
  ∃ first second, entries.Perm first ∧ List.Forall₂ same first second ∧ second.Perm others

/-- Equal up to the order of skills, of experiences, and of the tags of an entry. -/
structure Equivalent (snapshot other : InputSnapshot ν) : Prop where
  roleId : snapshot.roleId = other.roleId
  skills : Rearranged SkillSnapshot.Same snapshot.skills other.skills
  experiences : Rearranged ExperienceSnapshot.Same snapshot.experiences other.experiences
  feedback : snapshot.feedback = other.feedback

/-! ## Texts without separators -/

/-- A text without the two separators. -/
def Plain (text : String) : Prop := Free '\u001e' text ∧ Free '\u001f' text

instance (text : String) : Decidable (Plain text) :=
  inferInstanceAs (Decidable (Free '\u001e' text ∧ Free '\u001f' text))

structure SeparatorFree (snapshot : InputSnapshot ν) : Prop where
  roleId : Plain snapshot.roleId
  skills : ∀ skill ∈ snapshot.skills, Plain skill.id ∧ Plain skill.description ∧
    Plain skill.content ∧ (∀ tag ∈ skill.tags, Plain tag) ∧ Plain skill.updatedAt
  experiences : ∀ experience ∈ snapshot.experiences, Plain experience.id ∧
    Plain experience.description ∧ Plain experience.content ∧
    (∀ tag ∈ experience.tags, Plain tag) ∧ Plain experience.updatedAt
  feedback : ∀ feedback ∈ snapshot.feedback, ∀ text ∈ feedback.lastFeedbackAt, Plain text

/-- Of every id the entries whose ids compare as equal have the same rows, in the same order. -/
structure InStep (ports : HashPorts ν) (snapshot other : InputSnapshot ν) : Prop where
  skills : ∀ id, (classOf ports.localeCompare SkillSnapshot.id id snapshot.skills).map skillRow =
    (classOf ports.localeCompare SkillSnapshot.id id other.skills).map skillRow
  experiences : ∀ id, (classOf ports.localeCompare ExperienceSnapshot.id id
      snapshot.experiences).map (experienceRow ports) =
    (classOf ports.localeCompare ExperienceSnapshot.id id other.experiences).map
      (experienceRow ports)

/-- In step, of one role, and with the same feedback, an empty time of it counting as none. -/
structure Alike (ports : HashPorts ν) (snapshot other : InputSnapshot ν) : Prop
    extends InStep ports snapshot other where
  roleId : snapshot.roleId = other.roleId
  feedback : feedbackRow ports snapshot.feedback = feedbackRow ports other.feedback

/-! ## The text and its cells -/

theorem plain_append {first second : String} (h : Plain first) (h' : Plain second) :
    Plain (first ++ second) := by
  unfold Plain Free at *
  simp only [String.toList_append, List.mem_append, not_or]
  exact ⟨⟨h.1, h'.1⟩, ⟨h.2, h'.2⟩⟩

theorem plain_toString (n : Nat) : Plain (toString n) :=
  ⟨fun h => absurd (isDigit_of_mem h) (by decide), fun h => absurd (isDigit_of_mem h) (by decide)⟩

theorem comma : "," = String.singleton ',' := rfl

theorem plain_tagsText {tags : List String} (h : ∀ tag ∈ tags, Plain tag) :
    Plain (tagsText tags) := by
  have hsorted (tag : String) (htag : tag ∈ sortOn compare codeUnits tags) : Plain tag :=
    h tag (mem_sortOn.mp htag)
  rw [tagsText, comma]
  exact ⟨free_intercalate (by decide) fun tag htag => (hsorted tag htag).1,
    free_intercalate (by decide) fun tag htag => (hsorted tag htag).2⟩

theorem plain_reviewStatus (status : ReviewStatus) : Plain status.text := by
  cases status <;> exact ⟨by decide, by decide⟩

theorem plain_marketStatus (status : Option MarketStatus) :
    Plain ((status.map MarketStatus.text).getD "") := by
  cases status with
  | none => exact ⟨by decide, by decide⟩
  | some status => cases status <;> exact ⟨by decide, by decide⟩

theorem plain_experienceType (type : ExperienceType) : Plain (experienceTypeText type) := by
  cases type <;> exact ⟨by decide, by decide⟩

section
variable {ports : HashPorts ν} {snapshot other : InputSnapshot ν}

theorem plain_feedback (hnumbers : ∀ n, Plain (ports.numberText n)) (h : SeparatorFree snapshot) :
    ∀ cell ∈ feedbackRow ports snapshot.feedback, Plain cell := by
  have htime := h.feedback
  cases hfeedback : snapshot.feedback with
  | none =>
      intro cell hcell
      rw [List.mem_singleton.mp hcell]
      exact ⟨by decide, by decide⟩
  | some feedback =>
      have hlast : Plain (feedback.lastFeedbackAt.getD "") := by
        cases htext : feedback.lastFeedbackAt with
        | none => exact ⟨by decide, by decide⟩
        | some text => exact htime feedback hfeedback text htext
      have hname : Plain "feedback" := ⟨by decide, by decide⟩
      simp only [feedbackRow, List.forall_mem_cons, List.not_mem_nil, false_implies, implies_true,
        and_true]
      exact ⟨hname, hnumbers _, hnumbers _, hlast⟩

theorem clear_parts (hnumbers : ∀ n, Plain (ports.numberText n)) (h : SeparatorFree snapshot) :
    Clear '\u001e' '\u001f' (parts ports snapshot) := by
  have hskills : ∀ row ∈ (sortOn ports.localeCompare SkillSnapshot.id snapshot.skills).map skillRow,
      row ≠ [] ∧ ∀ cell ∈ row, Plain cell := by
    intro row hrow
    obtain ⟨skill, hskill, rfl⟩ := List.mem_map.mp hrow
    obtain ⟨hid, hdescription, hcontent, htags, htime⟩ := h.skills skill (mem_sortOn.mp hskill)
    refine ⟨List.cons_ne_nil _ _, ?_⟩
    simp only [skillRow, List.forall_mem_cons, List.not_mem_nil, false_implies, implies_true,
      and_true]
    exact ⟨hid, plain_reviewStatus _, plain_marketStatus _, hdescription, hcontent,
      plain_tagsText htags, htime⟩
  have hexperiences : ∀ row ∈ (sortOn ports.localeCompare ExperienceSnapshot.id
      snapshot.experiences).map (experienceRow ports), row ≠ [] ∧ ∀ cell ∈ row, Plain cell := by
    intro row hrow
    obtain ⟨experience, hexperience, rfl⟩ := List.mem_map.mp hrow
    obtain ⟨hid, hdescription, hcontent, htags, htime⟩ :=
      h.experiences experience (mem_sortOn.mp hexperience)
    refine ⟨List.cons_ne_nil _ _, ?_⟩
    simp only [experienceRow, List.forall_mem_cons, List.not_mem_nil, false_implies, implies_true,
      and_true]
    exact ⟨hid, plain_experienceType _, hnumbers _, hdescription, hcontent, plain_tagsText htags,
      htime⟩
  have hone (cell : String) (hcell : Plain cell) : [cell] ≠ [] ∧ Plain cell :=
    ⟨List.cons_ne_nil _ _, hcell⟩
  have hfeedback : feedbackRow ports snapshot.feedback ≠ [] ∧
      ∀ cell ∈ feedbackRow ports snapshot.feedback, Plain cell := by
    refine ⟨?_, plain_feedback hnumbers h⟩
    cases snapshot.feedback <;> exact List.cons_ne_nil _ _
  have hall : ∀ row ∈ parts ports snapshot, row ≠ [] ∧ ∀ cell ∈ row, Plain cell := by
    have hversion : Plain "persona-evolution.v1" := ⟨by decide, by decide⟩
    have hskillCount : Plain "skills:" := ⟨by decide, by decide⟩
    have hexperienceCount : Plain "experiences:" := ⟨by decide, by decide⟩
    simp only [parts, List.forall_mem_append, List.forall_mem_cons, List.not_mem_nil,
      false_implies, implies_true, and_true]
    exact ⟨⟨⟨⟨⟨hone _ hversion, hone _ h.roleId,
      hone _ (plain_append hskillCount (plain_toString _))⟩, hskills⟩,
      hone _ (plain_append hexperienceCount (plain_toString _))⟩, hexperiences⟩, hfeedback⟩
  exact ⟨List.cons_ne_nil _ _, fun row hrow => (hall row hrow).1,
    fun row hrow cell hcell => (hall row hrow).2 cell hcell⟩

theorem count_inj {label : String} {n m : Nat} (h : label ++ toString n = label ++ toString m) :
    n = m := by
  have hlists := congrArg String.toList h
  rw [String.toList_append, String.toList_append, List.append_cancel_left_eq] at hlists
  exact digits_injective hlists

/-! ## When two hashes are the same -/

theorem Equivalent.alike (h : Equivalent snapshot other) (hstep : InStep ports snapshot other) :
    Alike ports snapshot other where
  toInStep := hstep
  roleId := h.roleId
  feedback := congrArg (feedbackRow ports) h.feedback

variable [Std.TransCmp ports.localeCompare]

theorem rows_eq_iff :
    (sortOn ports.localeCompare SkillSnapshot.id snapshot.skills).map skillRow =
          (sortOn ports.localeCompare SkillSnapshot.id other.skills).map skillRow ∧
        (sortOn ports.localeCompare ExperienceSnapshot.id snapshot.experiences).map
            (experienceRow ports) =
          (sortOn ports.localeCompare ExperienceSnapshot.id other.experiences).map
            (experienceRow ports) ↔
      InStep ports snapshot other := by
  have hid (a b : SkillSnapshot) (h : skillRow a = skillRow b) : a.id = b.id :=
    (List.cons.inj h).1
  have hid' (a b : ExperienceSnapshot ν) (h : experienceRow ports a = experienceRow ports b) :
      a.id = b.id := (List.cons.inj h).1
  rw [sortOn_map_eq_iff hid, sortOn_map_eq_iff hid']
  exact ⟨fun h => ⟨h.1, h.2⟩, fun h => ⟨h.skills, h.experiences⟩⟩

theorem parts_eq_iff : parts ports snapshot = parts ports other ↔ Alike ports snapshot other := by
  unfold parts
  dsimp only
  constructor
  · intro h
    simp only [List.append_assoc, List.cons_append, List.nil_append, List.cons.injEq,
      and_true, true_and] at h
    obtain ⟨hrole, hcount, h⟩ := h
    obtain ⟨hskills, h⟩ := List.append_inj h (by
      rw [List.length_map, List.length_map]
      exact count_inj hcount)
    obtain ⟨_, h⟩ := List.cons.inj h
    obtain ⟨hexperiences, hfeedback⟩ := List.append_inj' h rfl
    exact { toInStep := rows_eq_iff.mp ⟨hskills, hexperiences⟩
            roleId := hrole
            feedback := (List.cons.inj hfeedback).1 }
  · intro h
    obtain ⟨hskills, hexperiences⟩ := rows_eq_iff.mpr h.toInStep
    have hlength := congrArg List.length hskills
    have hlength' := congrArg List.length hexperiences
    rw [List.length_map, List.length_map] at hlength hlength'
    rw [hskills, hexperiences, hlength, hlength', h.roleId, h.feedback]

theorem hash_eq_iff (hsha : Function.Injective ports.sha256)
    (hnumbers : ∀ n, Plain (ports.numberText n)) (h : SeparatorFree snapshot)
    (h' : SeparatorFree other) :
    personaEvolutionInputSnapshotHash ports snapshot =
        personaEvolutionInputSnapshotHash ports other ↔ Alike ports snapshot other := by
  rw [← parts_eq_iff]
  constructor
  · intro hhash
    exact table_inj (by decide) (clear_parts hnumbers h) (clear_parts hnumbers h') (hsha hhash)
  · intro hparts
    rw [personaEvolutionInputSnapshotHash, hparts]
    rfl

end

/-! ## Tags with commas -/

def exactPorts : HashPorts Nat where
  sha256 := id
  localeCompare := fun first second => compare first second
  numberText := fun n => toString n

def tagged (tags : List String) : InputSnapshot Nat where
  roleId := "coder"
  skills := [⟨"skill-1", "Testing", "Write tests first.", tags, .approved, none,
    "2026-01-01T00:00:00.000Z"⟩]

end Newide.Memory.InputHash
