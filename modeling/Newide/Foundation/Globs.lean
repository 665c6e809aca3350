/-!
# Glob patterns

A glob is a sequence of units that stand for themselves, of places for one
unit and of places for any number of them.  What a place may stand for is a
parameter, so that a matcher and a language it falls short of can be
compared.
-/

universe u

namespace Globs

inductive Item (α : Type u) where
  | self (a : α)
  | one
  | many

variable {α : Type u}

/-- The word belongs to the language of the glob, where places stand for allowed units. -/
inductive Matches (allowed : α → Prop) : List (Item α) → List α → Prop where
  | nil : Matches allowed [] []
  | self {a : α} {items : List (Item α)} {word : List α} (h : Matches allowed items word) :
      Matches allowed (.self a :: items) (a :: word)
  | one {a : α} {items : List (Item α)} {word : List α} (ha : allowed a)
      (h : Matches allowed items word) : Matches allowed (.one :: items) (a :: word)
  | many {part : List α} {items : List (Item α)} {word : List α} (hpart : ∀ a ∈ part, allowed a)
      (h : Matches allowed items word) : Matches allowed (.many :: items) (part ++ word)

def skip (allowed : α → Bool) (rest : List α → Bool) : List α → Bool
  | [] => rest []
  | a :: word => rest (a :: word) || allowed a && skip allowed rest word

def accepts [DecidableEq α] (allowed : α → Bool) : List (Item α) → List α → Bool
  | [] => List.isEmpty
  | .self a :: items => fun word =>
      match word with
      | [] => false
      | b :: word => decide (a = b) && accepts allowed items word
  | .one :: items => fun word =>
      match word with
      | [] => false
      | b :: word => allowed b && accepts allowed items word
  | .many :: items => skip allowed (accepts allowed items)

variable {items : List (Item α)} {word : List α} {allowed : α → Bool}

theorem Matches.mono {allowed more : α → Prop} (hle : ∀ a, allowed a → more a)
    (h : Matches allowed items word) : Matches more items word := by
  induction h with
  | nil => exact .nil
  | self _ ih => exact .self ih
  | one ha _ ih => exact .one (hle _ ha) ih
  | many hpart _ ih => exact .many (fun a ha => hle a (hpart a ha)) ih

theorem skip_iff {rest : List α → Bool} :
    skip allowed rest word = true ↔
      ∃ part behind, word = part ++ behind ∧ (∀ a ∈ part, allowed a = true) ∧
        rest behind = true := by
  induction word with
  | nil =>
      constructor
      · intro h
        exact ⟨[], [], rfl, fun _ ha => (by cases ha), h⟩
      · rintro ⟨part, behind, hword, _, h⟩
        obtain ⟨rfl, rfl⟩ := List.append_eq_nil_iff.mp hword.symm
        exact h
  | cons a word ih =>
      unfold skip
      rw [Bool.or_eq_true, Bool.and_eq_true, ih]
      constructor
      · rintro (h | ⟨ha, part, behind, rfl, hpart, h⟩)
        · exact ⟨[], a :: word, rfl, fun _ ha => (by cases ha), h⟩
        · refine ⟨a :: part, behind, rfl, fun b hb => ?_, h⟩
          rcases List.mem_cons.mp hb with rfl | hb
          · exact ha
          · exact hpart b hb
      · rintro ⟨part, behind, hword, hpart, h⟩
        cases part with
        | nil =>
            rw [show a :: word = behind from hword]
            exact .inl h
        | cons b part =>
            obtain ⟨rfl, rfl⟩ := List.cons.inj hword
            exact .inr ⟨hpart a List.mem_cons_self, part, behind, rfl,
              fun c hc => hpart c (List.mem_cons_of_mem a hc), h⟩

theorem accepts_iff [DecidableEq α] :
    accepts allowed items word = true ↔ Matches (fun a => allowed a = true) items word := by
  induction items generalizing word with
  | nil =>
      constructor
      · intro h
        rw [List.isEmpty_iff.mp h]
        exact .nil
      · rintro ⟨⟩
        rfl
  | cons item items ih =>
      cases item with
      | self a =>
          constructor
          · intro h
            cases word with
            | nil => cases h
            | cons b word =>
                obtain ⟨hab, hrest⟩ := Bool.and_eq_true_iff.mp h
                rw [← of_decide_eq_true hab]
                exact .self (ih.mp hrest)
          · rintro (_ | h)
            exact Bool.and_eq_true_iff.mpr ⟨decide_eq_true rfl, ih.mpr h⟩
      | one =>
          constructor
          · intro h
            cases word with
            | nil => cases h
            | cons b word =>
                obtain ⟨hb, hrest⟩ := Bool.and_eq_true_iff.mp h
                exact .one hb (ih.mp hrest)
          · intro h
            cases h with
            | one ha h => exact Bool.and_eq_true_iff.mpr ⟨ha, ih.mpr h⟩
      | many =>
          constructor
          · intro h
            obtain ⟨part, behind, rfl, hpart, hrest⟩ := skip_iff.mp h
            exact .many hpart (ih.mp hrest)
          · intro h
            cases h with
            | many hpart h => exact skip_iff.mpr ⟨_, _, rfl, hpart, ih.mpr h⟩

end Globs
