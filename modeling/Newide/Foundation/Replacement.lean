import Mathlib.Data.List.Basic

/-!
# Replacing matches in a text

Going through a text from the left, each match is replaced by what is
written for it and the search goes on behind it; everything else is copied.
-/

universe u

namespace Replacement

/-- What is written for the match that a text begins with, and the text after the match. -/
structure Matcher (α : Type u) where
  read : List α → Option (List α × List α)
  shorter : ∀ {text out rest}, read text = some (out, rest) → rest.length < text.length

variable {α : Type u} (m : Matcher α)

/-- The replacement in a text that is no longer than this. -/
def replaceWithin : Nat → List α → List α
  | 0, _ => []
  | _ + 1, [] => []
  | n + 1, a :: text =>
      match m.read (a :: text) with
      | some (out, rest) => out ++ replaceWithin n rest
      | none => a :: replaceWithin n text

def replaceAll (text : List α) : List α := replaceWithin m text.length text

variable {m} {a : α} {text out rest : List α}

theorem replaceWithin_cons (n : Nat) : replaceWithin m (n + 1) (a :: text) =
    match m.read (a :: text) with
    | some (out, rest) => out ++ replaceWithin m n rest
    | none => a :: replaceWithin m n text := rfl

theorem replaceWithin_congr {n k : Nat} (hn : text.length ≤ n) (hk : text.length ≤ k) :
    replaceWithin m n text = replaceWithin m k text := by
  induction n generalizing k text with
  | zero =>
      obtain rfl : text = [] := List.eq_nil_of_length_eq_zero (Nat.le_zero.mp hn)
      cases k <;> rfl
  | succ n ih =>
      cases text with
      | nil => cases k <;> rfl
      | cons a text =>
          obtain ⟨k, rfl⟩ : ∃ j, k = j + 1 := ⟨k - 1, by grind⟩
          rw [replaceWithin_cons, replaceWithin_cons]
          cases hread : m.read (a :: text) with
          | none =>
              dsimp only
              rw [@ih text k (by grind) (by grind)]
          | some found =>
              obtain ⟨out, rest⟩ := found
              have hshorter := m.shorter hread
              dsimp only
              rw [@ih rest k (by grind) (by grind)]

theorem replaceAll_of_match (h : m.read text = some (out, rest)) :
    replaceAll m text = out ++ replaceAll m rest := by
  have hshorter := m.shorter h
  cases text with
  | nil => cases hshorter
  | cons a text =>
      unfold replaceAll
      rw [List.length_cons, replaceWithin_cons, h]
      dsimp only
      rw [replaceWithin_congr (Nat.le_of_lt_succ hshorter) (Nat.le_refl _)]

theorem replaceAll_of_none (h : m.read (a :: text) = none) :
    replaceAll m (a :: text) = a :: replaceAll m text := by
  unfold replaceAll
  rw [List.length_cons, replaceWithin_cons, h]

theorem replaceAll_append {part : List α}
    (h : ∀ before after, part = before ++ after → after ≠ [] → m.read (after ++ rest) = none) :
    replaceAll m (part ++ rest) = part ++ replaceAll m rest := by
  induction part with
  | nil => rfl
  | cons a part ih =>
      have hnone := h [] (a :: part) rfl (List.cons_ne_nil a part)
      rw [List.cons_append] at hnone
      rw [List.cons_append, replaceAll_of_none hnone, List.cons_append, ih]
      exact fun before after hpart => h (a :: before) after (congrArg (a :: ·) hpart)

theorem first_match (m : Matcher α) (part rest : List α) :
    (∀ before after, part = before ++ after → after ≠ [] → m.read (after ++ rest) = none) ∨
      ∃ before after found, part = before ++ after ∧ after ≠ [] ∧
        m.read (after ++ rest) = some found ∧
          replaceAll m (part ++ rest) = before ++ replaceAll m (after ++ rest) := by
  induction part with
  | nil =>
      refine .inl fun before after hpart hafter => ?_
      exact absurd (List.append_eq_nil_iff.mp hpart.symm).2 hafter
  | cons a part ih =>
      cases hread : m.read (a :: part ++ rest) with
      | some found => exact .inr ⟨[], a :: part, found, rfl, List.cons_ne_nil a part, hread, rfl⟩
      | none =>
          rcases ih with hnone | ⟨before, after, found, hpart, hafter, hmatch, hcopied⟩
          · refine .inl fun before after hpart hafter => ?_
            cases before with
            | nil =>
                rw [← show a :: part = after from hpart]
                exact hread
            | cons b before =>
                exact hnone before after (List.cons.inj hpart).2 hafter
          · refine .inr ⟨a :: before, after, found, congrArg (a :: ·) hpart, hafter, hmatch, ?_⟩
            have hcopy : replaceAll m (a :: part ++ rest) = a :: replaceAll m (part ++ rest) :=
              replaceAll_of_none hread
            rw [hcopy, hcopied]
            rfl

end Replacement
