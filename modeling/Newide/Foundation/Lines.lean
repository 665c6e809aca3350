import Mathlib.Data.List.Basic

/-!
# Lines of what comes in chunks

A sequence split at its line ends, and the lines of a sequence of chunks,
each line as the pieces that the chunks hold of it.
-/

universe u v

namespace Lines

variable {α : Type u} {β : Type v}

abbrev Split (α : Type u) := List α × α

def Split.map (f : α → β) (split : Split α) : Split β := (split.1.map f, f split.2)

def joinLines (ending : α) (split : Split (List α)) : List α :=
  split.1.flatMap (fun line => line ++ [ending]) ++ split.2

structure Parted (ending : α) (split : Split (List α)) : Prop where
  lines : ∀ line ∈ split.1, ending ∉ line
  rest : ending ∉ split.2

variable [DecidableEq α] {ending : α} {l l' : List α}

def splitLines (ending : α) : List α → Split (List α)
  | [] => ([], [])
  | a :: l =>
      let (lines, rest) := splitLines ending l
      if a = ending then ([] :: lines, rest)
      else
        match lines with
        | [] => ([], a :: rest)
        | line :: lines => ((a :: line) :: lines, rest)

def pieceLines (ending : α) : List (List α) → Split (List (List α))
  | [] => ([], [])
  | chunk :: chunks =>
      let (lines, rest) := splitLines ending chunk
      match pieceLines ending chunks with
      | ([], last) => (lines.map fun line => [line], rest :: last)
      | (first :: more, last) => ((lines.map fun line => [line]) ++ (rest :: first) :: more, last)

/-! ## Splitting and joining -/

theorem join_split (l : List α) : joinLines ending (splitLines ending l) = l := by
  induction l with
  | nil => rfl
  | cons a l ih =>
      unfold joinLines at ih
      rw [splitLines]
      by_cases h : a = ending
      · simp [joinLines, h, ih]
      · simp only [if_neg h]
        cases hlines : (splitLines ending l).1 with
        | nil =>
            rw [hlines] at ih
            simpa [joinLines] using ih
        | cons line lines =>
            rw [hlines] at ih
            simpa [joinLines] using ih

theorem parted_split (l : List α) : Parted ending (splitLines ending l) := by
  induction l with
  | nil => exact ⟨fun _ h => (by cases h), List.not_mem_nil⟩
  | cons a l ih =>
      obtain ⟨hlines, hrest⟩ := ih
      rw [splitLines]
      by_cases h : a = ending
      · simp only [if_pos h]
        exact ⟨List.forall_mem_cons.mpr ⟨List.not_mem_nil, hlines⟩, hrest⟩
      · have hnot (line : List α) (hline : ending ∉ line) : ending ∉ a :: line :=
          List.not_mem_cons_of_ne_of_not_mem (Ne.symm h) hline
        simp only [if_neg h]
        cases hsplit : (splitLines ending l).1 with
        | nil => exact ⟨fun _ h => (by cases h), hnot _ hrest⟩
        | cons line lines =>
            rw [hsplit, List.forall_mem_cons] at hlines
            exact ⟨List.forall_mem_cons.mpr ⟨hnot _ hlines.1, hlines.2⟩, hrest⟩

theorem split_rest {rest : List α} (h : ending ∉ rest) : splitLines ending rest = ([], rest) := by
  induction rest with
  | nil => rfl
  | cons a rest ih =>
      obtain ⟨hfirst, hrest⟩ := List.ne_and_not_mem_of_not_mem_cons h
      rw [splitLines, ih hrest]
      exact if_neg (Ne.symm hfirst)

theorem split_line {line : List α} (h : ending ∉ line) :
    splitLines ending (line ++ ending :: l) =
      (line :: (splitLines ending l).1, (splitLines ending l).2) := by
  induction line with
  | nil => exact if_pos rfl
  | cons a line ih =>
      obtain ⟨hfirst, hrest⟩ := List.ne_and_not_mem_of_not_mem_cons h
      rw [List.cons_append, splitLines, ih hrest]
      exact if_neg (Ne.symm hfirst)

theorem split_join {split : Split (List α)} (h : Parted ending split) :
    splitLines ending (joinLines ending split) = split := by
  obtain ⟨lines, rest⟩ := split
  obtain ⟨hlines, hrest⟩ := h
  induction lines with
  | nil => exact split_rest hrest
  | cons line lines ih =>
      obtain ⟨hfirst, hmore⟩ := List.forall_mem_cons.mp hlines
      have hjoin : joinLines ending (line :: lines, rest) =
          line ++ ending :: joinLines ending (lines, rest) := by
        simp [joinLines]
      rw [hjoin, split_line hfirst, ih hmore hrest]

theorem splitLines_append : splitLines ending (l ++ l') =
    ((splitLines ending l).1 ++ (splitLines ending ((splitLines ending l).2 ++ l')).1,
      (splitLines ending ((splitLines ending l).2 ++ l')).2) := by
  have hfirst : Parted ending (splitLines ending l) := parted_split l
  have hrest := @parted_split _ _ ending ((splitLines ending l).2 ++ l')
  have hparted : Parted ending
      ((splitLines ending l).1 ++ (splitLines ending ((splitLines ending l).2 ++ l')).1,
        (splitLines ending ((splitLines ending l).2 ++ l')).2) :=
    ⟨List.forall_mem_append.mpr ⟨hfirst.lines, hrest.lines⟩, hrest.rest⟩
  have hjoin := @join_split _ _ ending l
  have hmore := @join_split _ _ ending ((splitLines ending l).2 ++ l')
  rw [← split_join hparted]
  congr 1
  unfold joinLines at hjoin hmore ⊢
  rw [List.flatMap_append, List.append_assoc, hmore, ← List.append_assoc, hjoin]

/-! ## Lines in pieces -/

theorem flatMap_pieceLines {β : Type v} {f : List α → List β} {ending' : β}
    (h : ∀ chunk, f chunk = joinLines ending' ((splitLines ending chunk).map f))
    (chunks : List (List α)) :
    chunks.flatMap f =
      joinLines ending' ((pieceLines ending chunks).map fun pieces => pieces.flatMap f) := by
  induction chunks with
  | nil => rfl
  | cons chunk chunks ih =>
      rw [List.flatMap_cons, h chunk, ih, pieceLines]
      cases hpieces : pieceLines ending chunks with
      | mk more last =>
          cases more with
          | nil => simp [joinLines, Split.map, List.flatMap_map, List.append_assoc]
          | cons first more => simp [joinLines, Split.map, List.flatMap_map, List.append_assoc]

theorem flatten_pieceLines (chunks : List (List α)) :
    chunks.flatten = joinLines ending ((pieceLines ending chunks).map List.flatten) := by
  have hchunk (chunk : List α) : id chunk =
      joinLines ending ((splitLines ending chunk).map id) := by
    rw [Split.map, List.map_id]
    exact (join_split chunk).symm
  have h := flatMap_pieceLines hchunk chunks
  simpa only [List.flatMap_id] using h

theorem parted_pieceLines (chunks : List (List α)) :
    Parted ending ((pieceLines ending chunks).map List.flatten) := by
  induction chunks with
  | nil => exact ⟨fun _ h => (by cases h), List.not_mem_nil⟩
  | cons chunk chunks ih =>
      obtain ⟨hlines, hrest⟩ := @parted_split _ _ ending chunk
      have hones : ∀ line ∈ ((splitLines ending chunk).1.map fun line => [line]).map List.flatten,
          ending ∉ line := by
        simpa using hlines
      rw [pieceLines]
      cases hpieces : pieceLines ending chunks with
      | mk more last =>
          rw [hpieces] at ih
          have hlast : ending ∉ last.flatten := ih.rest
          have hmore := ih.lines
          cases more with
          | nil =>
              refine ⟨hones, ?_⟩
              rw [Split.map, List.flatten_cons, List.mem_append, not_or]
              exact ⟨hrest, hlast⟩
          | cons first more =>
              unfold Split.map at hmore ⊢
              rw [List.map_cons, List.forall_mem_cons] at hmore
              refine ⟨?_, hlast⟩
              rw [List.map_append, List.forall_mem_append, List.map_cons, List.forall_mem_cons,
                List.flatten_cons, List.mem_append, not_or]
              exact ⟨hones, ⟨hrest, hmore.1⟩, hmore.2⟩

end Lines
