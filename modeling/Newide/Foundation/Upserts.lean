import Newide.Foundation.Rows

/-!
# Upserts

`INSERT .. ON CONFLICT (key) DO UPDATE`: a row replaces the one of its
key, or is appended.  What a list of upserts does to the part of a table
that a predicate on keys cuts out is what its entries in that part do;
entries with the keys already there replace them one by one.
-/

namespace Rows

universe u v

variable {α : Type u} {κ : Type v} {key : α → κ} {row : α} {rows entries done : List α} {p : α → Bool}

theorem Distinct.around (hd : Distinct key (done ++ row :: entries)) :
    (∀ x ∈ done, key x ≠ key row) ∧ key row ∉ entries.map key := by
  unfold Distinct at hd
  rw [List.map_append, List.nodup_append] at hd
  refine ⟨fun x hx => ?_, (List.nodup_cons.mp hd.2.1).1⟩
  exact hd.2.2 _ (List.mem_map_of_mem hx) _ (List.mem_map_of_mem List.mem_cons_self)

variable (key) [DecidableEq κ]

def upsert (row : α) (rows : List α) : List α :=
  if ∃ old ∈ rows, key old = key row then replace key row rows else rows ++ [row]

def upsertAll (rows entries : List α) : List α :=
  entries.foldl (fun table row => upsert key row table) rows

variable {key}

theorem upsert_new (h : ∀ old ∈ rows, key old ≠ key row) : upsert key row rows = rows ++ [row] :=
  if_neg fun ⟨old, hold, hk⟩ => h old hold hk

theorem Distinct.upsert (hd : Distinct key rows) (row : α) : Distinct key (upsert key row rows) := by
  unfold Rows.upsert
  split
  · exact hd.replace row
  · next hnew =>
      refine hd.append_new fun old hold hk => ?_
      exact hnew ⟨old, hold, hk⟩

theorem filter_upsert (hp : ∀ a b, key a = key b → p a = p b) :
    (upsert key row rows).filter p =
      if p row then upsert key row (rows.filter p) else rows.filter p := by
  have hreplace : (replace key row rows).filter p =
      if p row then replace key row (rows.filter p) else rows.filter p := by
    induction rows with
    | nil => simp [replace]
    | cons old rest ih =>
        simp only [replace, List.map_cons] at ih ⊢
        by_cases hk : key old = key row
        · have hsame : p old = p row := hp old row hk
          by_cases hrow : p row
          · simpa [hk, hsame, hrow] using ih
          · simpa [hk, hsame, hrow] using ih
        · by_cases hold : p old
          · by_cases hrow : p row
            · simpa [hk, hold, hrow] using ih
            · simpa [hk, hold, hrow] using ih
          · simpa [hk, hold] using ih
  unfold upsert
  by_cases hrow : p row
  · have hiff : (∃ old ∈ rows.filter p, key old = key row) ↔ ∃ old ∈ rows, key old = key row := by
      constructor
      · rintro ⟨old, hold, hk⟩
        exact ⟨old, List.mem_of_mem_filter hold, hk⟩
      · rintro ⟨old, hold, hk⟩
        exact ⟨old, List.mem_filter.mpr ⟨hold, (hp old row hk).trans hrow⟩, hk⟩
    by_cases hfound : ∃ old ∈ rows, key old = key row
    · rw [if_pos hfound, if_pos hrow, if_pos (hiff.mpr hfound), hreplace, if_pos hrow]
    · rw [if_neg hfound, if_pos hrow, if_neg (mt hiff.mp hfound), List.filter_append]
      simp [hrow]
  · by_cases hfound : ∃ old ∈ rows, key old = key row
    · rw [if_pos hfound, if_neg hrow, hreplace, if_neg hrow]
    · rw [if_neg hfound, if_neg hrow, List.filter_append]
      simp [hrow]

theorem filter_upsertAll (hp : ∀ a b, key a = key b → p a = p b) :
    (upsertAll key rows entries).filter p = upsertAll key (rows.filter p) (entries.filter p) := by
  induction entries generalizing rows with
  | nil => rfl
  | cons row rest ih =>
      have hstep : (upsertAll key rows (row :: rest)).filter p =
          upsertAll key ((upsert key row rows).filter p) (rest.filter p) := ih
      rw [hstep, filter_upsert hp]
      by_cases hrow : p row
      · rw [if_pos hrow, List.filter_cons_of_pos hrow]
        rfl
      · rw [if_neg hrow, List.filter_cons_of_neg hrow]

theorem upsertAll_append (hd : Distinct key (done ++ entries)) :
    upsertAll key done entries = done ++ entries := by
  induction entries generalizing done with
  | nil => simp [upsertAll]
  | cons row rest ih =>
      have hstep : upsertAll key done (row :: rest) = upsertAll key (upsert key row done) rest := rfl
      rw [hstep, upsert_new hd.around.1, ih (by simpa using hd), List.append_assoc]
      rfl

theorem upsertAll_replace (hd : Distinct key (done ++ entries))
    (hkeys : rows.map key = entries.map key) :
    upsertAll key (done ++ rows) entries = done ++ entries := by
  induction entries generalizing done rows with
  | nil =>
      obtain rfl := List.map_eq_nil_iff.mp hkeys
      rfl
  | cons row rest ih =>
      cases rows with
      | nil => cases hkeys
      | cons old olds =>
          obtain ⟨hold, holds⟩ := List.cons.inj hkeys
          obtain ⟨hdone, hnotin⟩ := hd.around
          have hrest : ∀ x ∈ olds, key x ≠ key row := by
            intro x hx hk
            have hmem : key x ∈ rest.map key := holds ▸ List.mem_map_of_mem hx
            exact hnotin (hk ▸ hmem)
          have hkeep : ∀ xs : List α, (∀ x ∈ xs, key x ≠ key row) → replace key row xs = xs := by
            intro xs hxs
            refine (List.map_congr_left fun x hx => ?_).trans (List.map_id _)
            exact if_neg (hxs x hx)
          have hupsert : upsert key row (done ++ old :: olds) = (done ++ [row]) ++ olds := by
            have hfound : ∃ x ∈ done ++ old :: olds, key x = key row :=
              ⟨old, List.mem_append_right _ List.mem_cons_self, hold⟩
            unfold upsert
            rw [if_pos hfound]
            have hsplit : replace key row (done ++ old :: olds) =
                replace key row done ++ row :: replace key row olds := by
              simp [replace, hold]
            rw [hsplit, hkeep done hdone, hkeep olds hrest, List.append_assoc]
            rfl
          have hstep : upsertAll key (done ++ old :: olds) (row :: rest) =
              upsertAll key (upsert key row (done ++ old :: olds)) rest := rfl
          rw [hstep, hupsert, ih (by simpa using hd) holds, List.append_assoc]
          rfl

end Rows
