import Mathlib.Data.List.Induction
import Mathlib.Data.List.Nodup
import Mathlib.Data.List.Sort

/-!
# Keyed rows

A table is a list of rows with a key.  `lookup` finds the row of a key
and `replace` overwrites it in place.  When the keys are distinct a row
is determined by its key, and the lemmas here say what a replacement
does to membership, to lookups and to a filtered view of the table.
-/

namespace Rows

universe u v

variable {α : Type u} {κ : Type v} (key : α → κ)

/-- The first row with key `k`. -/
def lookup [DecidableEq κ] (k : κ) (rows : List α) : Option α :=
  rows.find? fun row => key row = k

/-- Overwrite the row that has the key of `row`. -/
def replace [DecidableEq κ] (row : α) (rows : List α) : List α :=
  rows.map fun old => if key old = key row then row else old

/-- No two rows share a key. -/
def Distinct (rows : List α) : Prop :=
  (rows.map key).Nodup

variable {key}

variable {rows : List α}

theorem Distinct.eq_of_key (hd : Distinct key rows) {a b : α}
    (ha : a ∈ rows) (hb : b ∈ rows) (hk : key a = key b) : a = b :=
  List.inj_on_of_nodup_map hd ha hb hk

variable {rows' : List α} {old : α}

theorem Distinct.of_perm (hp : rows.Perm rows') (hd : Distinct key rows) :
    Distinct key rows' :=
  (hp.map key).nodup_iff.mp hd

theorem Distinct.nil : Distinct key ([] : List α) := List.nodup_nil

variable {row : α}

theorem Distinct.append_new (hd : Distinct key rows)
    (hnew : ∀ old ∈ rows, key old ≠ key row) : Distinct key (rows ++ [row]) := by
  unfold Distinct
  rw [List.map_append, List.nodup_append]
  refine ⟨hd, List.nodup_singleton _, ?_⟩
  intro k hk k' hk' heq
  obtain ⟨old, hold, rfl⟩ := List.mem_map.mp hk
  obtain rfl := List.mem_singleton.mp hk'
  exact hnew old hold heq

theorem Distinct.filter (hd : Distinct key rows) (p : α → Bool) :
    Distinct key (rows.filter p) :=
  List.Nodup.sublist (List.filter_sublist.map key) hd

variable [DecidableEq κ]

variable {k : κ}

theorem lookup_mem (h : lookup key k rows = some row) : row ∈ rows :=
  List.mem_of_find?_eq_some h

theorem lookup_key (h : lookup key k rows = some row) : key row = k := by
  have := List.find?_some h
  simpa using this

theorem lookup_eq_none :
    lookup key k rows = none ↔ ∀ row ∈ rows, key row ≠ k := by
  simp [lookup, List.find?_eq_none]

theorem Distinct.lookup_of_mem (hd : Distinct key rows)
    (h : row ∈ rows) : lookup key (key row) rows = some row := by
  cases hl : lookup key (key row) rows with
  | none => exact absurd rfl (lookup_eq_none.mp hl row h)
  | some found =>
      rw [hd.eq_of_key (lookup_mem hl) h (lookup_key hl)]

theorem Distinct.lookup_perm (hp : rows.Perm rows') (hd : Distinct key rows) (k : κ) :
    lookup key k rows = lookup key k rows' := by
  cases hl : lookup key k rows with
  | none =>
      have hnone : ∀ row ∈ rows', key row ≠ k := fun row hrow =>
        lookup_eq_none.mp hl row (hp.mem_iff.mpr hrow)
      exact (lookup_eq_none.mpr hnone).symm
  | some row =>
      have hmem := (hp.mem_iff).mp (lookup_mem hl)
      have hkey := lookup_key hl
      rw [← hkey]
      exact ((hd.of_perm hp).lookup_of_mem hmem).symm

@[simp] theorem replace_keys {row : α} {rows : List α} :
    (replace key row rows).map key = rows.map key := by
  simp only [replace, List.map_map]
  refine List.map_congr_left fun old _ => ?_
  by_cases h : key old = key row
  · simp [h]
  · simp [h]

theorem Distinct.replace (hd : Distinct key rows) (row : α) :
    Distinct key (replace key row rows) := by
  unfold Distinct
  rw [replace_keys]
  exact hd

theorem mem_replace {x : α} :
    x ∈ replace key row rows ↔
      (x = row ∧ ∃ old ∈ rows, key old = key row) ∨ (x ∈ rows ∧ key x ≠ key row) := by
  simp only [replace, List.mem_map]
  constructor
  · rintro ⟨old, hold, rfl⟩
    by_cases h : key old = key row
    · exact .inl ⟨by simp [h], old, hold, h⟩
    · exact .inr ⟨by simpa [h] using hold, by simp [h]⟩
  · rintro (⟨rfl, old, hold, h⟩ | ⟨hx, h⟩)
    · exact ⟨old, hold, by simp [h]⟩
    · exact ⟨x, hx, by simp [h]⟩

theorem lookup_replace_self (hd : Distinct key rows) (hold : old ∈ rows) (hk : key old = key row) :
    lookup key (key row) (replace key row rows) = some row :=
  (hd.replace row).lookup_of_mem (mem_replace.mpr (.inl ⟨rfl, old, hold, hk⟩))

theorem lookup_replace_ne (h : k ≠ key row) :
    lookup key k (replace key row rows) = lookup key k rows := by
  unfold lookup replace
  induction rows with
  | nil => rfl
  | cons old rest ih =>
      by_cases ho : key old = key row
      · have hne : ¬ key old = k := fun hk => h (hk.symm.trans ho)
        have hne' : ¬ key row = k := fun hk => h hk.symm
        simp [ho, hne', ih]
      · simp only [List.map_cons, ho, if_false, List.find?_cons, ih]

theorem Distinct.replace_perm (hd : Distinct key rows) (hold : old ∈ rows) (hk : key old = key row) :
    
    ∃ rest, rows.Perm (old :: rest) ∧ (Rows.replace key row rows).Perm (row :: rest) := by
  induction rows with
  | nil => cases hold
  | cons first tail ih =>
      have hdt : Distinct key tail := (List.nodup_cons.mp hd).2
      have hnotin : key first ∉ tail.map key := (List.nodup_cons.mp hd).1
      by_cases hf : key first = key row
      · have hfirst : first = old :=
          hd.eq_of_key List.mem_cons_self hold (hf.trans hk.symm)
        have htail : tail.map (fun x => if key x = key row then row else x) = tail := by
          conv_rhs => rw [← List.map_id tail]
          refine List.map_congr_left fun x hx => ?_
          have : key x ≠ key row := fun hx' =>
            hnotin (List.mem_map.mpr ⟨x, hx, hx'.trans hf.symm⟩)
          simp [this]
        refine ⟨tail, hfirst ▸ .refl _, ?_⟩
        simp only [Rows.replace, List.map_cons, if_pos hf, htail]
        exact .refl _
      · have hmem : old ∈ tail := by
          rcases List.mem_cons.mp hold with rfl | h
          · exact absurd hk hf
          · exact h
        obtain ⟨rest, hp, hp'⟩ := ih hdt hmem
        refine ⟨first :: rest, (hp.cons first).trans (.swap ..), ?_⟩
        simp only [Rows.replace, List.map_cons, if_neg hf] at hp' ⊢
        exact (hp'.cons first).trans (.swap ..)

/-! ## Updating, inserting and removing -/

/-- Change the row of `k`. -/
def update (key : α → κ) (k : κ) (f : α → α) (rows : List α) : List α :=
  rows.map fun row => if key row = k then f row else row

variable {f : α → α} {μ : Type v} {newer : α → α → Bool} {other : α → μ}

theorem Distinct.update (hd : Distinct other rows) (hf : ∀ row, other (f row) = other row) :
    Distinct other (Rows.update key k f rows) := by
  have hkeys : (Rows.update key k f rows).map other = rows.map other := by
    simp only [Rows.update, List.map_map]
    refine List.map_congr_left fun row _ => ?_
    by_cases h : key row = k
    · simp [h, hf]
    · simp [h]
  unfold Distinct
  rw [hkeys]
  exact hd

theorem lookup_update {k' : κ} (hf : ∀ row, key (f row) = key row) :
    lookup key k' (update key k f rows) =
      if k' = k then (lookup key k' rows).map f else lookup key k' rows := by
  induction rows with
  | nil => simp [lookup, update]
  | cons row rest ih =>
      simp only [lookup, update, List.map_cons, List.find?_cons] at ih ⊢
      by_cases hk : key row = k
      · by_cases hk' : k' = k
        · subst hk'
          simp [hk, hf]
        · have hne : ¬ key row = k' := fun h => hk' (h.symm.trans hk)
          have hne' : ¬ k = k' := fun h => hk' h.symm
          simpa [hk, hf, hne', hk'] using ih
      · by_cases hk' : key row = k'
        · have hne : ¬ k' = k := fun h => hk (hk'.trans h)
          simp [hk', hne]
        · simpa [hk, hk'] using ih

theorem lookup_update_other [DecidableEq μ] {m : μ} (hf : ∀ row, other (f row) = other row) :
    lookup other m (update key k f rows) =
      (lookup other m rows).map fun row => if key row = k then f row else row := by
  induction rows with
  | nil => rfl
  | cons row rest ih =>
      simp only [lookup, update, List.map_cons, List.find?_cons] at ih ⊢
      by_cases hk : key row = k
      · by_cases hm : other row = m
        · simp [hk, hf, hm]
        · simpa [hk, hf, hm] using ih
      · by_cases hm : other row = m
        · simp [hk, hm]
        · simpa [hk, hm] using ih

theorem lookup_append_new (hnew : lookup key (key row) rows = none) :
    lookup key k (rows ++ [row]) = if k = key row then some row else lookup key k rows := by
  simp only [lookup, List.find?_append, List.find?_singleton] at hnew ⊢
  by_cases hk : k = key row
  · subst hk
    simp [hnew]
  · have hne : ¬ key row = k := fun h => hk h.symm
    simp [hk, hne]

theorem Distinct.lookup_filter (hd : Distinct key rows) {p : α → Bool} :
    lookup key k (rows.filter p) = (lookup key k rows).filter p := by
  cases hl : lookup key k (rows.filter p) with
  | some row =>
      have hmem := List.mem_filter.mp (lookup_mem hl)
      have hrow : lookup key k rows = some row := lookup_key hl ▸ hd.lookup_of_mem hmem.1
      rw [hrow, Option.filter_some_pos hmem.2]
  | none =>
      cases hr : lookup key k rows with
      | none => rfl
      | some row =>
          have hp : ¬ p row = true := fun hp =>
            lookup_eq_none.mp hl row (List.mem_filter.mpr ⟨lookup_mem hr, hp⟩) (lookup_key hr)
          simp [Option.filter, hp]

/-! ## The newest row -/

/-- The row that `newer` prefers to every other, the later one on a tie. -/
def newest (newer : α → α → Bool) (rows : List α) : Option α :=
  rows.foldl (fun best row =>
    match best with
    | none => some row
    | some b => if newer row b then some row else some b) none

theorem newest_append_singleton :
    newest newer (rows ++ [row]) =
      match newest newer rows with
      | none => some row
      | some b => if newer row b then some row else some b := by
  simp only [newest, List.foldl_append, List.foldl_cons, List.foldl_nil]

theorem newest_mem (h : newest newer rows = some row) : row ∈ rows := by
  induction rows using List.reverseRecOn generalizing row with
  | nil => cases h
  | append_singleton init last ih =>
      rw [newest_append_singleton] at h
      cases hb : newest newer init with
      | none =>
          rw [hb] at h
          cases h
          exact List.mem_append_right _ (List.mem_singleton_self _)
      | some b =>
          simp only [hb] at h
          split at h
          · cases h
            exact List.mem_append_right _ (List.mem_singleton_self _)
          · cases h
            exact List.mem_append_left _ (ih hb)

theorem newest_append_of_newer (h : ∀ b ∈ rows, newer row b = true) :
    newest newer (rows ++ [row]) = some row := by
  rw [newest_append_singleton]
  cases hb : newest newer rows with
  | none => rfl
  | some b => simp [h b (newest_mem hb)]

end Rows
