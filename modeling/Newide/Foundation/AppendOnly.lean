import Mathlib.Order.Lattice

/-!
# Append-only histories

A history files a row under a key of a linear order, and a row once
filed stays.  Rows are only ever filed above the highest key.
-/

universe u v

/-- Rows by key; a key without a row is still free. -/
abbrev History (ι : Type u) (ρ : Type v) := ι → Option ρ

namespace History

variable {ι : Type u} {ρ : Type v} {h k l : History ι ρ} {key top : ι} {row : ρ}

/-- Every row of `h` is a row of `k`. -/
def Extends (h k : History ι ρ) : Prop :=
  ∀ key row, h key = some row → k key = some row

theorem Extends.refl (h : History ι ρ) : h.Extends h :=
  fun _ _ hrow => hrow

theorem Extends.trans (hk : h.Extends k) (kl : k.Extends l) : h.Extends l :=
  fun key row hrow => kl key row (hk key row hrow)

section Ordered

variable [LinearOrder ι]

/-- File `row` under `key`. -/
def file (h : History ι ρ) (key : ι) (row : ρ) : History ι ρ :=
  fun other => if other = key then some row else h other

@[simp] theorem file_self : h.file key row key = some row :=
  if_pos rfl

theorem file_ne {other : ι} (hne : other ≠ key) : h.file key row other = h other :=
  if_neg hne

/-- No row is filed above `top`. -/
def Below (h : History ι ρ) (top : ι) : Prop :=
  ∀ key row, h key = some row → key ≤ top

theorem Below.free (hb : h.Below top) (hlt : top < key) : h key = none := by
  cases hrow : h key with
  | none => rfl
  | some row => exact absurd hlt (not_lt.mpr (hb key row hrow))

theorem Below.extends_file (hb : h.Below top) (hlt : top < key) (row : ρ) :
    h.Extends (h.file key row) := by
  intro other old hold
  have hne : other ≠ key := ne_of_lt (lt_of_le_of_lt (hb other old hold) hlt)
  rw [file_ne hne]
  exact hold

theorem Below.file (hb : h.Below top) (hlt : top < key) (row : ρ) : (h.file key row).Below key := by
  intro other old hold
  by_cases heq : other = key
  · exact le_of_eq heq
  · rw [file_ne heq] at hold
    exact le_of_lt (lt_of_le_of_lt (hb other old hold) hlt)

end Ordered

end History
