import Mathlib.Data.List.Basic

/-!
# Tables as text

Rows of cells joined by two separators.  Where no cell contains a
separator the text determines the cells.
-/

namespace Tables

/-- The cells of a row joined by the one separator, the rows by the other. -/
def table (rowEnd cellEnd : Char) (rows : List (List String)) : String :=
  (String.singleton rowEnd).intercalate (rows.map (String.singleton cellEnd).intercalate)

def Free (c : Char) (text : String) : Prop := c ∉ text.toList

instance (c : Char) (text : String) : Decidable (Free c text) :=
  inferInstanceAs (Decidable (c ∉ text.toList))

variable {c rowEnd cellEnd : Char} {cells others : List String} {rows others' : List (List String)}

theorem intercalate_inj (hcells : cells ≠ []) (hothers : others ≠ [])
    (hfree : ∀ cell ∈ cells, Free c cell) (hfree' : ∀ cell ∈ others, Free c cell)
    (h : (String.singleton c).intercalate cells = (String.singleton c).intercalate others) :
    cells = others := by
  have hsplit (cells : List String) (hcells : cells ≠ []) (hfree : ∀ cell ∈ cells, Free c cell) :
      ((String.singleton c).intercalate cells).toList.splitOn c = cells.map String.toList := by
    rw [String.toList_intercalate, String.toList_singleton]
    refine List.splitOn_intercalate c (fun l hl => ?_) (by simpa using hcells)
    obtain ⟨cell, hcell, rfl⟩ := List.mem_map.mp hl
    exact hfree cell hcell
  have hlists := (hsplit cells hcells hfree).symm.trans
    ((congrArg (fun text => text.toList.splitOn c) h).trans (hsplit others hothers hfree'))
  exact List.map_injective_iff.mpr (fun _ _ => String.toList_injective) hlists

structure Clear (rowEnd cellEnd : Char) (rows : List (List String)) : Prop where
  some : rows ≠ []
  cells : ∀ row ∈ rows, row ≠ []
  free : ∀ row ∈ rows, ∀ cell ∈ row, Free rowEnd cell ∧ Free cellEnd cell

theorem free_intercalate (hne : c ≠ cellEnd) (h : ∀ cell ∈ cells, Free c cell) :
    Free c ((String.singleton cellEnd).intercalate cells) := by
  unfold Free
  rw [String.toList_intercalate, String.toList_singleton]
  induction cells with
  | nil => simp
  | cons first rest ih =>
      have hfirst := h first List.mem_cons_self
      have hrest := ih fun cell hcell => h cell (List.mem_cons_of_mem _ hcell)
      cases rest with
      | nil => simpa [Free] using hfirst
      | cons second rest =>
          rw [List.map_cons, List.map_cons, List.intercalate_cons_cons]
          rw [List.map_cons] at hrest
          simp only [List.mem_append, List.mem_singleton, not_or]
          exact ⟨⟨hfirst, hne⟩, hrest⟩

theorem table_inj (hne : rowEnd ≠ cellEnd) (h : Clear rowEnd cellEnd rows)
    (h' : Clear rowEnd cellEnd others') (htable : table rowEnd cellEnd rows =
      table rowEnd cellEnd others') : rows = others' := by
  have hfree (rows : List (List String)) (h : Clear rowEnd cellEnd rows) :
      ∀ text ∈ rows.map (String.singleton cellEnd).intercalate, Free rowEnd text := by
    intro text htext
    obtain ⟨row, hrow, rfl⟩ := List.mem_map.mp htext
    exact free_intercalate hne fun cell hcell => (h.free row hrow cell hcell).1
  have hrows := intercalate_inj (by simpa using h.some) (by simpa using h'.some) (hfree rows h)
    (hfree others' h') htable
  have hall (row : List String) (hrow : row ∈ rows) (other : List String) (hother : other ∈ others')
      (hjoin : (String.singleton cellEnd).intercalate row =
        (String.singleton cellEnd).intercalate other) : row = other :=
    intercalate_inj (h.cells row hrow) (h'.cells other hother)
      (fun cell hcell => (h.free row hrow cell hcell).2)
      (fun cell hcell => (h'.free other hother cell hcell).2) hjoin
  clear hfree htable h h'
  induction rows generalizing others' with
  | nil => exact (List.map_eq_nil_iff.mp hrows.symm).symm
  | cons row rows ih =>
      cases others' with
      | nil => cases hrows
      | cons other others' =>
          obtain ⟨hfirst, hrest⟩ := List.cons.inj hrows
          rw [hall row List.mem_cons_self other List.mem_cons_self hfirst,
            ih hrest fun row hrow other hother =>
              hall row (List.mem_cons_of_mem _ hrow) other (List.mem_cons_of_mem _ hother)]

/-! ## Numbers between separators -/

theorem append_separator_inj {α : Type} {c : α} {front front' back back' : List α}
    (h : front ++ c :: back = front' ++ c :: back') (hback : c ∉ back) (hback' : c ∉ back') :
    front = front' ∧ back = back' := by
  induction front generalizing front' with
  | nil =>
      cases front' with
      | nil => exact ⟨rfl, (List.cons.inj h).2⟩
      | cons a front' =>
          have hin := (List.cons.inj h).2
          exact absurd (hin ▸ List.mem_append_right _ (.head _)) hback
  | cons a front ih =>
      cases front' with
      | nil =>
          have hin := (List.cons.inj h).2
          exact absurd (hin ▸ List.mem_append_right _ (.head _)) hback'
      | cons b front' =>
          obtain ⟨rfl, hrest⟩ := List.cons.inj h
          obtain ⟨rfl, rfl⟩ := ih hrest
          exact ⟨rfl, rfl⟩

theorem isDigit_of_mem {n : Nat} {c : Char} (h : c ∈ (toString n).toList) : c.isDigit := by
  rw [Nat.toString_eq_repr, Nat.toList_repr] at h
  exact Nat.isDigit_of_mem_toDigits (by decide) (by decide) h

theorem digits_injective {m n : Nat} (h : (toString m).toList = (toString n).toList) : m = n := by
  rw [Nat.toString_eq_repr, Nat.toString_eq_repr, Nat.toList_repr, Nat.toList_repr] at h
  rw [← Nat.ofDigitChars_ten_toDigits (n := m), h, Nat.ofDigitChars_ten_toDigits]

end Tables
