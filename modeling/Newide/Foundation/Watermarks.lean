import Mathlib.Data.List.Sort

/-!
# Reading a log by watermark

A reader keeps the greatest key it has read and asks for what lies above
it.  In a log that is ascending by key it has then read the log up to its
watermark, and it stays so as long as nothing is added at or below it.
-/

namespace Watermarks

universe u v

variable {α : Type u} {κ : Type v} [LinearOrder κ] {key : α → κ} {rows : List α} {row : α} {m : κ}

def upTo (key : α → κ) (m : κ) (rows : List α) : List α :=
  rows.filter fun row => key row ≤ m

def after (key : α → κ) (m : κ) (rows : List α) : List α :=
  rows.filter fun row => m < key row

/-- Each row lies above those before it. -/
def Ascending (key : α → κ) (rows : List α) : Prop :=
  rows.Pairwise fun row next => key row < key next

theorem upTo_eq_nil (h : ∀ row ∈ rows, m < key row) : upTo key m rows = [] :=
  List.filter_eq_nil_iff.mpr fun row hin => by simpa using h row hin

theorem upTo_eq_self (h : ∀ row ∈ rows, key row ≤ m) : upTo key m rows = rows :=
  List.filter_eq_self.mpr fun row hin => by simpa using h row hin

theorem after_eq_self (h : ∀ row ∈ rows, m < key row) : after key m rows = rows :=
  List.filter_eq_self.mpr fun row hin => by simpa using h row hin

theorem upTo_append_after (h : Ascending key rows) : upTo key m rows ++ after key m rows = rows := by
  induction rows with
  | nil => rfl
  | cons row rest ih =>
      obtain ⟨hrow, hrest⟩ := List.pairwise_cons.mp h
      by_cases hle : key row ≤ m
      · have hupTo : upTo key m (row :: rest) = row :: upTo key m rest :=
          List.filter_cons_of_pos (by simpa using hle)
        have hafter : after key m (row :: rest) = after key m rest :=
          List.filter_cons_of_neg (by simpa using hle)
        rw [hupTo, hafter, List.cons_append, ih hrest]
      · have habove (other : α) (hin : other ∈ row :: rest) : m < key other := by
          rcases List.mem_cons.mp hin with rfl | hin
          · exact not_le.mp hle
          · exact (not_le.mp hle).trans (hrow other hin)
        rw [upTo_eq_nil habove, after_eq_self habove, List.nil_append]

theorem upTo_snoc (h : m < key row) : upTo key m (rows ++ [row]) = upTo key m rows := by
  unfold upTo
  rw [List.filter_append, List.filter_cons_of_neg (by simpa using h), List.filter_nil,
    List.append_nil]

theorem Ascending.snoc (h : Ascending key rows) (hrow : ∀ other ∈ rows, key other < key row) :
    Ascending key (rows ++ [row]) := by
  refine List.pairwise_append.mpr ⟨h, List.pairwise_singleton _ _, fun other hother next hnext => ?_⟩
  rw [List.mem_singleton.mp hnext]
  exact hrow other hother

theorem upTo_take {n : ℕ} {last : α} (h : Ascending key rows)
    (hlast : (rows.take n).getLast? = some last) : upTo key (key last) rows = rows.take n := by
  have hsplit : Ascending key (rows.take n ++ rows.drop n) := by rwa [List.take_append_drop]
  obtain ⟨hpage, _, habove⟩ := List.pairwise_append.mp hsplit
  have hupTo : upTo key (key last) (rows.take n) = rows.take n := by
    refine upTo_eq_self fun row hrow => ?_
    obtain ⟨init, hinit⟩ := List.getLast?_eq_some_iff.mp hlast
    rw [hinit] at hrow hpage
    rcases List.mem_append.mp hrow with hrow | hrow
    · exact ((List.pairwise_append.mp hpage).2.2 row hrow last (List.mem_singleton_self _)).le
    · rw [List.mem_singleton.mp hrow]
  have hnone : upTo key (key last) (rows.drop n) = [] :=
    upTo_eq_nil fun row hrow => habove last (List.mem_of_getLast? hlast) row hrow
  calc upTo key (key last) rows
      = upTo key (key last) (rows.take n ++ rows.drop n) := by rw [List.take_append_drop]
    _ = upTo key (key last) (rows.take n) ++ upTo key (key last) (rows.drop n) :=
        List.filter_append _ _
    _ = rows.take n := by rw [hupTo, hnone, List.append_nil]

theorem mem_upTo : row ∈ upTo key m rows ↔ row ∈ rows ∧ key row ≤ m := by
  simp [upTo]

end Watermarks
