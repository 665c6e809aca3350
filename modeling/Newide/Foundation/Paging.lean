import Newide.Foundation.Watermarks

/-!
# Reading a log in pages

A reader takes at most so many rows at a time and asks next for the rows
above the last one it took.  What it has read in the end is the log if and
only if every page parts the log: nothing before its end lies above its
last row, and everything behind it does.
-/

namespace Watermarks

universe u v

variable {α : Type u} {κ : Type v} [LinearOrder κ] {key : α → κ} {rows done rest : List α}
  {row last : α} {m : κ} {limit n : ℕ}

theorem mem_after : row ∈ after key m rows ↔ row ∈ rows ∧ m < key row := by
  simp [after]

theorem after_after (h : m ≤ key last) :
    after key (key last) rows = after key (key last) (after key m rows) := by
  unfold after
  rw [List.filter_filter]
  refine List.filter_congr fun other _ => ?_
  by_cases habove : key last < key other
  · simp [habove, h.trans_lt habove]
  · simp [habove]

theorem length_after_lt (h : last ∈ after key m rows) :
    (after key (key last) rows).length < (after key m rows).length := by
  rw [after_after (mem_after.mp h).2.le]
  exact List.length_filter_lt_length_iff_exists.mpr ⟨last, h, by simp⟩

/-- All pages of at most `limit` rows, the first one above `m`. -/
def readPages (key : α → κ) (limit : ℕ) (m : κ) (rows : List α) : List α :=
  match _hlast : ((after key m rows).take limit).getLast? with
  | none => []
  | some last =>
      if limit < (after key m rows).length then
        (after key m rows).take limit ++ readPages key limit (key last) rows
      else (after key m rows).take limit
termination_by (after key m rows).length
decreasing_by exact length_after_lt (List.mem_of_mem_take (List.mem_of_getLast? _hlast))

/-- The rows up to `n` lie at or below the last of them, the others above it. -/
def PartsAt (key : α → κ) (rows : List α) (n : ℕ) : Prop :=
  ∀ last, (rows.take n).getLast? = some last →
    (∀ row ∈ rows.take n, key row ≤ key last) ∧ ∀ row ∈ rows.drop n, key last < key row

theorem readPages_nil (h : after key m rows = []) : readPages key limit m rows = [] := by
  rw [readPages]
  split
  · rfl
  · next last hlast => simp [h] at hlast

theorem readPages_last (h : ¬ limit < (after key m rows).length) :
    readPages key limit m rows = after key m rows := by
  have htake : (after key m rows).take limit = after key m rows :=
    List.take_of_length_le (not_lt.mp h)
  rw [readPages]
  split
  · next hnone => rw [htake, List.getLast?_eq_none_iff] at hnone
                  exact hnone.symm
  · rw [if_neg h, htake]

theorem readPages_more (h : limit < (after key m rows).length)
    (hlast : ((after key m rows).take limit).getLast? = some last) :
    readPages key limit m rows =
      (after key m rows).take limit ++ readPages key limit (key last) rows := by
  rw [readPages]
  split
  · next hnone => rw [hlast] at hnone
                  cases hnone
  · next other hother =>
      rw [hlast] at hother
      cases hother
      exact if_pos h

theorem exists_last (hlimit : 0 < limit) (h : after key m rows ≠ []) :
    ∃ last, ((after key m rows).take limit).getLast? = some last := by
  refine Option.ne_none_iff_exists'.mp fun hnone => ?_
  rw [List.getLast?_eq_none_iff, List.take_eq_nil_iff] at hnone
  rcases hnone with hzero | hnil
  · exact hlimit.ne' hzero
  · exact h hnil

theorem mem_readPages (h : row ∈ readPages key limit m rows) : row ∈ after key m rows := by
  induction m using readPages.induct key limit rows with
  | case1 m hnone =>
      rw [readPages] at h
      split at h
      · cases h
      · next last hlast => rw [hlast] at hnone
                           cases hnone
  | case2 m last hlast hmore ih =>
      rw [readPages_more hmore hlast] at h
      have habove : m < key last :=
        (mem_after.mp (List.mem_of_mem_take (List.mem_of_getLast? hlast))).2
      rcases List.mem_append.mp h with h | h
      · exact List.mem_of_mem_take h
      · obtain ⟨hin, hlt⟩ := mem_after.mp (ih h)
        exact mem_after.mpr ⟨hin, habove.trans hlt⟩
  | case3 m last hlast hmore => rwa [readPages_last hmore] at h

theorem head?_readPages (hlimit : 0 < limit) :
    (readPages key limit m rows).head? = (after key m rows).head? := by
  by_cases hmore : limit < (after key m rows).length
  · have hsome : after key m rows ≠ [] := List.ne_nil_of_length_pos (by omega)
    obtain ⟨last, hlast⟩ := exists_last hlimit hsome
    have hpage : (after key m rows).take limit ≠ [] := by
      intro hnil
      rw [hnil] at hlast
      cases hlast
    rw [readPages_more hmore hlast, List.head?_append_of_ne_nil _ hpage, List.head?_take,
      if_neg hlimit.ne']
  · rw [readPages_last hmore]

theorem after_of_partsAt (h : PartsAt key rows n) (hlast : (rows.take n).getLast? = some last) :
    after key (key last) rows = rows.drop n := by
  obtain ⟨hpage, hrest⟩ := h last hlast
  have hnone : after key (key last) (rows.take n) = [] :=
    List.filter_eq_nil_iff.mpr fun row hrow => by simpa using hpage row hrow
  calc after key (key last) rows
      = after key (key last) (rows.take n ++ rows.drop n) := by rw [List.take_append_drop]
    _ = after key (key last) (rows.take n) ++ after key (key last) (rows.drop n) :=
        List.filter_append _ _
    _ = rows.drop n := by rw [hnone, after_eq_self hrest, List.nil_append]

theorem partsAt_of_readPages (hnodup : rows.Nodup) (hlimit : 0 < limit)
    (hlast : (rows.take n).getLast? = some last)
    (h : readPages key limit (key last) rows = rows.drop n) : PartsAt key rows n := by
  have hdrop : ∀ row ∈ rows.drop n, key last < key row :=
    fun row hrow => (mem_after.mp (mem_readPages (h ▸ hrow))).2
  have hafter : after key (key last) rows = after key (key last) (rows.take n) ++ rows.drop n := by
    conv_lhs => rw [← List.take_append_drop n rows]
    unfold after at hdrop ⊢
    rw [List.filter_append]
    exact congrArg _ (after_eq_self hdrop)
  have hnone : after key (key last) (rows.take n) = [] := by
    cases hpage : after key (key last) (rows.take n) with
    | nil => rfl
    | cons row others =>
        -- the first row that is read would stand on both sides of the end of the page
        have hhead : (readPages key limit (key last) rows).head? =
            (after key (key last) rows).head? := head?_readPages hlimit
        rw [h, hafter, hpage, List.cons_append, List.head?_cons] at hhead
        have htake : row ∈ rows.take n :=
          (mem_after.mp (hpage ▸ List.mem_cons_self : row ∈ after key (key last) _)).1
        have hdisjoint := List.disjoint_of_nodup_append
          ((List.take_append_drop n rows).symm ▸ hnodup)
        exact (hdisjoint htake (List.mem_of_mem_head? hhead)).elim
  intro other hother
  rw [hlast] at hother
  cases hother
  exact ⟨fun row hrow => not_lt.mp fun habove =>
    absurd (mem_after.mpr ⟨hrow, habove⟩) (hnone ▸ List.not_mem_nil), hdrop⟩

theorem readPages_rest_iff (hnodup : (done ++ rest).Nodup) (hlimit : 0 < limit)
    (hafter : after key m (done ++ rest) = rest) :
    readPages key limit m (done ++ rest) = rest ↔
      ∀ j, 0 < j → j * limit < rest.length →
        PartsAt key (done ++ rest) (done.length + j * limit) := by
  induction hlength : rest.length using Nat.strong_induction_on generalizing done rest m with
  | h length ih =>
      subst hlength
      by_cases hmore : limit < rest.length
      · have hsome : after key m (done ++ rest) ≠ [] :=
          hafter.symm ▸ List.ne_nil_of_length_pos (by omega)
        obtain ⟨last, hlast⟩ := exists_last hlimit hsome
        have hread := readPages_more (hafter.symm ▸ hmore) hlast
        rw [hafter] at hread hlast
        have htake : (done ++ rest).take (done.length + limit) = done ++ rest.take limit :=
          List.take_length_add_append limit
        have hdrop : (done ++ rest).drop (done.length + limit) = rest.drop limit :=
          List.drop_length_add_append limit
        have hpage : ((done ++ rest).take (done.length + limit)).getLast? = some last := by
          rw [htake, List.getLast?_append, hlast, Option.some_or]
        have hsplit : (done ++ rest.take limit) ++ rest.drop limit = done ++ rest := by
          rw [List.append_assoc, List.take_append_drop]
        have hlength : (done ++ rest.take limit).length = done.length + limit := by
          rw [List.length_append, List.length_take, Nat.min_eq_left hmore.le]
        have hnext (hparts : PartsAt key (done ++ rest) (done.length + limit)) :
            readPages key limit (key last) (done ++ rest) = rest.drop limit ↔
              ∀ j, 0 < j → j * limit < (rest.drop limit).length →
                PartsAt key (done ++ rest) (done.length + limit + j * limit) := by
          have hrest := after_of_partsAt hparts hpage
          rw [hdrop, ← hsplit] at hrest
          have hih := ih (rest.drop limit).length (by rw [List.length_drop]; omega)
            (hsplit.symm ▸ hnodup) hrest rfl
          rwa [hsplit, hlength] at hih
        constructor
        · intro h j hj hjlimit
          have hrest : readPages key limit (key last) (done ++ rest) = rest.drop limit :=
            List.append_cancel_left ((hread.symm.trans h).trans (List.take_append_drop _ _).symm)
          have hparts : PartsAt key (done ++ rest) (done.length + limit) :=
            partsAt_of_readPages hnodup hlimit hpage (hrest.trans hdrop.symm)
          obtain ⟨i, rfl⟩ := Nat.exists_eq_add_of_lt hj
          rw [Nat.zero_add, Nat.add_mul, Nat.one_mul] at hjlimit ⊢
          rcases Nat.eq_zero_or_pos i with rfl | hi
          · simpa using hparts
          · have := (hnext hparts).mp hrest i hi (by rw [List.length_drop]; omega)
            rwa [Nat.add_assoc, Nat.add_comm limit] at this
        · intro h
          have hparts : PartsAt key (done ++ rest) (done.length + limit) := by
            have := h 1 Nat.one_pos (by omega)
            rwa [Nat.one_mul] at this
          have hrest : readPages key limit (key last) (done ++ rest) = rest.drop limit := by
            refine (hnext hparts).mpr fun j hj hjlimit => ?_
            rw [List.length_drop] at hjlimit
            have := h (j + 1) (Nat.succ_pos j) (by rw [Nat.add_mul]; omega)
            rwa [Nat.add_mul, Nat.one_mul, Nat.add_comm (j * limit), ← Nat.add_assoc] at this
          rw [hread, hrest, List.take_append_drop]
      · rw [readPages_last (hafter.symm ▸ hmore), hafter]
        refine iff_of_true rfl fun j hj hjlimit => absurd hjlimit ?_
        have : limit ≤ j * limit := Nat.le_mul_of_pos_left limit hj
        omega

theorem readPages_eq_self_iff (hnodup : rows.Nodup) (hlimit : 0 < limit) :
    readPages key limit m rows = rows ↔
      (∀ row ∈ rows, m < key row) ∧
        ∀ j, 0 < j → j * limit < rows.length → PartsAt key rows (j * limit) := by
  have hrest (habove : ∀ row ∈ rows, m < key row) : readPages key limit m rows = rows ↔
      ∀ j, 0 < j → j * limit < rows.length → PartsAt key rows (j * limit) := by
    have hfront : ([] ++ rows).Nodup := hnodup
    simpa using readPages_rest_iff hfront hlimit (after_eq_self habove)
  constructor
  · intro h
    have habove : ∀ row ∈ rows, m < key row :=
      fun row hrow => (mem_after.mp (mem_readPages (h.symm ▸ hrow))).2
    exact ⟨habove, (hrest habove).mp h⟩
  · rintro ⟨habove, hparts⟩
    exact (hrest habove).mpr hparts

/-- In a log that does not descend, the pages give rows in order and none twice, and the rows they
leave out share their key with one they give. -/
theorem readPages_sublist (hsorted : rows.Pairwise fun row next => key row ≤ key next)
    (hlimit : 0 < limit) :
    (readPages key limit m rows).Sublist (after key m rows) ∧
      ∀ row ∈ after key m rows, row ∉ readPages key limit m rows →
        ∃ other ∈ readPages key limit m rows, key other = key row := by
  induction m using readPages.induct key limit rows with
  | case1 m hnone =>
      rw [List.getLast?_eq_none_iff, List.take_eq_nil_iff] at hnone
      have hnil := hnone.resolve_left hlimit.ne'
      rw [readPages_nil hnil, hnil]
      exact ⟨List.Sublist.refl _, fun row hrow => absurd hrow List.not_mem_nil⟩
  | case2 m last hlast hmore ih =>
      rw [readPages_more hmore hlast]
      have hin : last ∈ after key m rows := List.mem_of_mem_take (List.mem_of_getLast? hlast)
      have hsplit := List.take_append_drop limit (after key m rows)
      have hpage : ∀ row ∈ (after key m rows).take limit, key row ≤ key last := by
        intro row hrow
        obtain ⟨init, hinit⟩ := List.getLast?_eq_some_iff.mp hlast
        have hpairs : (init ++ [last]).Pairwise fun row next => key row ≤ key next :=
          hinit ▸ (hsorted.sublist List.filter_sublist).sublist (List.take_sublist _ _)
        rw [hinit] at hrow
        rcases List.mem_append.mp hrow with hrow | hrow
        · exact (List.pairwise_append.mp hpairs).2.2 row hrow last (List.mem_singleton_self _)
        · rw [List.mem_singleton.mp hrow]
      have hnext : after key (key last) rows =
          after key (key last) ((after key m rows).drop limit) := by
        rw [after_after (mem_after.mp hin).2.le, ← hsplit]
        unfold after
        rw [List.filter_append, List.filter_eq_nil_iff.mpr, List.nil_append, List.take_append_drop]
        exact fun row hrow => by simpa using hpage row hrow
      refine ⟨?_, fun row hrow hmissed => ?_⟩
      · conv_rhs => rw [← hsplit]
        exact List.Sublist.append_left (ih.1.trans (hnext ▸ List.filter_sublist)) _
      · rw [List.mem_append, not_or] at hmissed
        by_cases hnot : key last < key row
        · obtain ⟨other, hother, hkey⟩ :=
            ih.2 row (mem_after.mpr ⟨(mem_after.mp hrow).1, hnot⟩) hmissed.2
          exact ⟨other, List.mem_append_right _ hother, hkey⟩
        · rw [← hsplit] at hrow
          have hbehind := (List.mem_append.mp hrow).resolve_left hmissed.1
          have habove : (after key m rows).Pairwise fun row next => key row ≤ key next :=
            hsorted.sublist List.filter_sublist
          rw [← hsplit] at habove
          have hle : key last ≤ key row :=
            (List.pairwise_append.mp habove).2.2 last (List.mem_of_getLast? hlast) row hbehind
          exact ⟨last, List.mem_append_left _ (List.mem_of_getLast? hlast),
            le_antisymm hle (not_lt.mp hnot)⟩
  | case3 m last hlast hmore =>
      rw [readPages_last hmore]
      exact ⟨List.Sublist.refl _, fun row hrow hmissed => absurd hrow hmissed⟩

end Watermarks
