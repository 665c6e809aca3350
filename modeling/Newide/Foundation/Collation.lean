import Mathlib.Data.List.Sort

/-!
# Sorting by a collation

A collation compares keys and may call different ones equal.  A stable
sort leaves those in the order in which they came, so that the result
depends on that order exactly where the collation does not tell two of the
keys apart.
-/

universe u v

namespace Collation

variable {α : Type u} {κ : Type v} {collate : κ → κ → Ordering} {key : α → κ} {a b : α}
  {l l' : List α}

/-- `l.sort((a, b) => collate(a, b))` on a key. -/
def sortOn (collate : κ → κ → Ordering) (key : α → κ) (l : List α) : List α :=
  l.insertionSort fun a b => (collate (key a) (key b)).isLE

theorem sortOn_perm : (sortOn collate key l).Perm l :=
  List.perm_insertionSort _ _

theorem mem_sortOn : a ∈ sortOn collate key l ↔ a ∈ l :=
  sortOn_perm.mem_iff

/-- No two elements that the collation calls equal. -/
def Apart (collate : κ → κ → Ordering) (key : α → κ) (l : List α) : Prop :=
  ∀ a ∈ l, ∀ b ∈ l, collate (key a) (key b) = .eq → a = b

theorem pair_sortOn (h : [a, b].Sublist l) (hle : (collate (key a) (key b)).isLE) :
    [a, b].Sublist (sortOn collate key l) :=
  List.pair_sublist_insertionSort hle h

theorem pair_not_turned (h : l.Nodup) (hpair : [a, b].Sublist l) : ¬ [b, a].Sublist l := by
  induction l with
  | nil => cases hpair
  | cons first l ih =>
      obtain ⟨hfirst, hrest⟩ := List.nodup_cons.mp h
      intro hturned
      cases hpair with
      | cons _ hpair =>
          cases hturned with
          | cons _ hturned => exact ih hrest hpair hturned
          | cons_cons _ _ => exact hfirst (hpair.subset (List.mem_cons_of_mem _ List.mem_cons_self))
      | cons_cons _ hpair =>
          cases hturned with
          | cons _ hturned =>
              exact hfirst (hturned.subset (List.mem_cons_of_mem _ List.mem_cons_self))
          | cons_cons _ hturned => exact hfirst (hturned.subset List.mem_cons_self)

variable [Std.TransCmp collate]

theorem eq_of_isLE {k k' : κ} (hle : (collate k k').isLE) (hge : (collate k' k).isLE) :
    collate k k' = .eq := by
  have hswap : collate k' k = (collate k k').swap := Std.OrientedCmp.eq_swap
  rw [hswap] at hge
  cases hcollate : collate k k' with
  | eq => rfl
  | lt =>
      rw [hcollate] at hge
      cases hge
  | gt =>
      rw [hcollate] at hle
      cases hle

theorem sortOn_sorted :
    (sortOn collate key l).Pairwise fun a b => (collate (key a) (key b)).isLE = true := by
  have : Std.Total fun a b : α => (collate (key a) (key b)).isLE = true :=
    ⟨fun a b => by
      have hswap : collate (key b) (key a) = (collate (key a) (key b)).swap :=
        Std.OrientedCmp.eq_swap
      rw [hswap]
      cases collate (key a) (key b) <;> simp⟩
  have : IsTrans α fun a b => (collate (key a) (key b)).isLE = true :=
    ⟨fun _ _ _ => Std.TransCmp.isLE_trans⟩
  exact List.pairwise_insertionSort _ _

theorem sortOn_congr (h : Apart collate key l) (hperm : l.Perm l') :
    sortOn collate key l = sortOn collate key l' := by
  have hsame : (sortOn collate key l).Perm (sortOn collate key l') :=
    sortOn_perm.trans (hperm.trans sortOn_perm.symm)
  refine List.Perm.eq_of_pairwise (fun a b ha hb hle hge => ?_) sortOn_sorted sortOn_sorted hsame
  exact h a (mem_sortOn.mp ha) b (hperm.mem_iff.mpr (mem_sortOn.mp hb)) (eq_of_isLE hle hge)

/-! ## Classes of keys -/

/-- The elements whose keys the collation calls equal to this one, as they come. -/
def classOf (collate : κ → κ → Ordering) (key : α → κ) (k : κ) (l : List α) : List α :=
  l.filter fun a => collate k (key a) = .eq

omit [Std.TransCmp collate] in
theorem classOf_cons (k : κ) : classOf collate key k (a :: l) =
    if collate k (key a) = .eq then a :: classOf collate key k l else classOf collate key k l := by
  unfold classOf
  by_cases h : collate k (key a) = .eq
  · rw [List.filter_cons_of_pos (by simpa using h), if_pos h]
  · rw [List.filter_cons_of_neg (by simpa using h), if_neg h]

variable {β : Type*} {f : α → β}

omit [Std.TransCmp collate] in
theorem classOf_map_congr (hf : ∀ a b, f a = f b → key a = key b) (h : l.map f = l'.map f) (k : κ) :
    (classOf collate key k l).map f = (classOf collate key k l').map f := by
  induction l generalizing l' with
  | nil =>
      rw [List.map_eq_nil_iff.mp h.symm]
  | cons a l ih =>
      cases l' with
      | nil => cases h
      | cons b l' =>
          obtain ⟨hfirst, hrest⟩ := List.cons.inj h
          rw [classOf_cons, classOf_cons, hf a b hfirst]
          split
          · rw [List.map_cons, List.map_cons, hfirst, ih hrest]
          · exact ih hrest

theorem classOf_sortOn (k : κ) : classOf collate key k (sortOn collate key l) =
    classOf collate key k l := by
  have hpairs : (classOf collate key k l).Pairwise fun a b =>
      (collate (key a) (key b)).isLE = true := by
    refine List.pairwise_iff_forall_sublist.mpr fun {a b} hpair => ?_
    have hin (c : α) (hc : c ∈ [a, b]) : collate k (key c) = .eq := by
      simpa using (List.mem_filter.mp (hpair.subset hc)).2
    have ha : collate (key a) k = .eq := Std.OrientedCmp.eq_comm.mp (hin a List.mem_cons_self)
    have hb := hin b (List.mem_cons_of_mem _ List.mem_cons_self)
    exact Ordering.isLE_of_eq_eq (Std.TransCmp.eq_trans ha hb)
  have hkept : (classOf collate key k l).Sublist (sortOn collate key l) :=
    List.sublist_insertionSort hpairs List.filter_sublist
  have hfiltered : (classOf collate key k l).Sublist
      (classOf collate key k (sortOn collate key l)) := by
    have h := hkept.filter fun a => collate k (key a) = .eq
    unfold classOf at h ⊢
    simpa only [List.filter_filter, Bool.and_self] using h
  have hlength : (classOf collate key k (sortOn collate key l)).length =
      (classOf collate key k l).length := (sortOn_perm.filter _).length_eq
  exact (hfiltered.eq_of_length hlength.symm).symm

theorem eq_of_classes (hf : ∀ a b, f a = f b → key a = key b)
    (hl : l.Pairwise fun a b => (collate (key a) (key b)).isLE = true)
    (hl' : l'.Pairwise fun a b => (collate (key a) (key b)).isLE = true)
    (h : ∀ k, (classOf collate key k l).map f = (classOf collate key k l').map f) :
    l.map f = l'.map f := by
  induction l generalizing l' with
  | nil =>
      cases l' with
      | nil => rfl
      | cons b l' =>
          have hb := h (key b)
          rw [classOf_cons, if_pos Std.ReflCmp.compare_self] at hb
          cases hb
  | cons a l ih =>
      -- the first of a class in one sequence has a match in the other, which is not before it
      have hbehind (first : α) (rest : List α) (k : κ)
          (hsorted : (first :: rest).Pairwise fun a b => (collate (key a) (key b)).isLE = true)
          (other : α) (hother : other ∈ classOf collate key k (first :: rest)) :
          (collate (key first) k).isLE := by
        obtain ⟨hin, heq⟩ := List.mem_filter.mp hother
        have heq : collate (key other) k = .eq :=
          Std.OrientedCmp.eq_comm.mp (of_decide_eq_true heq)
        rcases List.mem_cons.mp hin with rfl | hin
        · exact Ordering.isLE_of_eq_eq heq
        · have hle := (List.pairwise_cons.mp hsorted).1 other hin
          exact Std.TransCmp.isLE_trans hle (Ordering.isLE_of_eq_eq heq)
      cases l' with
      | nil =>
          have ha := h (key a)
          rw [classOf_cons, if_pos Std.ReflCmp.compare_self] at ha
          cases ha
      | cons b l' =>
          have hself (c : α) : collate (key c) (key c) = .eq := Std.ReflCmp.compare_self
          have hab : collate (key a) (key b) = .eq := by
            have hclass := h (key a)
            have hclass' := h (key b)
            rw [classOf_cons, if_pos (hself a), List.map_cons] at hclass
            rw [classOf_cons (a := b), if_pos (hself b), List.map_cons] at hclass'
            obtain ⟨other, _, hother, _, _⟩ := List.map_eq_cons_iff.mp hclass.symm
            obtain ⟨other', _, hother', _, _⟩ := List.map_eq_cons_iff.mp hclass'
            have hba := hbehind b l' (key a) hl' other (hother ▸ List.mem_cons_self)
            have hab := hbehind a l (key b) hl other' (hother' ▸ List.mem_cons_self)
            exact eq_of_isLE hab hba
          have hfirst : f a = f b := by
            have hclass := h (key a)
            rw [classOf_cons, if_pos (hself a), classOf_cons, if_pos hab] at hclass
            exact (List.cons.inj hclass).1
          have hrest := ih (List.pairwise_cons.mp hl).2 (List.pairwise_cons.mp hl').2 fun k => by
            have hclass := h k
            rw [classOf_cons, classOf_cons, hf a b hfirst] at hclass
            split at hclass
            · exact (List.cons.inj hclass).2
            · exact hclass
          rw [List.map_cons, List.map_cons, hfirst, hrest]

theorem sortOn_map_eq_iff (hf : ∀ a b, f a = f b → key a = key b) :
    (sortOn collate key l).map f = (sortOn collate key l').map f ↔
      ∀ k, (classOf collate key k l).map f = (classOf collate key k l').map f := by
  constructor
  · intro h k
    rw [← classOf_sortOn k, ← classOf_sortOn (l := l') k]
    exact classOf_map_congr hf h k
  · intro h
    refine eq_of_classes hf sortOn_sorted sortOn_sorted fun k => ?_
    rw [classOf_sortOn, classOf_sortOn, h]

end Collation
