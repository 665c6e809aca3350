import Mathlib.Data.Fintype.Card
import Mathlib.Data.Set.Finite.Basic
import Mathlib.Logic.Relation
import Mathlib.Order.WellFounded
import Newide.Foundation.Fallible

/-!
# Evaluation over references

A name stands for a value, or for a combination of what other names come
to.  Evaluating it follows the references one after the other, and ends
exactly when they lead into no cycle.
-/

universe u v

open Fallible

namespace References

inductive Node (κ : Type u) (R : Type v) where
  | leaf (r : R)
  | branch (refs : List κ) (combine : List R → R)

variable {κ : Type u} {R : Type v} (node : κ → Node κ R)

def refs (k : κ) : List κ :=
  match node k with
  | .leaf _ => []
  | .branch refs _ => refs

/-- The value of a name, if its references are not nested deeper than this. -/
def eval : Nat → κ → Option R
  | 0, _ => none
  | depth + 1, k =>
      match node k with
      | .leaf r => some r
      | .branch refs combine => (refs.mapM (eval depth)).map combine

/-- The evaluation of the name ends with this value. -/
def Ends (k : κ) (r : R) : Prop := ∃ depth, eval node depth k = some r

def Refers (a b : κ) : Prop := b ∈ refs node a

variable {node} {k : κ} {r : R} {depth : Nat}

/-! ## Values -/

theorem eval_succ (h : eval node depth k = some r) : eval node (depth + 1) k = some r := by
  induction depth generalizing k r with
  | zero => cases h
  | succ depth ih =>
      unfold eval at h ⊢
      cases hnode : node k with
      | leaf s =>
          rw [hnode] at h
          exact h
      | branch refs combine =>
          rw [hnode] at h
          obtain ⟨rs, hrs, hr⟩ := Option.map_eq_some_iff.mp h
          refine Option.map_eq_some_iff.mpr ⟨rs, ?_, hr⟩
          exact mapM_eq_some.mpr ((mapM_eq_some.mp hrs).imp fun _ _ => ih)

theorem eval_mono {more : Nat} (hle : depth ≤ more) (h : eval node depth k = some r) :
    eval node more k = some r := by
  induction hle with
  | refl => exact h
  | step _ ih => exact eval_succ ih

variable {s : R} {ks names : List κ} {α : Type u} {β : Type v} {P : α → β → Prop} {as : List α}

theorem Ends.unique (h : Ends node k r) (h' : Ends node k s) : r = s := by
  obtain ⟨d, hr⟩ := h
  obtain ⟨e, hs⟩ := h'
  have hr := eval_mono (Nat.le_max_left d e) hr
  rw [eval_mono (Nat.le_max_right d e) hs] at hr
  exact (Option.some.inj hr).symm

theorem ends_leaf (h : node k = .leaf s) : Ends node k r ↔ r = s := by
  constructor
  · rintro ⟨depth, heval⟩
    cases depth with
    | zero => cases heval
    | succ depth =>
        rw [eval, h] at heval
        exact (Option.some.inj heval).symm
  · rintro rfl
    exact ⟨1, by rw [eval, h]⟩

theorem exists_depth {rs : List R} (h : List.Forall₂ (Ends node) ks rs) :
    ∃ depth, List.Forall₂ (fun k r => eval node depth k = some r) ks rs := by
  induction h with
  | nil => exact ⟨0, .nil⟩
  | cons hends _ ih =>
      obtain ⟨d, hd⟩ := hends
      obtain ⟨e, he⟩ := ih
      refine ⟨max d e, .cons (eval_mono (Nat.le_max_left d e) hd) (he.imp fun _ _ h => ?_)⟩
      exact eval_mono (Nat.le_max_right d e) h

theorem ends_branch {combine : List R → R} (h : node k = .branch ks combine) :
    Ends node k r ↔ ∃ rs, List.Forall₂ (Ends node) ks rs ∧ r = combine rs := by
  constructor
  · rintro ⟨depth, heval⟩
    cases depth with
    | zero => cases heval
    | succ depth =>
        rw [eval, h] at heval
        obtain ⟨rs, hrs, hr⟩ := Option.map_eq_some_iff.mp heval
        exact ⟨rs, (mapM_eq_some.mp hrs).imp fun _ _ hk => ⟨depth, hk⟩, hr.symm⟩
  · rintro ⟨rs, hrs, rfl⟩
    obtain ⟨depth, hdepth⟩ := exists_depth hrs
    refine ⟨depth + 1, ?_⟩
    rw [eval, h]
    exact Option.map_eq_some_iff.mpr ⟨rs, mapM_eq_some.mpr hdepth, rfl⟩

/-! ## Ends and cycles -/

theorem forall₂_exists (h : ∀ a ∈ as, ∃ b, P a b) : ∃ bs, List.Forall₂ P as bs := by
  induction as with
  | nil => exact ⟨[], .nil⟩
  | cons a as ih =>
      obtain ⟨b, hb⟩ := h a List.mem_cons_self
      obtain ⟨bs, hbs⟩ := ih fun other hother => h other (List.mem_cons_of_mem _ hother)
      exact ⟨b :: bs, .cons hb hbs⟩

theorem forall₂_of_mem {bs : List β} (h : List.Forall₂ P as bs) {a : α} (hmem : a ∈ as) :
    ∃ b, (a, b) ∈ as.zip bs := by
  induction h with
  | nil => cases hmem
  | cons hab _ ih =>
      rcases List.mem_cons.mp hmem with rfl | hmem
      · exact ⟨_, List.mem_cons_self⟩
      · obtain ⟨b, hb⟩ := ih hmem
        exact ⟨b, List.mem_cons_of_mem _ hb⟩

theorem acc_of_eval (h : eval node depth k = some r) : Acc (fun b a => Refers node a b) k := by
  induction depth generalizing k r with
  | zero => cases h
  | succ depth ih =>
      refine Acc.intro k fun other hrefers => ?_
      unfold Refers refs at hrefers
      rw [eval] at h
      cases hnode : node k with
      | leaf s =>
          rw [hnode] at hrefers
          cases hrefers
      | branch ks combine =>
          rw [hnode] at hrefers h
          obtain ⟨rs, hrs, _⟩ := Option.map_eq_some_iff.mp h
          obtain ⟨s, hs⟩ := forall₂_of_mem (mapM_eq_some.mp hrs) hrefers
          exact ih (List.forall₂_zip (mapM_eq_some.mp hrs) hs)

theorem ends_of_acc (h : Acc (fun b a => Refers node a b) k) : ∃ r, Ends node k r := by
  induction h with
  | intro k _ ih =>
      cases hnode : node k with
      | leaf r => exact ⟨r, (ends_leaf hnode).mpr rfl⟩
      | branch ks combine =>
          have hall : ∀ other ∈ ks, ∃ r, Ends node other r := by
            intro other hother
            refine ih other ?_
            unfold Refers refs
            rw [hnode]
            exact hother
          obtain ⟨rs, hrs⟩ := forall₂_exists hall
          exact ⟨combine rs, (ends_branch hnode).mpr ⟨rs, hrs, rfl⟩⟩

/-- The references of a name lead into a cycle. -/
def LeadsToCycle (refers : κ → κ → Prop) (k : κ) : Prop :=
  ∃ other, Relation.ReflTransGen refers k other ∧ Relation.TransGen refers other other

theorem not_transGen_of_acc (h : Acc (fun b a => Refers node a b) k) :
    ¬ Relation.TransGen (Refers node) k k := by
  have hacc : Acc (Relation.TransGen fun b a => Refers node a b) k := Acc.transGen h
  induction hacc with
  | intro k _ ih =>
      intro hcycle
      exact ih k (Relation.transGen_swap.mpr hcycle) h hcycle

theorem acc_of_reaches {other : κ} (h : Acc (fun b a => Refers node a b) k)
    (hreaches : Relation.ReflTransGen (Refers node) k other) :
    Acc (fun b a => Refers node a b) other := by
  induction hreaches with
  | refl => exact h
  | tail _ hlast ih => exact ih.inv hlast

theorem acc_of_acyclic (hnames : ∀ k, refs node k ≠ [] → k ∈ names)
    (h : ¬ LeadsToCycle (Refers node) k) : Acc (fun b a => Refers node a b) k := by
  -- the names that refer to others and can be reached are ordered by what they lead to
  let Reached := { b : κ // b ∈ names ∧ Relation.ReflTransGen (Refers node) k b }
  let below : Reached → Reached → Prop := fun b a => Relation.TransGen (Refers node) a.1 b.1
  have hfinite : Finite Reached :=
    ((List.finite_toSet names).subset fun b (hb : b ∈ names ∧ _) => hb.1).to_subtype
  have htrans : IsTrans Reached below := ⟨fun _ _ _ hab hbc => hbc.trans hab⟩
  have hirrefl : Std.Irrefl below := ⟨fun a hcycle => h ⟨a.1, a.2.2, hcycle⟩⟩
  have hwf : WellFounded below := Finite.wellFounded_of_trans_of_irrefl below
  have hreached : ∀ a : Reached, Acc (fun b a => Refers node a b) a.1 := by
    intro a
    induction a using hwf.induction with
    | _ a ih =>
        refine Acc.intro a.1 fun b hrefers => ?_
        by_cases hrefs : refs node b = []
        · refine Acc.intro b fun c hc => ?_
          unfold Refers at hc
          rw [hrefs] at hc
          cases hc
        · exact ih ⟨b, hnames b hrefs, a.2.2.tail hrefers⟩ (.single hrefers)
  by_cases hrefs : refs node k = []
  · refine Acc.intro k fun c hc => ?_
    unfold Refers at hc
    rw [hrefs] at hc
    cases hc
  · exact hreached ⟨k, hnames k hrefs, .refl⟩

theorem ends_iff (hnames : ∀ k, refs node k ≠ [] → k ∈ names) :
    (∃ r, Ends node k r) ↔ ¬ LeadsToCycle (Refers node) k := by
  constructor
  · rintro ⟨r, depth, heval⟩ ⟨other, hreaches, hcycle⟩
    exact not_transGen_of_acc (acc_of_reaches (acc_of_eval heval) hreaches) hcycle
  · exact fun h => ends_of_acc (acc_of_acyclic hnames h)

end References
