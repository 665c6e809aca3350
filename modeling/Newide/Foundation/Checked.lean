import Mathlib.Data.List.Forall2

/-!
# Checked values

A check that goes on after an error: it returns a value in any case, with
the errors reported on the way.  It passes with a value when it reports
nothing; the lemmas say when a chain of checks passes.
-/

universe u v

structure Checked (ε : Type u) (α : Type v) where
  value : α
  errors : List ε := []

namespace Checked

variable {ε : Type u} {α β : Type v}

instance : Monad (Checked ε) where
  pure value := { value }
  bind x f := { value := (f x.value).value, errors := x.errors ++ (f x.value).errors }

instance : LawfulMonad (Checked ε) :=
  LawfulMonad.mk' (Checked ε)
    (fun x => congrArg (Checked.mk x.value) (List.append_nil x.errors))
    (fun _ _ => rfl)
    (fun x _ _ => congrArg (Checked.mk _) (List.append_assoc x.errors _ _))

/-- `errors.push(error)`, and go on with `value`. -/
def report (error : ε) (value : α) : Checked ε α where
  value
  errors := [error]

/-- Report `error` unless `p` holds. -/
def require (p : Prop) [Decidable p] (error : ε) : Checked ε PUnit.{v + 1} :=
  if p then pure ⟨⟩ else report error ⟨⟩

def reportAll (errors : List ε) : Checked ε PUnit.{v + 1} where
  value := ⟨⟩
  errors

def mapErrors (f : ε → ε) (x : Checked ε α) : Checked ε α :=
  { x with errors := x.errors.map f }

/-- The value if nothing was reported, the errors otherwise. -/
def toExcept (x : Checked ε α) : Except (List ε) α :=
  match x.errors with
  | [] => .ok x.value
  | errors => .error errors

/-- The check reports nothing and returns `a`. -/
def Passes (x : Checked ε α) (a : α) : Prop := x = { value := a }

variable {x : Checked ε α} {a b : α} {c : β}

@[simp] theorem passes_pure : (pure a : Checked ε α).Passes b ↔ a = b := by
  constructor
  · intro h
    exact congrArg Checked.value h
  · rintro rfl
    rfl

@[simp] theorem not_passes_report {error : ε} : ¬ (report error a : Checked ε α).Passes b := by
  intro h
  cases h

@[simp] theorem passes_bind {f : α → Checked ε β} :
    (x >>= f).Passes c ↔ ∃ a, x.Passes a ∧ (f a).Passes c := by
  constructor
  · intro h
    have hvalue : (f x.value).value = c := congrArg Checked.value h
    have herrors : x.errors ++ (f x.value).errors = [] := congrArg Checked.errors h
    obtain ⟨hx, hf⟩ := List.append_eq_nil_iff.mp herrors
    refine ⟨x.value, ?_, ?_⟩
    · cases x
      cases hx
      rfl
    · generalize f x.value = y at hvalue hf ⊢
      cases y
      cases hvalue
      cases hf
      rfl
  · rintro ⟨a, rfl, hf⟩
    change Checked.mk (f a).value ([] ++ (f a).errors) = _
    rw [hf]
    rfl

@[simp] theorem passes_require {p : Prop} [Decidable p] {error : ε} {u : PUnit} :
    (require p error : Checked ε PUnit).Passes u ↔ p := by
  unfold require
  by_cases hp : p
  · simp [hp]
  · simp [hp]

@[simp] theorem passes_reportAll {errors : List ε} {u : PUnit} :
    (reportAll errors).Passes u ↔ errors = [] := by
  constructor
  · intro h
    exact congrArg Checked.errors h
  · rintro rfl
    rfl

@[simp] theorem passes_mapErrors {f : ε → ε} : (x.mapErrors f).Passes a ↔ x.Passes a := by
  obtain ⟨value, errors⟩ := x
  simp [mapErrors, Passes]

theorem toExcept_eq_ok : x.toExcept = .ok a ↔ x.Passes a := by
  obtain ⟨value, errors⟩ := x
  cases errors with
  | nil => simp [toExcept, Passes]
  | cons error errors => simp [toExcept, Passes]

variable {as : List α} {bs : List β} {f : α → Checked ε β}

theorem passes_mapM :
    (as.mapM f).Passes bs ↔ List.Forall₂ (fun a b => (f a).Passes b) as bs := by
  induction as generalizing bs with
  | nil =>
      rw [List.mapM_nil, passes_pure, List.forall₂_nil_left_iff, eq_comm]
  | cons a as ih =>
      rw [List.mapM_cons]
      simp only [passes_bind, passes_pure, List.forall₂_cons_left_iff]
      constructor
      · rintro ⟨b, hb, bs', hbs, rfl⟩
        exact ⟨b, bs', hb, ih.mp hbs, rfl⟩
      · rintro ⟨b, bs', hb, hbs, rfl⟩
        exact ⟨b, hb, bs', ih.mpr hbs, rfl⟩

theorem passes_iff : x.Passes a ↔ x.errors = [] ∧ x.value = a := by
  obtain ⟨value, errors⟩ := x
  simp only [Passes, Checked.mk.injEq]
  exact and_comm

theorem passes_mapM_iff :
    (as.mapM f).Passes bs ↔
      (∀ a ∈ as, (f a).errors = []) ∧ as.map (fun a => (f a).value) = bs := by
  rw [passes_mapM]
  induction as generalizing bs with
  | nil => simp [eq_comm]
  | cons a as ih =>
      rw [List.forall₂_cons_left_iff]
      constructor
      · rintro ⟨b, bs', hb, hbs, rfl⟩
        obtain ⟨hclean, rfl⟩ := passes_iff.mp hb
        obtain ⟨hall, rfl⟩ := ih.mp hbs
        exact ⟨List.forall_mem_cons.mpr ⟨hclean, hall⟩, rfl⟩
      · rintro ⟨hall, rfl⟩
        obtain ⟨hclean, hrest⟩ := List.forall_mem_cons.mp hall
        exact ⟨_, _, passes_iff.mpr ⟨hclean, rfl⟩, ih.mpr ⟨hrest, rfl⟩, rfl⟩

theorem passes_zipIdx {f : Nat → α → Checked ε β} {g : α → Checked ε β}
    (hf : ∀ i a b, (f i a).Passes b ↔ (g a).Passes b) :
    (as.zipIdx.mapM fun item => f item.2 item.1).Passes bs ↔ (as.mapM g).Passes bs := by
  rw [passes_mapM, passes_mapM]
  have hrel : (fun (item : α × Nat) b => (f item.2 item.1).Passes b) =
      fun item b => (g item.1).Passes b := by
    funext item b
    exact propext (hf item.2 item.1 b)
  rw [hrel, ← List.forall₂_map_left_iff (f := Prod.fst) (R := fun a b => (g a).Passes b),
    List.zipIdx_map_fst]

theorem Passes.of_mem_mapM {b : β} (h : (as.mapM f).Passes bs) (hb : b ∈ bs) :
    ∃ a ∈ as, (f a).Passes b := by
  have hall := passes_mapM.mp h
  induction hall with
  | nil => cases hb
  | cons hfirst hrest ih =>
      rcases List.mem_cons.mp hb with rfl | hb
      · exact ⟨_, List.mem_cons_self, hfirst⟩
      · obtain ⟨a, ha, hpasses⟩ := ih (passes_mapM.mpr hrest) hb
        exact ⟨a, List.mem_cons_of_mem _ ha, hpasses⟩

end Checked
