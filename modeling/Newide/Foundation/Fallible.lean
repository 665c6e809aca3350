import Mathlib.Data.List.Forall2

/-!
# Fallible computations

The vocabulary for code that may throw: a guard, a lookup that must
succeed, and the two rules by which a chain of such steps is peeled
apart.  A function written as a chain of `ensure`, `orThrow` and binds
has its whole success condition read off by `simp` with these lemmas,
so no proof unfolds the chain by hand.
-/

namespace Fallible

universe u v w

variable {ε : Type u} {α : Type v} {β : Type v}

/-- Go on if `p` holds, throw `e` otherwise. -/
def ensure (p : Prop) [Decidable p] (e : ε) : Except ε Unit :=
  if p then .ok () else .error e

/-- The value of `o`, or throw `e` when there is none. -/
def orThrow (o : Option α) (e : ε) : Except ε α :=
  match o with
  | some a => .ok a
  | none => .error e

/-- The value of `x`, forgetting why it failed: a `try` with an empty `catch`. -/
def swallow (x : Except ε α) : Option α :=
  match x with
  | .ok a => some a
  | .error _ => none

@[simp] theorem ensure_eq_ok {p : Prop} [Decidable p] {e : ε} {u : Unit} :
    ensure p e = .ok u ↔ p := by
  unfold ensure
  by_cases hp : p
  · simp [hp]
  · simp [hp]

@[simp] theorem orThrow_eq_ok {o : Option α} {e : ε} {a : α} :
    orThrow o e = .ok a ↔ o = some a := by
  cases o <;> simp [orThrow]

@[simp] theorem swallow_eq_some {x : Except ε α} {a : α} :
    swallow x = some a ↔ x = .ok a := by
  cases x <;> simp [swallow]

variable {b : β} {f : α → Except ε β} {x : Except ε α} {xs : List α} {ys : List β} {e : ε}

theorem bind_eq_ok :
    (x >>= f) = .ok b ↔ ∃ a, x = .ok a ∧ f a = .ok b := by
  cases x with
  | error e =>
      constructor
      · intro h
        cases h
      · rintro ⟨a, h, _⟩
        cases h
  | ok a =>
      constructor
      · intro h
        exact ⟨a, rfl, h⟩
      · rintro ⟨a', ha, h⟩
        cases ha
        exact h

@[simp] theorem pure_eq_ok {a b : α} : (pure a : Except ε α) = .ok b ↔ a = b := by
  constructor
  · intro h
    exact Except.ok.inj h
  · intro h
    rw [h]
    rfl

theorem mapped_eq_ok {f : α → β} :
    x.map f = .ok b ↔ ∃ a, x = .ok a ∧ f a = b := by
  cases x with
  | error e => simp [Except.map]
  | ok a => simp [Except.map]

theorem forM_eq_ok {xs : List β} {f : β → Except ε PUnit} {u : PUnit} :
    xs.forM f = .ok u ↔ ∀ x ∈ xs, f x = .ok ⟨⟩ := by
  induction xs with
  | nil => simp [List.forM, pure_eq_ok]
  | cons x rest ih =>
      show (f x >>= fun _ => rest.forM f) = _ ↔ _
      rw [bind_eq_ok]
      constructor
      · rintro ⟨⟨⟩, hx, hrest⟩ y hy
        rcases List.mem_cons.mp hy with rfl | hy
        · exact hx
        · exact ih.mp hrest y hy
      · intro h
        exact ⟨⟨⟩, h x List.mem_cons_self, ih.mpr fun y hy => h y (List.mem_cons_of_mem _ hy)⟩

theorem mapM_mem_ok (h : xs.mapM f = .ok ys) {x : α} (hx : x ∈ xs) : ∃ y ∈ ys, f x = .ok y := by
  induction xs generalizing ys with
  | nil => cases hx
  | cons a rest ih =>
      simp only [List.mapM_cons, bind_eq_ok, pure_eq_ok] at h
      obtain ⟨y, hy, ys', hys, rfl⟩ := h
      rcases List.mem_cons.mp hx with rfl | hx
      · exact ⟨y, List.mem_cons_self, hy⟩
      · obtain ⟨z, hz, hfz⟩ := ih hys hx
        exact ⟨z, List.mem_cons_of_mem _ hz, hfz⟩

theorem mem_mapM_ok (h : xs.mapM f = .ok ys) {y : β} (hy : y ∈ ys) : ∃ x ∈ xs, f x = .ok y := by
  induction xs generalizing ys with
  | nil =>
      cases h
      cases hy
  | cons a rest ih =>
      simp only [List.mapM_cons, bind_eq_ok, pure_eq_ok] at h
      obtain ⟨z, hz, ys', hys, rfl⟩ := h
      rcases List.mem_cons.mp hy with rfl | hy
      · exact ⟨a, List.mem_cons_self, hz⟩
      · obtain ⟨x, hx, hfx⟩ := ih hys hy
        exact ⟨x, List.mem_cons_of_mem _ hx, hfx⟩

theorem mapM_eq_map {g : α → β} (h : ∀ x ∈ xs, f x = .ok (g x)) : xs.mapM f = .ok (xs.map g) := by
  induction xs with
  | nil => rfl
  | cons a rest ih =>
      simp only [List.mapM_cons, bind_eq_ok, pure_eq_ok]
      exact ⟨g a, h a List.mem_cons_self, rest.map g,
        ih fun x hx => h x (List.mem_cons_of_mem _ hx), rfl⟩

/-- A mapping that has an answer for every element succeeds, and a field of the answers is known
where it is known of each. -/
theorem mapM_ok_of {γ : Type*} {g : β → γ} {k : α → γ} (h : ∀ x ∈ xs, ∃ y, f x = .ok y ∧ g y = k x) :
    
    ∃ ys, xs.mapM f = .ok ys ∧ ys.map g = xs.map k := by
  induction xs with
  | nil => exact ⟨[], rfl, rfl⟩
  | cons a rest ih =>
      obtain ⟨y, hy, hgy⟩ := h a List.mem_cons_self
      obtain ⟨ys, hys, hmap⟩ := ih fun x hx => h x (List.mem_cons_of_mem _ hx)
      refine ⟨y :: ys, ?_, ?_⟩
      · simp only [List.mapM_cons, bind_eq_ok, pure_eq_ok]
        exact ⟨y, hy, ys, hys, rfl⟩
      · rw [List.map_cons, List.map_cons, hgy, hmap]

/-! ## What a computation that throws threw -/

theorem bind_eq_error :
    (x >>= f) = .error e ↔ x = .error e ∨ ∃ a, x = .ok a ∧ f a = .error e := by
  cases x with
  | error e' =>
      have hthrows : ((.error e' : Except ε α) >>= f) = .error e' := rfl
      rw [hthrows]
      constructor
      · intro h
        cases h
        exact .inl rfl
      · rintro (h | ⟨a, h, _⟩)
        · cases h
          rfl
        · cases h
  | ok a =>
      constructor
      · intro h
        exact .inr ⟨a, rfl, h⟩
      · rintro (h | ⟨a', h, hf⟩)
        · cases h
        · cases h
          exact hf

theorem ensure_eq_error {p : Prop} [Decidable p] {e' : ε} :
    ensure p e = .error e' ↔ ¬ p ∧ e = e' := by
  by_cases h : p <;> simp [ensure, h]

theorem orThrow_eq_error {x : Option α} {e' : ε} :
    orThrow x e = .error e' ↔ x = none ∧ e = e' := by
  cases x <;> simp [orThrow]

theorem forM_eq_error {xs : List β} {f : β → Except ε PUnit} (h : xs.forM f = .error e) :
    ∃ x ∈ xs, f x = .error e := by
  induction xs with
  | nil => cases h
  | cons x rest ih =>
      rcases bind_eq_error.mp (show (f x >>= fun _ => rest.forM f) = .error e from h) with
        hx | ⟨_, _, hrest⟩
      · exact ⟨x, List.mem_cons_self, hx⟩
      · obtain ⟨y, hy, hthrown⟩ := ih hrest
        exact ⟨y, List.mem_cons_of_mem _ hy, hthrown⟩

theorem mapM_eq_some {α : Type u} {f : α → Option β} {as : List α} {bs : List β} :
    as.mapM f = some bs ↔ List.Forall₂ (fun a b => f a = some b) as bs := by
  induction as generalizing bs with
  | nil =>
      rw [List.mapM_nil, List.forall₂_nil_left_iff]
      exact ⟨fun h => (Option.some.inj h).symm, fun h => congrArg some h.symm⟩
  | cons a as ih =>
      rw [List.mapM_cons, List.forall₂_cons_left_iff]
      constructor
      · intro h
        obtain ⟨b, hb, hrest⟩ := Option.bind_eq_some_iff.mp h
        obtain ⟨rest, hmap, hcons⟩ := Option.bind_eq_some_iff.mp hrest
        exact ⟨b, rest, hb, ih.mp hmap, (Option.some.inj hcons).symm⟩
      · rintro ⟨b, rest, hb, hmap, rfl⟩
        exact Option.bind_eq_some_iff.mpr
          ⟨b, hb, Option.bind_eq_some_iff.mpr ⟨rest, ih.mpr hmap, rfl⟩⟩

end Fallible
