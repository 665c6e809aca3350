import Mathlib.Order.Defs.Unbundled
import Newide.Foundation.Fallible

/-!
# Statements that may throw

A statement reads and writes a state and may throw; what it wrote before
it threw stays written.  A transaction around it takes that back.  The
rules say what a chain of statements can end as, and when a statement
that throws has changed nothing.
-/

universe u

/-- A statement over `σ`: how it ends, and the state it leaves. -/
abbrev Statement (σ ε α : Type u) := ExceptT ε (StateM σ) α

namespace Statement

variable {σ ε α β : Type u} {x : Statement σ ε α} {f : α → Statement σ ε β}
  {s t : σ} {a : α} {b : β} {e : ε} {r : Except ε β}

theorem chain_eq : (x >>= f) s = (r, t) ↔
    (∃ a u, x s = (.ok a, u) ∧ f a u = (r, t)) ∨ ∃ e, x s = (.error e, t) ∧ r = .error e := by
  cases hx : x s with
  | mk outcome u =>
      cases outcome with
      | error e =>
          have hchain : (x >>= f) s = (.error e, u) := by
            simp only [bind, ExceptT.bind, ExceptT.mk, StateT.bind, hx]
            rfl
          rw [hchain]
          constructor
          · intro h
            cases h
            exact .inr ⟨e, rfl, rfl⟩
          · rintro (⟨a, u', h, _⟩ | ⟨e', h, rfl⟩)
            · cases h
            · cases h
              rfl
      | ok a =>
          have hchain : (x >>= f) s = f a u := by
            simp [bind, ExceptT.bind, ExceptT.mk, ExceptT.bindCont, StateT.bind, hx]
          rw [hchain]
          constructor
          · intro h
            exact .inl ⟨a, u, rfl, h⟩
          · rintro (⟨a', u', h, hf⟩ | ⟨e, h, _⟩)
            · cases h
              exact hf
            · cases h

theorem chain_ok : (x >>= f) s = (.ok b, t) ↔ ∃ a u, x s = (.ok a, u) ∧ f a u = (.ok b, t) := by
  rw [chain_eq]
  constructor
  · rintro (h | ⟨e, _, h⟩)
    · exact h
    · cases h
  · exact .inl

theorem done_eq {r : Except ε α} : (pure a : Statement σ ε α) s = (r, t) ↔ r = .ok a ∧ t = s := by
  show ((.ok a, s) : Except ε α × σ) = (r, t) ↔ _
  rw [Prod.mk.injEq, eq_comm, @eq_comm σ]

theorem chain_done {g : α → β} (h : (x >>= fun a => pure (g a)) s = (r, t)) :
    ∃ r' : Except ε α, x s = (r', t) ∧ ∀ e, r = .error e → r' = .error e := by
  rcases chain_eq.mp h with ⟨a, u, hx, hdone⟩ | ⟨e, hx, rfl⟩
  · obtain ⟨rfl, rfl⟩ := done_eq.mp hdone
    exact ⟨.ok a, hx, nofun⟩
  · refine ⟨.error e, hx, fun e' he => ?_⟩
    cases he
    rfl

def read (g : σ → Except ε α) : Statement σ ε α :=
  fun s => (g s, s)

variable {g : σ → Except ε α} {u : PUnit} {p : Prop} {y : Statement σ ε α}

theorem read_eq {r : Except ε α} :
    (read g : Statement σ ε α) s = (r, t) ↔ g s = r ∧ t = s := by
  show (g s, s) = (r, t) ↔ _
  rw [Prod.mk.injEq, @eq_comm σ]

theorem read_chain : (read g >>= f) s = (r, t) ↔
    (∃ a, g s = .ok a ∧ f a s = (r, t)) ∨ ∃ e, g s = .error e ∧ t = s ∧ r = .error e := by
  rw [chain_eq]
  constructor
  · rintro (⟨a, u, hread, hf⟩ | ⟨e, hread, hr⟩)
    · obtain ⟨ha, rfl⟩ := read_eq.mp hread
      exact .inl ⟨a, ha, hf⟩
    · obtain ⟨he, rfl⟩ := read_eq.mp hread
      exact .inr ⟨e, he, rfl, hr⟩
  · rintro (⟨a, ha, hf⟩ | ⟨e, he, rfl, hr⟩)
    · exact .inl ⟨a, s, read_eq.mpr ⟨ha, rfl⟩, hf⟩
    · exact .inr ⟨e, read_eq.mpr ⟨he, rfl⟩, hr⟩

def lift (x : Except ε α) : Statement σ ε α :=
  read fun _ => x

theorem lift_chain {x : Except ε α} : (lift x >>= f) s = (r, t) ↔
    (∃ a, x = .ok a ∧ f a s = (r, t)) ∨ ∃ e, x = .error e ∧ t = s ∧ r = .error e :=
  read_chain

theorem lift_eq {x r : Except ε α} : (lift x : Statement σ ε α) s = (r, t) ↔ x = r ∧ t = s :=
  read_eq

/-- Write the state, after checks that may throw. -/
def write (g : σ → Except ε σ) : Statement σ ε PUnit :=
  fun s =>
    match g s with
    | .ok t => (.ok ⟨⟩, t)
    | .error e => (.error e, s)

theorem write_ok {g : σ → Except ε σ} :
    (write g : Statement σ ε PUnit) s = (.ok u, t) ↔ g s = .ok t := by
  unfold write
  cases g s with
  | ok v =>
      constructor
      · intro h
        cases h
        rfl
      · intro h
        cases h
        rfl
  | error e =>
      constructor
      · intro h
        cases h
      · intro h
        cases h

/-- A write that cannot fail. -/
def update (g : σ → σ) : Statement σ ε PUnit :=
  write fun s => .ok (g s)

@[simp] theorem update_chain {g : σ → σ} {k : PUnit → Statement σ ε α} :
    (update g >>= k) s = k ⟨⟩ (g s) :=
  rfl

@[simp] theorem update_eq {g : σ → σ} : (update g : Statement σ ε PUnit) s = (.ok ⟨⟩, g s) :=
  rfl

/-- All or nothing: a throw takes back what was written. -/
def transaction (x : Statement σ ε α) : Statement σ ε α :=
  fun s =>
    match x s with
    | (.ok a, t) => (.ok a, t)
    | (.error e, _) => (.error e, s)

theorem transaction_ok : transaction x s = (.ok a, t) ↔ x s = (.ok a, t) := by
  unfold transaction
  rcases x s with ⟨_ | a', u⟩
  · constructor
    · intro h
      cases h
    · intro h
      cases h
  · rfl

def forget (x : Statement σ ε α) : Statement σ ε PUnit :=
  fun s =>
    match x s with
    | (.ok _, t) => (.ok ⟨⟩, t)
    | (.error e, t) => (.error e, t)

theorem forget_ok (h : forget x s = (.ok u, t)) : ∃ a, x s = (.ok a, t) := by
  unfold forget at h
  split at h
  · next a v hx =>
      cases h
      exact ⟨a, hx⟩
  · cases h

theorem branch_eq [Decidable p] {r : Except ε α} :
    (if p then x else y) s = (r, t) ↔ (p ∧ x s = (r, t)) ∨ (¬ p ∧ y s = (r, t)) := by
  by_cases hp : p
  · simp [hp]
  · simp [hp]

/-! ## Statements that change nothing when they throw -/

/-- From the state `s`, a throw leaves `s`. -/
def AtomicAt (s : σ) (x : Statement σ ε α) : Prop :=
  ∀ e t, x s = (.error e, t) → t = s

theorem atomicAt_done (s : σ) (a : α) : AtomicAt s (pure a : Statement σ ε α) := by
  intro e t h
  exact (done_eq.mp h).2

theorem atomicAt_transaction (s : σ) (x : Statement σ ε α) : AtomicAt s (transaction x) := by
  intro e t h
  unfold transaction at h
  split at h
  · cases h
  · cases h
    rfl

theorem atomicAt_forget (h : AtomicAt s x) : AtomicAt s (forget x) := by
  intro e t hforget
  unfold forget at hforget
  split at hforget
  · cases hforget
  · next e' v hx =>
      cases hforget
      exact h e t hx

theorem atomicAt_chain (h : ∀ a, g s = .ok a → AtomicAt s (f a)) :
    AtomicAt s (read g >>= f) := by
  intro e t hchain
  rcases chain_eq.mp hchain with ⟨a, u, hread, hf⟩ | ⟨e', hread, _⟩
  · obtain ⟨ha, rfl⟩ := read_eq.mp hread
    exact h a ha e t hf
  · exact (read_eq.mp hread).2

theorem atomicAt_write {g : σ → Except ε σ} {k : σ → Except ε β}
    (h : ∀ u, g s = .ok u → ∃ b, k u = .ok b) : AtomicAt s (write g >>= fun _ => read k) := by
  intro e t hchain
  rcases chain_eq.mp hchain with ⟨⟨⟩, u, hwrite, hread⟩ | ⟨e', hwrite, _⟩
  · obtain ⟨b, hb⟩ := h u (write_ok.mp hwrite)
    have := (read_eq.mp hread).1
    rw [hb] at this
    cases this
  · unfold write at hwrite
    split at hwrite
    · cases hwrite
    · cases hwrite
      rfl

theorem atomicAt_branch [Decidable p] (hx : p → AtomicAt s x) (hy : ¬ p → AtomicAt s y) :
    AtomicAt s (if p then x else y) := by
  by_cases hp : p
  · rw [if_pos hp]
    exact hx hp
  · rw [if_neg hp]
    exact hy hp

/-! ## What a statement does to the state, however it ends -/

theorem forget_state (x : Statement σ ε α) (s : σ) : (forget x s).2 = (x s).2 := by
  unfold forget
  rcases x s with ⟨_ | _, _⟩
  · rfl
  · rfl

theorem done_state (x : Statement σ ε α) (g : α → β) (s : σ) :
    ((x >>= fun a => pure (g a)) s).2 = (x s).2 := by
  rcases hend : (x >>= fun a => pure (g a)) s with ⟨r, t⟩
  obtain ⟨_, hx, _⟩ := chain_done hend
  rw [hx]

section
variable {R : σ → σ → Prop}

/-- The states before and after a statement are in `R`. -/
def Within (R : σ → σ → Prop) (x : Statement σ ε α) : Prop :=
  ∀ s, R s (x s).2

theorem within_done [Std.Refl R] (a : α) : Within R (pure a : Statement σ ε α) := fun s =>
  Std.Refl.refl s

theorem within_read [Std.Refl R] (g : σ → Except ε α) : Within R (read g) := fun s =>
  Std.Refl.refl s

theorem within_chain [IsTrans σ R] (hx : Within R x) (hf : ∀ a, Within R (f a)) :
    Within R (x >>= f) := by
  intro s
  rcases hend : (x >>= f) s with ⟨r, t⟩
  rcases chain_eq.mp hend with ⟨a, u, ha, hrest⟩ | ⟨e, hthrown, _⟩
  · have hfirst : R s u := by simpa [ha] using hx s
    have hsecond : R u t := by simpa [hrest] using hf a u
    exact IsTrans.trans s u t hfirst hsecond
  · simpa [hthrown] using hx s

theorem within_read_chain [Std.Refl R] (hf : ∀ s a, g s = .ok a → Within R (f a)) :
    Within R (read g >>= f) := by
  intro s
  rcases hend : (read g >>= f) s with ⟨r, t⟩
  rcases read_chain.mp hend with ⟨a, ha, hrest⟩ | ⟨e, _, rfl, _⟩
  · simpa [hrest] using hf s a ha s
  · exact Std.Refl.refl _

theorem within_write [Std.Refl R] {g : σ → Except ε σ} (h : ∀ s t, g s = .ok t → R s t) :
    Within R (write g : Statement σ ε PUnit) := by
  intro s
  unfold write
  cases hg : g s with
  | ok t => exact h s t hg
  | error e => exact Std.Refl.refl s

theorem within_transaction [Std.Refl R] (hx : Within R x) : Within R (transaction x) := by
  intro s
  have hs := hx s
  unfold transaction
  rcases h : x s with ⟨_ | a, t⟩
  · exact Std.Refl.refl s
  · rwa [h] at hs

theorem within_forget (hx : Within R x) : Within R (forget x) := fun s => by
  rw [forget_state]
  exact hx s

theorem within_branch [Decidable p] (hx : Within R x) (hy : Within R y) :
    Within R (if p then x else y) := by
  split
  · exact hx
  · exact hy

end

end Statement
