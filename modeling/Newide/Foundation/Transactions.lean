import Mathlib.Logic.Relation
import Newide.Foundation.Fallible

/-!
# Transactions

A script over a state that may throw: a throw loses what the script
wrote, so a script that throws has no effect.  The rules say when a
chain of scripts succeeds and, for a relation that composes, when a
script only moves the state along it.
-/

namespace Transaction

universe u

variable {σ ε α β : Type u}

/-- A script over `σ`. -/
abbrev Script (σ ε α : Type u) := StateT σ (Except ε) α

@[simp] theorem chain_eq_ok {x : Script σ ε α} {f : α → Script σ ε β} {s : σ} {out : β × σ} :
    (x >>= f) s = .ok out ↔ ∃ a s', x s = .ok (a, s') ∧ f a s' = .ok out := by
  show (x s >>= fun p => f p.1 p.2) = _ ↔ _
  rw [Fallible.bind_eq_ok]
  constructor
  · rintro ⟨⟨a, s'⟩, hx, hf⟩
    exact ⟨a, s', hx, hf⟩
  · rintro ⟨a, s', hx, hf⟩
    exact ⟨(a, s'), hx, hf⟩

@[simp] theorem done_eq_ok {a b : α} {s s' : σ} :
    (pure a : Script σ ε α) s = .ok (b, s') ↔ a = b ∧ s = s' := by
  show (Except.ok (a, s) : Except ε (α × σ)) = _ ↔ _
  rw [Except.ok.injEq, Prod.mk.injEq]

@[simp] theorem map_eq_ok {f : α → β} {x : Script σ ε α} {b : β} {s s' : σ} :
    (f <$> x) s = .ok (b, s') ↔ ∃ a, x s = .ok (a, s') ∧ f a = b := by
  rw [map_eq_pure_bind, chain_eq_ok]
  constructor
  · rintro ⟨a, t, hx, hf⟩
    obtain ⟨hb, rfl⟩ := done_eq_ok.mp hf
    exact ⟨a, hx, hb⟩
  · rintro ⟨a, hx, hb⟩
    exact ⟨a, s', hx, done_eq_ok.mpr ⟨hb, rfl⟩⟩

@[simp] theorem branch_eq_ok {p : Prop} [Decidable p] {x y : Script σ ε α} {s : σ}
    {out : α × σ} :
    (if p then x else y) s = .ok out ↔ (p ∧ x s = .ok out) ∨ (¬ p ∧ y s = .ok out) := by
  by_cases hp : p
  · simp [hp]
  · simp [hp]

def query (f : σ → α) : Script σ ε α :=
  fun s => .ok (f s, s)

@[simp] theorem query_eq_ok {f : σ → α} {b : α} {s s' : σ} :
    (query f : Script σ ε α) s = .ok (b, s') ↔ f s = b ∧ s = s' := by
  simp [query]

def write (f : σ → σ) : Script σ ε PUnit :=
  fun s => .ok (⟨⟩, f s)

@[simp] theorem write_eq_ok {f : σ → σ} {b : PUnit} {s s' : σ} :
    (write f : Script σ ε PUnit) s = .ok (b, s') ↔ f s = s' := by
  simp [write]

/-- A computation that does not look at the state. -/
def lift (x : Except ε α) : Script σ ε α :=
  fun s => x.map fun a => (a, s)

@[simp] theorem lift_eq_ok {x : Except ε α} {b : α} {s s' : σ} :
    (lift x : Script σ ε α) s = .ok (b, s') ↔ x = .ok b ∧ s = s' := by
  cases x with
  | error e => simp [lift, Except.map]
  | ok a => simp [lift, Except.map]

/-! ## Scripts that move along a relation -/

/-- Whenever the script succeeds it has moved the state along `R`. -/
def Keeps (R : σ → σ → Prop) (x : Script σ ε α) : Prop :=
  ∀ s a s', x s = .ok (a, s') → R s s'

namespace Keeps

variable {R : σ → σ → Prop} {x : Script σ ε α} {f : α → Script σ ε β}

theorem bind (htrans : ∀ {a b c}, R a b → R b c → R a c) (hx : Keeps R x)
    (hf : ∀ a, Keeps R (f a)) : Keeps R (x >>= f) := by
  intro s b s'' h
  obtain ⟨a, s', hxs, hfs⟩ := chain_eq_ok.mp h
  exact htrans (hx s a s' hxs) (hf a s' b s'' hfs)

theorem pure (hrefl : ∀ a, R a a) (a : α) : Keeps R (Pure.pure a : Script σ ε α) := by
  intro s b s' h
  obtain ⟨rfl, rfl⟩ := done_eq_ok.mp h
  exact hrefl s

theorem query (hrefl : ∀ a, R a a) (f : σ → α) : Keeps R (Transaction.query f : Script σ ε α) := by
  intro s b s' h
  obtain ⟨rfl, rfl⟩ := query_eq_ok.mp h
  exact hrefl s

theorem lift (hrefl : ∀ a, R a a) (x : Except ε α) :
    Keeps R (Transaction.lift x : Script σ ε α) := by
  intro s b s' h
  obtain ⟨_, rfl⟩ := lift_eq_ok.mp h
  exact hrefl s

theorem ite {p : Prop} [Decidable p] {y z : Script σ ε α} (hy : p → Keeps R y)
    (hz : ¬ p → Keeps R z) : Keeps R (if p then y else z) := by
  by_cases hp : p
  · rw [if_pos hp]
    exact hy hp
  · rw [if_neg hp]
    exact hz hp

end Keeps

end Transaction
