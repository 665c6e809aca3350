import Mathlib.Logic.Relation

/-!
# Threads that share a state

A thread makes one call after the other on a state that other threads
change between its calls.  What a thread may do is judged against its
rely, which says what the others may do meanwhile; and its own steps must
stay within what the others rely on.  Threads that are each safe in this
sense are safe together, in any order of their calls.

A routine is a thread that may throw.  The rules follow its shape: a
chain, a call, a handler.
-/

namespace Threads

/-- What a thread has still to do: answer, or make a call and go on with the reply. -/
inductive Thread (Call : Type) (Reply : Call → Type) (α : Type) where
  | done (a : α)
  | call (c : Call) (next : Reply c → Thread Call Reply α)

namespace Thread

variable {Call : Type} {Reply : Call → Type} {α β : Type}

def bind : Thread Call Reply α → (α → Thread Call Reply β) → Thread Call Reply β
  | .done a, f => f a
  | .call c next, f => .call c fun r => (next r).bind f

instance : Monad (Thread Call Reply) where
  pure := .done
  bind := .bind

def ask (c : Call) : Thread Call Reply (Reply c) :=
  .call c .done

def answer? : Thread Call Reply α → Option α
  | .done a => some a
  | .call _ _ => none

theorem answer?_eq_some {p : Thread Call Reply α} {a : α} : p.answer? = some a ↔ p = .done a := by
  cases p with
  | done b => exact ⟨fun h => congrArg _ (Option.some.inj h), fun h => by cases h; rfl⟩
  | call c next => exact ⟨nofun, nofun⟩

end Thread

/-- The thread makes only calls that are allowed, whatever they reply. -/
def Thread.Uses {Call : Type} {Reply : Call → Type} {α : Type} (allowed : Call → Prop) :
    Thread Call Reply α → Prop
  | .done _ => True
  | .call c next => allowed c ∧ ∀ r, (next r).Uses allowed

abbrev Routine (Call : Type) (Reply : Call → Type) (ε α : Type) :=
  ExceptT ε (Thread Call Reply) α

/-! ## Safe threads -/

structure Protocol (Call : Type) (Reply : Call → Type) (σ : Type) where
  /-- What a call of a thread may reply, and leave. -/
  exec : Nat → (c : Call) → σ → Reply c → σ → Prop
  /-- What holds between any two calls. -/
  inv : σ → Prop
  /-- What the other threads may do to what a thread knows. -/
  rely : Nat → σ → σ → Prop

namespace Protocol

open Relation

variable {Call : Type} {Reply : Call → Type} {σ α β ε : Type} {P : Protocol Call Reply σ}
  {i : Nat} {s t : σ}

/-- What a thread knows stays true whatever the others do. -/
def Stable (P : Protocol Call Reply σ) (i : Nat) (A : σ → Prop) : Prop :=
  ∀ s t, A s → P.rely i s t → A t

theorem Stable.closed {A : σ → Prop} (h : P.Stable i A) (hs : A s)
    (hrely : ReflTransGen (P.rely i) s t) : A t := by
  induction hrely with
  | refl => exact hs
  | tail _ hlast ih => exact h _ _ ih hlast

/-- The thread keeps the invariant and stays within what the others rely on, whatever they do
between its calls, and it answers with `Q`. -/
def Safe (P : Protocol Call Reply σ) (i : Nat) (Q : α → σ → Prop) :
    Thread Call Reply α → σ → Prop
  | .done a, s => ∀ t, ReflTransGen (P.rely i) s t → Q a t
  | .call c next, s => ∀ t, ReflTransGen (P.rely i) s t → P.inv t → ∀ r u, P.exec i c t r u →
      P.inv u ∧ (∀ j, j ≠ i → P.rely j t u) ∧ P.Safe i Q (next r) u

variable {Q Q' : α → σ → Prop} {p : Thread Call Reply α}

theorem Safe.stable : P.Stable i (P.Safe i Q p) := by
  intro s t h hrely
  cases p with
  | done a => exact fun u hu => h u (.head hrely hu)
  | call c next => exact fun u hu => h u (.head hrely hu)

theorem Safe.answers {a : α} (h : P.Safe i Q (.done a) s) : Q a s :=
  h s .refl

theorem Safe.mono (h : P.Safe i Q p s) (hQ : ∀ a t, Q a t → Q' a t) : P.Safe i Q' p s := by
  induction p generalizing s with
  | done a => exact fun t ht => hQ a t (h t ht)
  | call c next ih =>
      intro t ht hinv r u hexec
      obtain ⟨hkept, hother, hnext⟩ := h t ht hinv r u hexec
      exact ⟨hkept, hother, ih r hnext⟩

theorem Safe.done {a : α} (hstable : P.Stable i (Q a)) (h : Q a s) : P.Safe i Q (.done a) s :=
  fun _ ht => hstable.closed h ht

theorem Safe.call {A : σ → Prop} {c : Call} {next : Reply c → Thread Call Reply α}
    (hstable : P.Stable i A) (hs : A s)
    (h : ∀ t r u, A t → P.inv t → P.exec i c t r u →
      P.inv u ∧ (∀ j, j ≠ i → P.rely j t u) ∧ P.Safe i Q (next r) u) :
    P.Safe i Q (.call c next) s :=
  fun t ht hinv r u hexec => h t r u (hstable.closed hs ht) hinv hexec

theorem Safe.bind {f : α → Thread Call Reply β} {R : β → σ → Prop}
    (h : P.Safe i (fun a t => P.Safe i R (f a) t) p s) : P.Safe i R (p.bind f) s := by
  induction p generalizing s with
  | done a => exact h.answers
  | call c next ih =>
      intro t ht hinv r u hexec
      obtain ⟨hkept, hother, hnext⟩ := h t ht hinv r u hexec
      exact ⟨hkept, hother, ih r hnext⟩

/-! ### Routines -/

variable {x : Routine Call Reply ε α} {R : Except ε β → σ → Prop}

/-- What a chain still has to be after its first routine. -/
def After (P : Protocol Call Reply σ) (i : Nat) (R : Except ε β → σ → Prop)
    (f : α → Routine Call Reply ε β) : Except ε α → σ → Prop
  | .ok a => P.Safe i R (f a).run
  | .error e => R (.error e)

theorem Safe.chain {f : α → Routine Call Reply ε β} (hstable : ∀ e, P.Stable i (R (.error e)))
    (h : P.Safe i (P.After i R f) x.run s) : P.Safe i R (x >>= f).run s := by
  refine Safe.bind (f := ExceptT.bindCont f) (h.mono fun r t hr => ?_)
  cases r with
  | ok a => exact hr
  | error e => exact .done (hstable e) hr

/-- What a handler has to make of what was thrown. -/
def Handled (P : Protocol Call Reply σ) (i : Nat) (R : Except ε α → σ → Prop)
    (f : ε → Routine Call Reply ε α) : Except ε α → σ → Prop
  | .ok a => R (.ok a)
  | .error e => P.Safe i R (f e).run

theorem Safe.catches {f : ε → Routine Call Reply ε α} {R : Except ε α → σ → Prop}
    (hstable : ∀ a, P.Stable i (R (.ok a))) (h : P.Safe i (P.Handled i R f) x.run s) :
    P.Safe i R (tryCatch x f : Routine Call Reply ε α).run s := by
  have hrun : (tryCatch x f : Routine Call Reply ε α).run = x.run >>= fun r =>
      match r with
      | .ok a => pure (.ok a)
      | .error e => (f e).run := by
    show (ExceptT.tryCatch x f).run = _
    unfold ExceptT.tryCatch
    show (x.run >>= _ : Thread Call Reply _) = _
    congr 1
    funext r
    cases r <;> rfl
  rw [hrun]
  refine Safe.bind (h.mono fun r t hr => ?_)
  cases r with
  | ok a => exact Safe.done (hstable a) hr
  | error e => exact hr

theorem Safe.chain_of_ok {f : α → Routine Call Reply ε β}
    (h : P.Safe i (fun r t => ∃ a, r = .ok a ∧ P.Safe i R (f a).run t) x.run s) :
    P.Safe i R (x >>= f).run s := by
  refine Safe.bind (f := ExceptT.bindCont f) (h.mono fun r t hr => ?_)
  obtain ⟨a, rfl, hnext⟩ := hr
  exact hnext

theorem Safe.catches_of_ok {f : ε → Routine Call Reply ε α} {R : Except ε α → σ → Prop}
    (hstable : ∀ a, P.Stable i (R (.ok a)))
    (h : P.Safe i (fun r t => ∃ a, r = .ok a ∧ R (.ok a) t) x.run s) :
    P.Safe i R (tryCatch x f : Routine Call Reply ε α).run s := by
  refine Safe.catches hstable (h.mono fun r t hr => ?_)
  obtain ⟨a, rfl, hdone⟩ := hr
  exact hdone

theorem Safe.returns {a : α} {R : Except ε α → σ → Prop} (hstable : P.Stable i (R (.ok a)))
    (h : R (.ok a) s) : P.Safe i R (pure a : Routine Call Reply ε α).run s :=
  .done hstable h

theorem Safe.throws {e : ε} {R : Except ε α → σ → Prop} (hstable : P.Stable i (R (.error e)))
    (h : R (.error e) s) : P.Safe i R (throw e : Routine Call Reply ε α).run s :=
  .done hstable h

/-! ### Routines that leave alone what is known -/

section
variable {allowed : Call → Prop} {A : σ → Prop}

theorem Safe.of_uses (hstable : P.Stable i A)
    (hkeeps : ∀ c t r u, allowed c → A t → P.inv t → P.exec i c t r u →
      P.inv u ∧ (∀ j, j ≠ i → P.rely j t u) ∧ A u)
    (huses : p.Uses allowed) (hs : A s) : P.Safe i (fun _ => A) p s := by
  induction p generalizing s with
  | done a => exact .done hstable hs
  | call c next ih =>
      refine .call hstable hs fun t r u ht hinv hexec => ?_
      obtain ⟨hkept, hother, hnext⟩ := hkeeps c t r u huses.1 ht hinv hexec
      exact ⟨hkept, hother, ih r (huses.2 r) hnext⟩

theorem uses_bind {f : α → Thread Call Reply β} (h : p.Uses allowed)
    (hf : ∀ a, (f a).Uses allowed) : (p.bind f).Uses allowed := by
  induction p with
  | done a => exact hf a
  | call c next ih => exact ⟨h.1, fun r => ih r (h.2 r)⟩

theorem uses_chain {f : α → Routine Call Reply ε β} (h : x.run.Uses allowed)
    (hf : ∀ a, (f a).run.Uses allowed) : (x >>= f).run.Uses allowed := by
  refine uses_bind (f := ExceptT.bindCont f) h fun r => ?_
  cases r with
  | ok a => exact hf a
  | error e => exact trivial

theorem uses_catches {f : ε → Routine Call Reply ε α} (h : x.run.Uses allowed)
    (hf : ∀ e, (f e).run.Uses allowed) :
    (tryCatch x f : Routine Call Reply ε α).run.Uses allowed := by
  refine uses_bind h fun r => ?_
  cases r with
  | ok a => exact trivial
  | error e => exact hf e

theorem uses_returns (a : α) : (pure a : Routine Call Reply ε α).run.Uses allowed :=
  trivial

theorem uses_throws (e : ε) : (throw e : Routine Call Reply ε α).run.Uses allowed :=
  trivial

end

/-! ## Threads together -/

/-- Threads that are safe on the state they share, and nothing known of those to come. -/
structure Together (P : Protocol Call Reply σ) (idle : Nat → σ → Prop) (Q : Nat → α → σ → Prop)
    (s : σ) (threads : List (Thread Call Reply α)) : Prop where
  inv : P.inv s
  safe : ∀ i p, threads[i]? = some p → P.Safe i (Q i) p s
  idle : ∀ i, threads.length ≤ i → idle i s

section
variable {idle : Nat → σ → Prop} {Q : Nat → α → σ → Prop} {threads : List (Thread Call Reply α)}

theorem Together.start (h : P.Together idle Q s threads)
    (hsafe : P.inv s → idle threads.length s → P.Safe threads.length (Q threads.length) p s) :
    P.Together idle Q s (threads ++ [p]) where
  inv := h.inv
  safe i q hq := by
    rcases Nat.lt_trichotomy i threads.length with hlt | rfl | hgt
    · rw [List.getElem?_append_left hlt] at hq
      exact h.safe i q hq
    · rw [List.getElem?_concat_length] at hq
      cases hq
      exact hsafe h.inv (h.idle _ (Nat.le_refl _))
    · rw [List.getElem?_eq_none (by rw [List.length_append]; exact hgt)] at hq
      cases hq
  idle i hi := by
    rw [List.length_append] at hi
    exact h.idle i (Nat.le_of_succ_le hi)

theorem Together.step {c : Call} {next : Reply c → Thread Call Reply α} {r : Reply c}
    (h : P.Together idle Q s threads) (hidle : ∀ i, P.Stable i (idle i))
    (hthread : threads[i]? = some (.call c next)) (hexec : P.exec i c s r t) :
    P.Together idle Q t (threads.set i (next r)) := by
  obtain ⟨hinv, hother, hnext⟩ := h.safe i _ hthread s .refl h.inv r t hexec
  have hlt : i < threads.length := (List.getElem?_eq_some_iff.mp hthread).1
  refine ⟨hinv, fun j q hq => ?_, fun j hj => ?_⟩
  · by_cases hj : j = i
    · rw [hj, List.getElem?_set_self hlt] at hq
      cases hq
      exact hj ▸ hnext
    · rw [List.getElem?_set_ne (Ne.symm hj)] at hq
      exact Safe.stable s t (h.safe j q hq) (hother j hj)
  · rw [List.length_set] at hj
    exact hidle j s t (h.idle j hj) (hother j fun hji => by omega)

theorem Together.answers {a : α} (h : P.Together idle Q s threads)
    (hthread : threads[i]? = some (.done a)) : Q i a s :=
  (h.safe i _ hthread).answers

end

end Protocol

end Threads
