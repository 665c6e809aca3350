import Mathlib.Tactic.ByContra

/-!
# Attempts within a budget

A loop tries again and again, as long as the budget has another attempt.
An attempt either ends the loop or leaves a note for the next one; what the
loop comes to when the budget is spent is made of the last note.
-/

universe u v w

namespace Retries

structure Policy (α : Type u) (ρ : Type v) (ε : Type w) where
  allowed : Nat → Bool
  attempt : Nat → ε → α → ρ ⊕ ε
  giveUp : ε → ρ

variable {α : Type u} {ρ : Type v} {ε : Type w} (policy : Policy α ρ ε) (meets : Nat → α)

/-- The loop from attempt `n` on: how many attempts were made, and what came of them. -/
def loop : Nat → Nat → ε → Option (Nat × ρ)
  | 0, _, _ => none
  | fuel + 1, n, note =>
      if policy.allowed n then
        match policy.attempt n note (meets n) with
        | .inl r => some (n + 1, r)
        | .inr note => loop fuel (n + 1) note
      else some (n, policy.giveUp note)

/-- The loop comes to an end after so many attempts. -/
def Ends (note : ε) (made : Nat) (r : ρ) : Prop :=
  ∃ fuel, loop policy meets fuel 0 note = some (made, r)

/-- Attempt `n` is reached with this note. -/
inductive Reaches (start : ε) : Nat → ε → Prop where
  | zero : Reaches start 0 start
  | succ {n : Nat} {note next : ε} : Reaches start n note → policy.allowed n = true →
      policy.attempt n note (meets n) = .inr next → Reaches start (n + 1) next

variable {policy meets} {start note : ε} {n made : Nat} {r : ρ}

theorem Reaches.allowed (h : Reaches policy meets start n note) {i : Nat} (hi : i < n) :
    policy.allowed i = true := by
  induction h with
  | zero => exact absurd hi (Nat.not_lt_zero i)
  | succ _ hallowed _ ih =>
      rcases Nat.lt_succ_iff_lt_or_eq.mp hi with hlt | rfl
      · exact ih hlt
      · exact hallowed

theorem loop_spec {fuel : Nat} (hreach : Reaches policy meets start n note)
    (h : loop policy meets fuel n note = some (made, r)) :
    ∃ last final, Reaches policy meets start last final ∧
      ((policy.allowed last = true ∧ policy.attempt last final (meets last) = .inl r ∧
          made = last + 1) ∨
        (policy.allowed last = false ∧ r = policy.giveUp final ∧ made = last)) := by
  induction fuel generalizing n note with
  | zero => cases h
  | succ fuel ih =>
      rw [loop] at h
      cases hallowed : policy.allowed n with
      | false =>
          rw [hallowed] at h
          obtain ⟨rfl, rfl⟩ := Prod.mk.inj (Option.some.inj h)
          exact ⟨n, note, hreach, .inr ⟨hallowed, rfl, rfl⟩⟩
      | true =>
          rw [hallowed, if_pos rfl] at h
          cases hattempt : policy.attempt n note (meets n) with
          | inl s =>
              rw [hattempt] at h
              obtain ⟨rfl, rfl⟩ := Prod.mk.inj (Option.some.inj h)
              exact ⟨n, note, hreach, .inl ⟨hallowed, hattempt, rfl⟩⟩
          | inr next =>
              rw [hattempt] at h
              exact ih (hreach.succ hallowed hattempt) h

theorem Ends.reached (h : Ends policy meets start made r) :
    ∃ last final, Reaches policy meets start last final ∧
      ((policy.allowed last = true ∧ policy.attempt last final (meets last) = .inl r ∧
          made = last + 1) ∨
        (policy.allowed last = false ∧ r = policy.giveUp final ∧ made = last)) := by
  obtain ⟨fuel, hloop⟩ := h
  exact loop_spec .zero hloop

theorem loop_succ {fuel : Nat} (h : loop policy meets fuel n note = some (made, r)) :
    loop policy meets (fuel + 1) n note = some (made, r) := by
  induction fuel generalizing n note with
  | zero => cases h
  | succ fuel ih =>
      rw [loop] at h ⊢
      cases hallowed : policy.allowed n with
      | false =>
          rw [hallowed] at h
          exact h
      | true =>
          rw [hallowed, if_pos rfl] at h
          rw [if_pos rfl]
          cases hattempt : policy.attempt n note (meets n) with
          | inl s =>
              rw [hattempt] at h
              exact h
          | inr next =>
              rw [hattempt] at h
              exact ih h

theorem loop_mono {fuel more : Nat} (hle : fuel ≤ more)
    (h : loop policy meets fuel n note = some (made, r)) :
    loop policy meets more n note = some (made, r) := by
  induction hle with
  | refl => exact h
  | step _ ih => exact loop_succ ih

theorem Ends.unique {made' : Nat} {r' : ρ} (h : Ends policy meets start made r)
    (h' : Ends policy meets start made' r') : made = made' ∧ r = r' := by
  obtain ⟨fuel, hloop⟩ := h
  obtain ⟨fuel', hloop'⟩ := h'
  have hmost := loop_mono (Nat.le_max_left fuel fuel') hloop
  rw [loop_mono (Nat.le_max_right fuel fuel') hloop'] at hmost
  obtain ⟨hmade, hr⟩ := Prod.mk.inj (Option.some.inj hmost)
  exact ⟨hmade.symm, hr.symm⟩

theorem Reaches.loop_eq (h : Reaches policy meets start n note) (fuel : Nat) :
    Retries.loop policy meets (n + fuel) 0 start = Retries.loop policy meets fuel n note := by
  induction h generalizing fuel with
  | zero => rw [Nat.zero_add]
  | @succ n note next _ hallowed hattempt ih =>
      rw [Nat.add_right_comm, Nat.add_assoc, ih, Retries.loop, hallowed, if_pos rfl, hattempt]

theorem Reaches.ends_inl (h : Reaches policy meets start n note)
    (hallowed : policy.allowed n = true) (hattempt : policy.attempt n note (meets n) = .inl r) :
    Ends policy meets start (n + 1) r := by
  refine ⟨n + 1, ?_⟩
  rw [h.loop_eq, loop, hallowed, if_pos rfl, hattempt]

theorem Reaches.ends_giveUp (h : Reaches policy meets start n note)
    (hallowed : policy.allowed n = false) :
    Ends policy meets start n (policy.giveUp note) := by
  refine ⟨n + 1, ?_⟩
  rw [h.loop_eq, loop, hallowed]
  rfl

theorem ends_of_bound {bound : Nat} (h : policy.allowed bound = false) :
    ∃ made r, Ends policy meets start made r := by
  by_contra hnever
  have hall : ∀ n ≤ bound, ∃ note, Reaches policy meets start n note := by
    intro n hn
    induction n with
    | zero => exact ⟨start, .zero⟩
    | succ n ih =>
        obtain ⟨note, hreach⟩ := ih (Nat.le_of_succ_le hn)
        cases hallowed : policy.allowed n with
        | false => exact absurd ⟨n, _, hreach.ends_giveUp hallowed⟩ hnever
        | true =>
            cases hattempt : policy.attempt n note (meets n) with
            | inl r => exact absurd ⟨n + 1, r, hreach.ends_inl hallowed hattempt⟩ hnever
            | inr next => exact ⟨next, hreach.succ hallowed hattempt⟩
  obtain ⟨note, hreach⟩ := hall bound (Nat.le_refl bound)
  exact hnever ⟨bound, _, hreach.ends_giveUp h⟩

end Retries
