import Newide.Foundation.WorkPools
import Mathlib.Data.List.Range

/-!
# Runs of a pool of work

The journal of a pool keeps what was handed in, which job was started while
which others waited, and what every job came to.  Along every run the
journal and the pool agree: each job is in one place, has been started at
most once, and has come to its own outcome.
-/

universe u v

namespace WorkPools

/-- What happens to a pool: a job is handed in, or one under way ends. -/
inductive Call (J : Type u) where
  | submit (job : J)
  | finish (ticket : Nat)

/-- A job that was started, and what waited when it was. -/
structure Started (J : Type u) where
  ticket : Nat
  job : J
  waiting : List (Nat × J)

structure Journal (J : Type u) (R : Type v) where
  pool : Pool J R
  submitted : List J
  starts : List (Started J)
  settlements : List (Nat × R)

namespace Journal

variable {J : Type u} {R : Type v}

def empty : Journal J R where
  pool := Pool.empty
  submitted := []
  starts := []
  settlements := []

/-- Take the first job that waits, if there is room. -/
def start (policy : Policy J R) (journal : Journal J R) : Journal J R :=
  { journal with
    pool := journal.pool.start policy
    starts := journal.starts ++ (journal.pool.started policy).toList.map fun entry =>
      ⟨entry.1, entry.2, journal.pool.queue.tail⟩ }

def enqueue (policy : Policy J R) (journal : Journal J R) (job : J) : Journal J R :=
  { journal with
    pool := journal.pool.enqueue policy job
    submitted := journal.submitted ++ [job] }

def release (policy : Policy J R) (journal : Journal J R) (ticket : Nat) (job : J) :
    Journal J R :=
  { journal with
    pool := journal.pool.release policy ticket job
    settlements := journal.settlements ++ [(ticket, policy.run job)] }

def next (policy : Policy J R) (journal : Journal J R) : Call J → Journal J R
  | .submit job => (journal.enqueue policy job).start policy
  | .finish ticket =>
      match journal.pool.active.find? fun job => job.1 = ticket with
      | none => journal
      | some job => (journal.release policy ticket job.2).start policy

def run (policy : Policy J R) (calls : List (Call J)) : Journal J R :=
  calls.foldl (next policy) empty

variable {policy : Policy J R} {journal : Journal J R} {ticket : Nat} {job : J}
  {calls : List (Call J)} {call : Call J}

theorem next_pool_submit (policy : Policy J R) (journal : Journal J R) (job : J) :
    (journal.next policy (.submit job)).pool = journal.pool.submit policy job := rfl

theorem next_pool_finish (policy : Policy J R) (journal : Journal J R) (ticket : Nat) :
    (journal.next policy (.finish ticket)).pool = journal.pool.finish policy ticket := by
  rw [next, Pool.finish]
  cases journal.pool.active.find? fun job => job.1 = ticket with
  | none => rfl
  | some job => rfl

theorem next_finish (policy : Policy J R) (journal : Journal J R) (ticket : Nat) :
    journal.next policy (.finish ticket) = journal ∨
      ∃ job, (ticket, job) ∈ journal.pool.active ∧
        journal.next policy (.finish ticket) =
          (journal.release policy ticket job).start policy := by
  cases hfind : journal.pool.active.find? fun job => job.1 = ticket with
  | none => exact .inl (by simp only [next, hfind])
  | some entry =>
      have hticket : entry.1 = ticket := of_decide_eq_true (List.find?_some hfind :)
      refine .inr ⟨entry.2, ?_, by simp only [next, hfind]⟩
      rw [← hticket]
      exact List.mem_of_find?_eq_some hfind

/-! ## The books -/

/-- The journal accounts for every job that was handed in. -/
structure Balanced (policy : Policy J R) (journal : Journal J R) : Prop where
  counted : journal.pool.issued = journal.submitted.length
  named : ∀ entry ∈ journal.pool.pending, journal.submitted[entry.1]? = some entry.2
  own : ∀ settlement ∈ journal.settlements, ∃ job,
    journal.submitted[settlement.1]? = some job ∧ settlement.2 = policy.run job
  /-- Every ticket is once among those that are pending or settled. -/
  placed : (journal.pool.pending.map Prod.fst ++ journal.settlements.map Prod.fst).Perm
    (List.range journal.submitted.length)
  /-- What was started is under way or settled. -/
  begun : (journal.starts.map Started.ticket).Perm
    (journal.pool.active.map Prod.fst ++ journal.settlements.map Prod.fst)
  /-- And it was started as what it was handed in as. -/
  taken : ∀ start ∈ journal.starts, journal.submitted[start.ticket]? = some start.job
  waited : ∀ start ∈ journal.starts, ∀ other ∈ start.waiting,
    journal.submitted[other.1]? = some other.2

theorem balanced_empty (policy : Policy J R) : (empty : Journal J R).Balanced policy where
  counted := rfl
  named := fun _ h => (by cases h)
  own := fun _ h => (by cases h)
  placed := .refl _
  begun := .refl _
  taken := fun _ h => (by cases h)
  waited := fun _ h => (by cases h)

theorem start_of_none (h : journal.pool.started policy = none) :
    journal.start policy = journal := by
  unfold start
  rw [Pool.start_of_none h, h]
  simp only [Option.toList_none, List.map_nil, List.append_nil]

theorem start_of_some {entry : Nat × J} (h : journal.pool.started policy = some entry) :
    ∃ rest, journal.pool.queue = entry :: rest ∧ journal.start policy = { journal with
      pool := { journal.pool with queue := rest, active := entry :: journal.pool.active }
      starts := journal.starts ++ [⟨entry.1, entry.2, rest⟩] } := by
  obtain ⟨rest, hqueue, heq⟩ := Pool.start_of_some h
  refine ⟨rest, hqueue, ?_⟩
  unfold start
  rw [heq, h, hqueue]
  rfl

theorem Balanced.start (h : journal.Balanced policy) : (journal.start policy).Balanced policy := by
  cases hstarted : journal.pool.started policy with
  | none =>
      rw [start_of_none hstarted]
      exact h
  | some entry =>
      obtain ⟨rest, hqueue, heq⟩ := start_of_some hstarted
      have hmoved : (rest ++ entry :: journal.pool.active).Perm journal.pool.pending := by
        rw [Pool.pending, hqueue]
        exact List.perm_middle
      have hentry : entry ∈ journal.pool.pending := by
        rw [Pool.pending, hqueue]
        exact List.mem_cons_self
      rw [heq]
      exact {
        counted := h.counted
        named := fun other hother => h.named other (hmoved.mem_iff.mp hother)
        own := h.own
        placed := ((hmoved.map Prod.fst).append_right _).trans h.placed
        begun := by
          rw [List.map_append, List.map_cons, List.map_nil]
          exact List.perm_append_comm.trans (h.begun.cons entry.1)
        taken := fun start hmem => by
          rcases List.mem_append.mp hmem with hold | hnew
          · exact h.taken start hold
          · rw [List.mem_singleton.mp hnew]
            exact h.named entry hentry
        waited := fun start hmem other hother => by
          rcases List.mem_append.mp hmem with hold | hnew
          · exact h.waited start hold other hother
          · rw [List.mem_singleton.mp hnew] at hother
            exact h.named other (hmoved.mem_iff.mp (List.mem_append_left _ hother)) }

theorem Balanced.enqueue (h : journal.Balanced policy) (job : J) :
    (journal.enqueue policy job).Balanced policy := by
  have hpending : (journal.enqueue policy job).pool.pending.Perm
      ((journal.pool.issued, job) :: journal.pool.pending) := by
    refine ((List.perm_insertionSort _ _).append_right _).trans ?_
    rw [Pool.pending, List.append_assoc, List.singleton_append]
    exact List.perm_middle
  have hkept : ∀ {ticket : Nat} {found : J}, journal.submitted[ticket]? = some found →
      (journal.submitted ++ [job])[ticket]? = some found := by
    intro ticket found hfound
    rw [List.getElem?_append_left (List.getElem?_eq_some_iff.mp hfound).1]
    exact hfound
  exact {
    counted := by
      rw [show (journal.enqueue policy job).submitted = journal.submitted ++ [job] from rfl,
        List.length_append, ← h.counted]
      rfl
    named := fun entry hentry => by
      rcases List.mem_cons.mp (hpending.mem_iff.mp hentry) with rfl | hold
      · change (journal.submitted ++ [job])[journal.pool.issued]? = some job
        rw [h.counted]
        exact List.getElem?_concat_length
      · exact hkept (h.named entry hold)
    own := fun settlement hmem => by
      obtain ⟨found, hfound, hrun⟩ := h.own settlement hmem
      exact ⟨found, hkept hfound, hrun⟩
    placed := by
      change (List.map Prod.fst _ ++ journal.settlements.map Prod.fst).Perm
        (List.range (journal.submitted ++ [job]).length)
      rw [List.length_append, List.length_singleton, List.range_succ, ← h.counted]
      refine ((hpending.map Prod.fst).append_right _).trans ?_
      rw [List.map_cons, List.cons_append, h.counted]
      exact (h.placed.cons _).trans (List.perm_append_singleton _ _).symm
    begun := h.begun
    taken := fun start hmem => hkept (h.taken start hmem)
    waited := fun start hmem other hother => hkept (h.waited start hmem other hother) }

theorem Balanced.release (h : journal.Balanced policy) (hvalid : journal.pool.Valid policy)
    (hmem : (ticket, job) ∈ journal.pool.active) :
    (journal.release policy ticket job).Balanced policy := by
  have hactive := hvalid.active_perm hmem
  have hpending := hvalid.pending_filter hmem
  have hended : ∀ rest : List Nat, (rest ++ (journal.settlements ++
      [(ticket, policy.run job)]).map Prod.fst).Perm
        (ticket :: rest ++ journal.settlements.map Prod.fst) := by
    intro rest
    rw [List.map_append, ← List.append_assoc]
    exact List.perm_append_singleton _ _
  exact {
    counted := h.counted
    named := fun entry hentry => h.named entry (hpending.mem_iff.mpr (.tail _ hentry))
    own := fun settlement hsettled => by
      rcases List.mem_append.mp hsettled with hold | hnew
      · exact h.own settlement hold
      · rw [List.mem_singleton.mp hnew]
        exact ⟨job, h.named _ (List.mem_append_right _ hmem), rfl⟩
    placed := (hended _).trans
      (((hpending.map Prod.fst).append_right _).symm.trans h.placed)
    begun := (h.begun.trans ((hactive.map Prod.fst).append_right _)).trans (hended _).symm
    taken := h.taken
    waited := h.waited }

/-! ## Every run -/

/-- The pool is valid, within its room and accounted for. -/
structure Sound (policy : Policy J R) (journal : Journal J R) : Prop where
  valid : journal.pool.Valid policy
  within : journal.pool.Within policy
  balanced : journal.Balanced policy

theorem sound_empty (policy : Policy J R) : (empty : Journal J R).Sound policy where
  valid := Pool.valid_empty policy
  within := fun _ h => absurd h (Nat.not_lt_zero _)
  balanced := balanced_empty policy

theorem Sound.next (h : journal.Sound policy) (call : Call J) :
    (journal.next policy call).Sound policy := by
  cases call with
  | submit job =>
      refine ⟨?_, ?_, (h.balanced.enqueue job).start⟩
      · rw [next_pool_submit]
        exact h.valid.submit job
      · rw [next_pool_submit]
        exact h.within.submit job
  | finish ticket =>
      refine ⟨?_, ?_, ?_⟩
      · rw [next_pool_finish]
        exact h.valid.finish ticket
      · rw [next_pool_finish]
        exact h.within.finish ticket
      · rcases next_finish policy journal ticket with heq | ⟨job, hmem, heq⟩
        · rw [heq]
          exact h.balanced
        · rw [heq]
          exact (h.balanced.release h.valid hmem).start

theorem sound_run (policy : Policy J R) (calls : List (Call J)) :
    (run policy calls).Sound policy :=
  List.foldlRecOn calls (Journal.next policy) (sound_empty policy) fun _ h call _ => h.next call

theorem run_submitted (policy : Policy J R) (calls : List (Call J)) :
    ∀ job ∈ (run policy calls).submitted, Call.submit job ∈ calls := by
  induction calls using List.reverseRecOn with
  | nil => exact fun job h => (by cases h)
  | append_singleton calls call ih =>
      intro job hmem
      rw [run, List.foldl_append] at hmem
      change job ∈ (Journal.next policy (run policy calls) call).submitted at hmem
      cases call with
      | submit other =>
          rcases List.mem_append.mp hmem with hold | hnew
          · exact List.mem_append_left _ (ih job hold)
          · rw [List.mem_singleton.mp hnew]
            exact List.mem_append_right _ List.mem_cons_self
      | finish ticket =>
          refine List.mem_append_left _ (ih job ?_)
          rcases next_finish policy (run policy calls) ticket with heq | ⟨ended, _, heq⟩
          · rwa [heq] at hmem
          · rwa [heq] at hmem

/-! ## The order of the starts -/

section Order

variable {α : Type*} [LinearOrder α] {rank : J → α}

/-- The queue is in order, and no job was started before one that goes first. -/
structure Orderly (rank : J → α) (journal : Journal J R) : Prop where
  queue : journal.pool.Ordered rank
  starts : ∀ start ∈ journal.starts, ∀ other ∈ start.waiting,
    Pool.Before rank (start.ticket, start.job) other

theorem orderly_empty (rank : J → α) : (empty : Journal J R).Orderly rank where
  queue := List.Pairwise.nil
  starts := fun _ h => (by cases h)

theorem Orderly.start (h : journal.Orderly rank) : (journal.start policy).Orderly rank := by
  refine ⟨h.queue.start, ?_⟩
  cases hstarted : journal.pool.started policy with
  | none =>
      rw [start_of_none hstarted]
      exact h.starts
  | some entry =>
      obtain ⟨rest, hqueue, heq⟩ := start_of_some hstarted
      have hordered := h.queue
      unfold Pool.Ordered at hordered
      rw [hqueue] at hordered
      rw [heq]
      intro start hmem
      rcases List.mem_append.mp hmem with hold | hnew
      · exact h.starts start hold
      · rw [List.mem_singleton.mp hnew]
        exact (List.pairwise_cons.mp hordered).1

def GoesBy (rank : J → α) (policy : Policy J R) (kind : J → Prop) : Prop :=
  ∀ a b, kind a → kind b → (policy.first a b = true ↔ rank b ≤ rank a)

theorem Orderly.next {kind : J → Prop} (hkind : GoesBy rank policy kind)
    (hsound : journal.Sound policy) (hall : ∀ job ∈ (journal.next policy call).submitted, kind job)
    (h : journal.Orderly rank) : (journal.next policy call).Orderly rank := by
  cases call with
  | submit job =>
      have hjob : ∀ entry ∈ journal.pool.queue ++ [(journal.pool.issued, job)],
          kind entry.2 := by
        intro entry hmem
        refine hall entry.2 ?_
        rcases List.mem_append.mp hmem with hold | hnew
        · have hnamed := hsound.balanced.named entry (List.mem_append_left _ hold)
          exact List.mem_append_left _ (List.mem_of_getElem? hnamed)
        · rw [List.mem_singleton.mp hnew]
          exact List.mem_append_right _ List.mem_cons_self
      have hranked : Pool.RankedBy rank policy
          (journal.pool.queue ++ [(journal.pool.issued, job)]) :=
        fun a ha b hb => hkind a.2 b.2 (hjob a ha) (hjob b hb)
      have hqueued : (journal.enqueue policy job).Orderly rank :=
        ⟨h.queue.enqueue hsound.valid hranked, h.starts⟩
      exact hqueued.start
  | finish ticket =>
      rcases next_finish policy journal ticket with heq | ⟨job, _, heq⟩
      · rw [heq]
        exact h
      · rw [heq]
        have hreleased : (journal.release policy ticket job).Orderly rank := ⟨h.queue, h.starts⟩
        exact hreleased.start

theorem orderly_run {kind : J → Prop} (hkind : GoesBy rank policy kind)
    (hall : ∀ job, Call.submit job ∈ calls → kind job) : (run policy calls).Orderly rank := by
  induction calls using List.reverseRecOn with
  | nil => exact orderly_empty rank
  | append_singleton calls call ih =>
      have hsubmitted := run_submitted policy (calls ++ [call])
      rw [run, List.foldl_append] at hsubmitted ⊢
      exact (ih fun job hjob => hall job (List.mem_append_left _ hjob)).next hkind
        (sound_run policy calls) fun job hjob => hall job (hsubmitted job hjob)

end Order

end Journal

end WorkPools
