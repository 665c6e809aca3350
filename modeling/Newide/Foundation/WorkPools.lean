import Mathlib.Data.List.Nodup
import Mathlib.Data.List.Perm.Basic
import Mathlib.Data.List.Sort
import Mathlib.Logic.Function.Basic

/-!
# Pools of work

A pool takes jobs, keeps those that wait in an order of its own, and has
as many of them under way as it has room for.  Whoever hands in a job gets
a ticket for what it comes to.  Whatever the order and the room, a job
keeps its ticket and comes to its own outcome; and a pool with room for
one job never rests while a job waits.
-/

universe u v

namespace WorkPools

/-- What comes first, when the pool is full, and what a job comes to. -/
structure Policy (J : Type u) (R : Type v) where
  first : J → J → Bool
  full : Nat → Bool
  run : J → R

structure Pool (J : Type u) (R : Type v) where
  queue : List (Nat × J)
  active : List (Nat × J)
  settled : Nat → Option R
  issued : Nat

namespace Pool

variable {J : Type u} {R : Type v}

def empty : Pool J R where
  queue := []
  active := []
  settled := fun _ => none
  issued := 0

/-- Take the first job that waits, if there is room. -/
def start (policy : Policy J R) (pool : Pool J R) : Pool J R :=
  if policy.full pool.active.length then pool
  else match pool.queue with
    | [] => pool
    | job :: rest => { pool with queue := rest, active := job :: pool.active }

def submit (policy : Policy J R) (pool : Pool J R) (job : J) : Pool J R :=
  start policy { pool with
    queue := (pool.queue ++ [(pool.issued, job)]).insertionSort fun a b => policy.first a.2 b.2
    issued := pool.issued + 1 }

def finish (policy : Policy J R) (pool : Pool J R) (ticket : Nat) : Pool J R :=
  match pool.active.find? fun job => job.1 = ticket with
  | none => pool
  | some job => start policy { pool with
      active := pool.active.filter fun other => other.1 ≠ ticket
      settled := Function.update pool.settled ticket (some (policy.run job.2)) }

/-- The jobs whose outcome is still to come. -/
def pending (pool : Pool J R) : List (Nat × J) := pool.queue ++ pool.active

/-- The pool has this job under this ticket, or what it came to. -/
def Holds (policy : Policy J R) (pool : Pool J R) (ticket : Nat) (job : J) : Prop :=
  (ticket, job) ∈ pool.pending ∨ pool.settled ticket = some (policy.run job)

/-- Every job has a ticket of its own, and none waits for nothing. -/
structure Valid (policy : Policy J R) (pool : Pool J R) : Prop where
  distinct : (pool.pending.map Prod.fst).Nodup
  below : ∀ job ∈ pool.pending, job.1 < pool.issued
  waiting : ∀ job ∈ pool.pending, pool.settled job.1 = none
  unsettled : ∀ ticket, pool.issued ≤ ticket → pool.settled ticket = none
  busy : pool.queue ≠ [] → policy.full pool.active.length = true

variable {policy : Policy J R} {pool : Pool J R} {ticket : Nat} {job other : J}

theorem valid_empty (policy : Policy J R) : (empty : Pool J R).Valid policy where
  distinct := List.nodup_nil
  below := fun _ h => (by cases h)
  waiting := fun _ _ => rfl
  unsettled := fun _ _ => rfl
  busy := fun h => absurd rfl h

/-! ## What a start leaves alone -/

@[simp] theorem start_settled (policy : Policy J R) (pool : Pool J R) :
    (pool.start policy).settled = pool.settled := by
  unfold start
  split
  · rfl
  · split <;> rfl

@[simp] theorem start_issued (policy : Policy J R) (pool : Pool J R) :
    (pool.start policy).issued = pool.issued := by
  unfold start
  split
  · rfl
  · split <;> rfl

theorem start_pending (policy : Policy J R) (pool : Pool J R) :
    (pool.start policy).pending.Perm pool.pending := by
  unfold start pending
  split
  · exact .refl _
  · split
    case h_1 => exact .refl _
    case h_2 job rest hqueue =>
      rw [hqueue]
      exact List.perm_middle

theorem Holds.of_eq {next : Pool J R} (h : pool.Holds policy ticket job)
    (hpending : ∀ entry ∈ pool.pending, entry ∈ next.pending)
    (hsettled : next.settled ticket = pool.settled ticket) : next.Holds policy ticket job := by
  rcases h with hmem | hsome
  · exact .inl (hpending _ hmem)
  · exact .inr (hsettled.trans hsome)

theorem Holds.start (h : pool.Holds policy ticket job) :
    (pool.start policy).Holds policy ticket job :=
  h.of_eq (fun _ => ((start_pending policy pool).mem_iff).mpr) (by rw [start_settled])

theorem start_busy (hroom : pool.queue.length ≤ 1 ∨ policy.full pool.active.length = true ∨
      policy.full (pool.active.length + 1) = true) :
    (pool.start policy).queue ≠ [] → policy.full (pool.start policy).active.length = true := by
  unfold start
  intro hqueue
  by_cases hfull : policy.full pool.active.length = true
  · rw [if_pos hfull]
    exact hfull
  · rw [if_neg hfull] at hqueue ⊢
    cases hwait : pool.queue with
    | nil =>
        rw [hwait] at hqueue
        exact absurd hwait hqueue
    | cons job rest =>
        rw [hwait] at hqueue hroom
        rcases hroom with hone | hfull' | hmore
        · have hrest : rest = [] := List.eq_nil_of_length_eq_zero (by simpa using hone)
          exact absurd hrest hqueue
        · exact absurd hfull' hfull
        · exact hmore

theorem Valid.start (hdistinct : (pool.pending.map Prod.fst).Nodup)
    (hbelow : ∀ entry ∈ pool.pending, entry.1 < pool.issued)
    (hwaiting : ∀ entry ∈ pool.pending, pool.settled entry.1 = none)
    (hunsettled : ∀ ticket, pool.issued ≤ ticket → pool.settled ticket = none)
    (hroom : pool.queue.length ≤ 1 ∨ policy.full pool.active.length = true ∨
      policy.full (pool.active.length + 1) = true) :
    (pool.start policy).Valid policy where
  distinct := (((start_pending policy pool).map Prod.fst).nodup_iff).mpr hdistinct
  below := fun entry hmem => by
    rw [start_issued]
    exact hbelow entry ((start_pending policy pool).mem_iff.mp hmem)
  waiting := fun entry hmem => by
    rw [start_settled]
    exact hwaiting entry ((start_pending policy pool).mem_iff.mp hmem)
  unsettled := fun ticket hle => by
    rw [start_issued] at hle
    rw [start_settled]
    exact hunsettled ticket hle
  busy := start_busy hroom

/-! ## Handing in a job -/

theorem submit_eq (policy : Policy J R) (pool : Pool J R) (job : J) :
    ∃ queue, queue.Perm (pool.queue ++ [(pool.issued, job)]) ∧
      pool.submit policy job =
        start policy { pool with queue := queue, issued := pool.issued + 1 } :=
  ⟨_, List.perm_insertionSort _ _, rfl⟩

theorem submit_pending (policy : Policy J R) (pool : Pool J R) (job : J) :
    (pool.submit policy job).pending.Perm ((pool.issued, job) :: pool.pending) := by
  obtain ⟨queue, hperm, heq⟩ := submit_eq policy pool job
  rw [heq]
  refine (start_pending policy _).trans ((hperm.append_right _).trans ?_)
  simp [pending]

@[simp] theorem submit_settled (policy : Policy J R) (pool : Pool J R) (job : J) :
    (pool.submit policy job).settled = pool.settled := by
  obtain ⟨queue, _, heq⟩ := submit_eq policy pool job
  rw [heq, start_settled]

theorem Valid.submit (h : pool.Valid policy) (job : J) :
    (pool.submit policy job).Valid policy := by
  obtain ⟨queue, hperm, heq⟩ := submit_eq policy pool job
  rw [heq]
  have hpending : (queue ++ pool.active).Perm ((pool.issued, job) :: pool.pending) :=
    (hperm.append_right _).trans (by simp [pending])
  refine Valid.start ?_ ?_ ?_ ?_ ?_
  · refine ((hpending.map Prod.fst).nodup_iff).mpr (List.nodup_cons.mpr ⟨?_, h.distinct⟩)
    intro hmem
    obtain ⟨entry, hentry, hticket⟩ := List.mem_map.mp hmem
    have hlt := h.below entry hentry
    exact absurd hticket (Nat.ne_of_lt hlt)
  · intro entry hmem
    rcases List.mem_cons.mp (hpending.mem_iff.mp hmem) with rfl | hold
    · exact Nat.lt_succ_self _
    · exact Nat.lt_succ_of_lt (h.below entry hold)
  · intro entry hmem
    rcases List.mem_cons.mp (hpending.mem_iff.mp hmem) with rfl | hold
    · exact h.unsettled _ (Nat.le_refl _)
    · exact h.waiting entry hold
  · intro ticket hle
    exact h.unsettled ticket (Nat.le_of_succ_le hle)
  · by_cases hempty : pool.queue = []
    · refine .inl ?_
      have hlength := hperm.length_eq
      rw [hempty] at hlength
      simpa using hlength.le
    · exact .inr (.inl (h.busy hempty))

theorem holds_submit (policy : Policy J R) (pool : Pool J R) (job : J) :
    (pool.submit policy job).Holds policy pool.issued job :=
  .inl ((submit_pending policy pool job).mem_iff.mpr (.head _))

theorem Holds.submit (h : pool.Holds policy ticket job) (other : J) :
    (pool.submit policy other).Holds policy ticket job :=
  h.of_eq (fun _ hmem => (submit_pending policy pool other).mem_iff.mpr (.tail _ hmem))
    (by rw [submit_settled])

/-! ## The end of a job -/

theorem Valid.job_unique (h : pool.Valid policy) (hjob : (ticket, job) ∈ pool.pending)
    (hother : (ticket, other) ∈ pool.pending) : job = other :=
  congrArg Prod.snd (List.inj_on_of_nodup_map h.distinct hjob hother rfl)

theorem finish_of_none (h : ∀ job, (ticket, job) ∉ pool.active) :
    pool.finish policy ticket = pool := by
  have hnone : (pool.active.find? fun job => job.1 = ticket) = none := by
    refine List.find?_eq_none.mpr fun entry hmem heq => h entry.2 ?_
    rw [← of_decide_eq_true heq]
    exact hmem
  rw [finish, hnone]

theorem Valid.finish_of_mem (h : pool.Valid policy) (hmem : (ticket, job) ∈ pool.active) :
    pool.finish policy ticket = Pool.start policy { pool with
      active := pool.active.filter fun other => other.1 ≠ ticket
      settled := Function.update pool.settled ticket (some (policy.run job)) } := by
  cases hfind : pool.active.find? fun entry => entry.1 = ticket with
  | none =>
      have hno := List.find?_eq_none.mp hfind _ hmem
      exact absurd (decide_eq_true rfl) hno
  | some entry =>
      have hticket : entry.1 = ticket := of_decide_eq_true (List.find?_some hfind :)
      have hentry : (ticket, entry.2) ∈ pool.active := by
        rw [← hticket]
        exact List.mem_of_find?_eq_some hfind
      have hjob := h.job_unique (List.mem_append_right _ hentry) (List.mem_append_right _ hmem)
      rw [Pool.finish, hfind]
      dsimp only
      rw [hjob]

theorem Valid.active_perm (h : pool.Valid policy) (hmem : (ticket, job) ∈ pool.active) :
    pool.active.Perm ((ticket, job) :: pool.active.filter fun other => other.1 ≠ ticket) := by
  classical
  obtain ⟨before, after, hsplit⟩ := List.append_of_mem hmem
  have hdistinct : (pool.active.map Prod.fst).Nodup := by
    have := h.distinct
    rw [pending, List.map_append] at this
    exact this.of_append_right
  rw [hsplit, List.map_append, List.map_cons] at hdistinct
  have hbefore : ∀ entry ∈ before, entry.1 ≠ ticket := by
    intro entry hentry heq
    have := (List.nodup_append.mp hdistinct).2.2 _ (List.mem_map_of_mem hentry) ticket (.head _)
    exact this heq
  have hafter : ∀ entry ∈ after, entry.1 ≠ ticket := by
    intro entry hentry heq
    have hnot := (List.nodup_cons.mp (List.nodup_append.mp hdistinct).2.1).1
    exact hnot (List.mem_map.mpr ⟨entry, hentry, heq⟩)
  have hfilter : (pool.active.filter fun other => other.1 ≠ ticket) = before ++ after := by
    rw [hsplit, List.filter_append, List.filter_cons_of_neg (by simp),
      List.filter_eq_self.mpr fun entry hentry => decide_eq_true (hbefore entry hentry),
      List.filter_eq_self.mpr fun entry hentry => decide_eq_true (hafter entry hentry)]
  rw [hfilter, hsplit]
  exact List.perm_middle

theorem Valid.pending_filter (h : pool.Valid policy) (hmem : (ticket, job) ∈ pool.active) :
    pool.pending.Perm ((ticket, job) ::
      (pool.queue ++ pool.active.filter fun other => other.1 ≠ ticket)) :=
  ((h.active_perm hmem).append_left pool.queue).trans List.perm_middle

theorem Valid.active_filter (h : pool.Valid policy) (hmem : (ticket, job) ∈ pool.active) :
    (pool.active.filter fun other => other.1 ≠ ticket).length + 1 = pool.active.length :=
  (h.active_perm hmem).length_eq.symm

theorem Valid.finish (h : pool.Valid policy) (ticket : Nat) :
    (pool.finish policy ticket).Valid policy := by
  by_cases hmem : ∃ job, (ticket, job) ∈ pool.active
  · obtain ⟨job, hmem⟩ := hmem
    have hperm := h.pending_filter hmem
    have hrest := List.nodup_cons.mp (((hperm.map Prod.fst).nodup_iff).mp h.distinct)
    rw [h.finish_of_mem hmem]
    refine Valid.start ?_ ?_ ?_ ?_ ?_
    · exact hrest.2
    · intro entry hentry
      exact h.below entry (hperm.mem_iff.mpr (.tail _ hentry))
    · intro entry hentry
      have hne : entry.1 ≠ ticket := fun heq =>
        hrest.1 (List.mem_map.mpr ⟨entry, hentry, heq⟩)
      dsimp only
      rw [Function.update_of_ne hne]
      exact h.waiting entry (hperm.mem_iff.mpr (.tail _ hentry))
    · intro other hle
      have hlt := h.below _ (List.mem_append_right _ hmem)
      have hne : other ≠ ticket := fun heq => absurd (heq ▸ hlt) (Nat.not_lt.mpr hle)
      simpa [Function.update_of_ne hne] using h.unsettled other hle
    · by_cases hempty : pool.queue = []
      · exact .inl (by simp [hempty])
      · refine .inr (.inr ?_)
        dsimp only
        rw [h.active_filter hmem]
        exact h.busy hempty
  · rw [finish_of_none fun job hjob => hmem ⟨job, hjob⟩]
    exact h

theorem Holds.finish (h : pool.Valid policy) (hholds : pool.Holds policy ticket job)
    (ended : Nat) : (pool.finish policy ended).Holds policy ticket job := by
  by_cases hmem : ∃ other, (ended, other) ∈ pool.active
  · obtain ⟨other, hmem⟩ := hmem
    have hpending : (ended, other) ∈ pool.pending := List.mem_append_right _ hmem
    rw [h.finish_of_mem hmem]
    refine Holds.start ?_
    by_cases heq : ticket = ended
    · subst heq
      refine .inr ?_
      dsimp only
      rw [Function.update_self]
      rcases hholds with hjob | hsome
      · rw [h.job_unique hjob hpending]
      · have hnone := h.waiting _ hpending
        rw [hsome] at hnone
        cases hnone
    · rcases hholds with hjob | hsome
      · rcases List.mem_cons.mp ((h.pending_filter hmem).mem_iff.mp hjob) with hsame | hrest
        · exact absurd (congrArg Prod.fst hsame) heq
        · exact .inl hrest
      · exact .inr ((Function.update_of_ne heq ..).trans hsome)
  · rw [finish_of_none fun job hjob => hmem ⟨job, hjob⟩]
    exact hholds

theorem Valid.length_finish (h : pool.Valid policy) (hmem : (ticket, job) ∈ pool.active) :
    (pool.finish policy ticket).pending.length + 1 = pool.pending.length := by
  rw [h.finish_of_mem hmem, (start_pending policy _).length_eq, (h.pending_filter hmem).length_eq]
  rfl

theorem Valid.pending_eq_nil (h : pool.Valid policy) (hroom : policy.full 0 = false)
    (hidle : pool.active = []) : pool.pending = [] := by
  by_cases hqueue : pool.queue = []
  · rw [pending, hqueue, hidle, List.append_nil]
  · have hbusy := h.busy hqueue
    rw [hidle] at hbusy
    cases hroom.symm.trans hbusy

theorem Holds.outcome {r : R} (h : pool.Valid policy) (hholds : pool.Holds policy ticket job)
    (hsettled : pool.settled ticket = some r) : r = policy.run job := by
  rcases hholds with hjob | hsome
  · have hnone := h.waiting _ hjob
    rw [hsettled] at hnone
    cases hnone
  · exact Option.some.inj (hsettled.symm.trans hsome)

theorem Holds.settled (h : pool.Holds policy ticket job) (hidle : pool.pending = []) :
    pool.settled ticket = some (policy.run job) := by
  rcases h with hjob | hsome
  · rw [hidle] at hjob
    cases hjob
  · exact hsome

/-! ## How many are under way -/

/-- Each job under way was started while there was room. -/
def Within (policy : Policy J R) (pool : Pool J R) : Prop :=
  ∀ n < pool.active.length, policy.full n = false

theorem Within.start (h : pool.Within policy) : (pool.start policy).Within policy := by
  unfold Pool.start
  split
  · exact h
  · rename_i hroom
    split
    · exact h
    · intro n hn
      rcases Nat.lt_succ_iff_lt_or_eq.mp hn with hlt | rfl
      · exact h n hlt
      · exact Bool.eq_false_of_not_eq_true hroom

theorem Within.submit (h : pool.Within policy) (job : J) :
    (pool.submit policy job).Within policy := by
  obtain ⟨queue, _, heq⟩ := submit_eq policy pool job
  rw [heq]
  exact Within.start h

theorem Within.finish (h : pool.Within policy) (ticket : Nat) :
    (pool.finish policy ticket).Within policy := by
  unfold Pool.finish
  split
  · exact h
  · refine Within.start fun n hn => h n ?_
    exact hn.trans_le (List.length_filter_le ..)

/-! ## What a call does before its start -/

def enqueue (policy : Policy J R) (pool : Pool J R) (job : J) : Pool J R :=
  { pool with
    queue := (pool.queue ++ [(pool.issued, job)]).insertionSort fun a b => policy.first a.2 b.2
    issued := pool.issued + 1 }

/-- The pool as a job has ended, before the next one is started. -/
def release (policy : Policy J R) (pool : Pool J R) (ticket : Nat) (job : J) : Pool J R :=
  { pool with
    active := pool.active.filter fun other => other.1 ≠ ticket
    settled := Function.update pool.settled ticket (some (policy.run job)) }

/-! ## The order of the queue -/

def started (policy : Policy J R) (pool : Pool J R) : Option (Nat × J) :=
  if policy.full pool.active.length then none else pool.queue.head?

theorem start_of_none (h : pool.started policy = none) : pool.start policy = pool := by
  unfold started at h
  unfold Pool.start
  split
  · rfl
  · rename_i hroom
    rw [if_neg hroom, List.head?_eq_none_iff] at h
    simp only [h]

theorem start_of_some {entry : Nat × J} (h : pool.started policy = some entry) :
    ∃ rest, pool.queue = entry :: rest ∧
      pool.start policy = { pool with queue := rest, active := entry :: pool.active } := by
  unfold started at h
  unfold Pool.start
  split
  · rename_i hfull
    rw [if_pos hfull] at h
    cases h
  · rename_i hroom
    rw [if_neg hroom] at h
    obtain ⟨rest, hqueue⟩ := List.head?_eq_some_iff.mp h
    exact ⟨rest, hqueue, by simp only [hqueue]⟩

section Order

variable {α : Type*} [LinearOrder α] (rank : J → α)

/-- A job waits before another one if its rank is higher, or equal and it came earlier. -/
def Before (a b : Nat × J) : Prop := rank b.2 < rank a.2 ∨ rank a.2 = rank b.2 ∧ a.1 < b.1

def Ordered (pool : Pool J R) : Prop := pool.queue.Pairwise (Before rank)

variable {rank}

theorem Before.rank_le {a b : Nat × J} (h : Before rank a b) : rank b.2 ≤ rank a.2 := by
  rcases h with hlt | ⟨heq, _⟩
  · exact hlt.le
  · exact heq.ge

theorem Before.of_le {a b c : Nat × J} (hab : rank b.2 ≤ rank a.2) (hbc : rank c.2 ≤ rank b.2)
    (heq : rank a.2 = rank c.2 → a.1 < c.1) : Before rank a c := by
  rcases (hbc.trans hab).lt_or_eq with hlt | hsame
  · exact .inl hlt
  · exact .inr ⟨hsame.symm, heq hsame.symm⟩

def RankedBy (rank : J → α) (policy : Policy J R) (jobs : List (Nat × J)) : Prop :=
  ∀ a ∈ jobs, ∀ b ∈ jobs, policy.first a.2 b.2 = true ↔ rank b.2 ≤ rank a.2

theorem RankedBy.mono {jobs more : List (Nat × J)} (h : RankedBy rank policy more)
    (hsub : ∀ job ∈ jobs, job ∈ more) : RankedBy rank policy jobs :=
  fun a ha b hb => h a (hsub a ha) b (hsub b hb)

theorem orderedInsert_before {entry : Nat × J} {jobs : List (Nat × J)}
    (hranked : RankedBy rank policy (entry :: jobs)) (hearly : ∀ job ∈ jobs,
      rank entry.2 = rank job.2 → entry.1 < job.1) (h : jobs.Pairwise (Before rank)) :
    (jobs.orderedInsert (fun a b => policy.first a.2 b.2) entry).Pairwise (Before rank) := by
  induction jobs with
  | nil => exact List.pairwise_singleton _ _
  | cons job rest ih =>
      obtain ⟨hjob, hrest⟩ := List.pairwise_cons.mp h
      have hfirst := hranked entry List.mem_cons_self job (List.mem_cons_of_mem _ List.mem_cons_self)
      rw [List.orderedInsert_cons]
      by_cases hle : policy.first entry.2 job.2 = true
      · rw [if_pos hle]
        refine List.pairwise_cons.mpr ⟨fun other hother => ?_, h⟩
        rcases List.mem_cons.mp hother with rfl | hmem
        · exact Before.of_le (hfirst.mp hle) le_rfl (hearly other List.mem_cons_self)
        · exact Before.of_le (hfirst.mp hle) (hjob other hmem).rank_le
            (hearly other (List.mem_cons_of_mem _ hmem))
      · rw [if_neg hle]
        have hlt : rank entry.2 < rank job.2 := lt_of_not_ge fun hge => hle (hfirst.mpr hge)
        refine List.pairwise_cons.mpr ⟨fun other hother => ?_, ih ?_ ?_ hrest⟩
        · rcases (List.mem_orderedInsert _).mp hother with rfl | hmem
          · exact .inl hlt
          · exact hjob other hmem
        · refine hranked.mono fun other hother => ?_
          rcases List.mem_cons.mp hother with rfl | hmem
          · exact List.mem_cons_self
          · exact List.mem_cons_of_mem _ (List.mem_cons_of_mem _ hmem)
        · exact fun other hother => hearly other (List.mem_cons_of_mem _ hother)

/-- The queue is sorted stably: jobs of one rank stay in the order of their tickets. -/
theorem insertionSort_before {jobs : List (Nat × J)} (hranked : RankedBy rank policy jobs)
    (h : jobs.Pairwise fun a b => rank a.2 = rank b.2 → a.1 < b.1) :
    (jobs.insertionSort fun a b => policy.first a.2 b.2).Pairwise (Before rank) := by
  induction jobs with
  | nil => exact List.Pairwise.nil
  | cons entry rest ih =>
      obtain ⟨hentry, hrest⟩ := List.pairwise_cons.mp h
      have hsorted := ih (hranked.mono fun _ => List.mem_cons_of_mem _) hrest
      have hmem : ∀ job ∈ rest.insertionSort fun a b => policy.first a.2 b.2, job ∈ rest :=
        fun job hjob => (List.mem_insertionSort _).mp hjob
      refine orderedInsert_before (hranked.mono fun job hjob => ?_)
        (fun job hjob => hentry job (hmem job hjob)) hsorted
      rcases List.mem_cons.mp hjob with rfl | hjob
      · exact List.mem_cons_self
      · exact List.mem_cons_of_mem _ (hmem job hjob)

theorem Ordered.start (h : pool.Ordered rank) : (pool.start policy).Ordered rank := by
  cases hstarted : pool.started policy with
  | none =>
      rw [start_of_none hstarted]
      exact h
  | some entry =>
      obtain ⟨rest, hqueue, heq⟩ := start_of_some hstarted
      unfold Ordered at h ⊢
      rw [heq]
      rw [hqueue] at h
      exact (List.pairwise_cons.mp h).2

theorem Ordered.enqueue (hvalid : pool.Valid policy) (h : pool.Ordered rank)
    (hranked : RankedBy rank policy (pool.queue ++ [(pool.issued, job)])) :
    (pool.enqueue policy job).Ordered rank := by
  refine insertionSort_before hranked (List.pairwise_append.mpr ⟨?_, ?_, ?_⟩)
  · refine h.imp fun hbefore heq => ?_
    rcases hbefore with hlt | ⟨_, hticket⟩
    · exact absurd heq hlt.ne'
    · exact hticket
  · exact List.pairwise_singleton _ _
  · intro a ha b hb _
    rw [List.mem_singleton.mp hb]
    exact hvalid.below a (List.mem_append_left _ ha)

end Order

end Pool

end WorkPools
