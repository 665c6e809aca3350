import Newide.Foundation.PoolRuns
import Newide.Gate.Scheduler
import Mathlib.Algebra.Order.Ring.Rat
import Mathlib.Data.Prod.Lex
import Mathlib.Data.Rat.Cast.Order

/-!
# Runs of the gate scheduler

Every sequence of `insert` calls, interleaved with the ends of the gates
that run.  A gate may answer differently every time, so each call carries
what executing its request will come to.
-/

namespace Newide.Gate

open Hook WorkPools Journal

/-! ## Priorities -/

/-- Where a priority stands: below all numbers, among them, or above them.  `NaN` has no place of
its own. -/
def rank (n : YamlNumber) : Int ×ₗ Rat :=
  match n.value with
  | .nan => toLex (-1, 0)
  | .infinite negative => toLex (if negative then -1 else 1, 0)
  | .finite q => toLex (0, q)

theorem less_iff_rank {a b : YamlNumber} (ha : a.value ≠ .nan) (hb : b.value ≠ .nan) :
    less a b = true ↔ rank a < rank b := by
  unfold less rank
  cases hleft : a.value with
  | nan => exact absurd hleft ha
  | infinite negative =>
      cases hright : b.value with
      | nan => exact absurd hright hb
      | infinite other => cases negative <;> cases other <;> simp [Prod.Lex.toLex_lt_toLex]
      | finite q => cases negative <;> simp [Prod.Lex.toLex_lt_toLex]
  | finite p =>
      cases hright : b.value with
      | nan => exact absurd hright hb
      | infinite other => cases other <;> simp [Prod.Lex.toLex_lt_toLex]
      | finite q => simp [Prod.Lex.toLex_lt_toLex]

theorem rank_congr {a b : YamlNumber} (h : a.value = b.value) : rank a = rank b := by
  unfold rank
  rw [h]

/-- A concurrency that is a number of requests, or no limit at all. -/
def Countable (n : YamlNumber) : Prop :=
  match n.value with
  | .nan => False
  | .infinite _ => True
  | .finite q => q.den = 1

theorem atLeast_succ_of_not_atMost {c : YamlNumber} (hcount : Countable c) {n : Nat}
    (h : ¬ c.AtMost n) : c.AtLeast (n + 1 : Nat) := by
  unfold Countable at hcount
  unfold YamlNumber.AtMost at h
  unfold YamlNumber.AtLeast
  cases hvalue : c.value with
  | nan =>
      rw [hvalue] at hcount
      exact hcount
  | infinite negative =>
      rw [hvalue] at h
      exact Bool.eq_false_of_not_eq_true h
  | finite q =>
      rw [hvalue] at h hcount
      have hq : (q.num : Rat) = q := Rat.coe_int_num_of_den_eq_one hcount
      have hlt : ((n : Int) : Rat) < (q.num : Rat) := by
        rw [hq]
        exact lt_of_not_ge h
      have hle : (n : Int) + 1 ≤ q.num := Int.cast_lt.mp hlt
      change ((n + 1 : Nat) : Rat) ≤ q
      rw [← hq]
      exact_mod_cast hle

/-! ## The calls -/

/-- A request handed to `insert`, and what `executeRequest` will come to for it. -/
abbrev Insertion := GateRequest × Except String GateResult

def schedule (c : YamlNumber) : Policy Insertion (Except String GateResult) where
  first a b := !less a.1.priority b.1.priority
  full activeCount := decide (c.AtMost activeCount)
  run := Prod.snd

/-- What a run of the scheduler has to keep. -/
structure KeepsOrder (c : YamlNumber) (journal : Journal Insertion (Except String GateResult)) :
    Prop where
  /-- Every request is once among those that wait, run or are settled. -/
  placed : (journal.pool.queue.map Prod.fst ++ journal.pool.active.map Prod.fst ++
    journal.settlements.map Prod.fst).Perm (List.range journal.submitted.length)
  /-- At most `c` run. -/
  atMost : c.AtLeast journal.pool.active.length
  /-- None waits while fewer than `c` run. -/
  busy : journal.pool.queue ≠ [] → ¬ c.Above journal.pool.active.length
  started_once : (journal.starts.map Started.ticket).Nodup
  started : ∀ start ∈ journal.starts, journal.submitted[start.ticket]? = some start.job
  settled_once : (journal.settlements.map Prod.fst).Nodup
  /-- A settled request was started, and has its own result. -/
  settled : ∀ settlement ∈ journal.settlements,
    settlement.1 ∈ journal.starts.map Started.ticket ∧
      ∃ request, journal.submitted[settlement.1]? = some (request, settlement.2)
  /-- When a request was started, none with a higher priority waited, and none with the same
  priority that had come earlier. -/
  first : ∀ start ∈ journal.starts, ∀ other ∈ start.waiting,
    less start.job.1.priority other.2.1.priority = false ∧
      (other.2.1.priority.value = start.job.1.priority.value → start.ticket < other.1)

variable {c : YamlNumber} {calls : List (Call Insertion)}

theorem schedule_goesBy (c : YamlNumber) :
    Journal.GoesBy (fun job : Insertion => rank job.1.priority) (schedule c)
      fun job => job.1.priority.value ≠ .nan := by
  intro a b ha hb
  change (!less a.1.priority b.1.priority) = true ↔ _
  rw [Bool.not_eq_true', ← not_lt, ← less_iff_rank ha hb, Bool.not_eq_true]

theorem atLeast_active (hone : c.AtLeast 1) (hcount : Countable c) {active : Nat}
    (hwithin : ∀ n < active, (schedule c).full n = false) : c.AtLeast active := by
  cases active with
  | zero =>
      unfold YamlNumber.AtLeast at hone ⊢
      cases hvalue : c.value with
      | nan =>
          rw [hvalue] at hone
          exact hone
      | infinite negative =>
          rw [hvalue] at hone
          exact hone
      | finite q =>
          rw [hvalue] at hone
          exact le_trans (by decide) hone
  | succ n => exact atLeast_succ_of_not_atMost hcount (of_decide_eq_false (hwithin n n.lt_succ_self))

theorem not_above_of_full {n : Nat} (h : (schedule c).full n = true) : ¬ c.Above n := by
  have hmost : c.AtMost n := of_decide_eq_true h
  unfold YamlNumber.AtMost at hmost
  unfold YamlNumber.Above
  cases hvalue : c.value with
  | nan => exact id
  | infinite negative =>
      rw [hvalue] at hmost
      intro hfalse
      exact Bool.noConfusion (hmost.symm.trans hfalse)
  | finite q =>
      rw [hvalue] at hmost
      exact not_lt.mpr hmost

theorem first_of_orderly (hpriorities : ∀ job : Insertion, Call.submit job ∈ calls →
      job.1.priority.value ≠ .nan)
    {start : Started Insertion} (hstart : start ∈ (run (schedule c) calls).starts)
    {other : Nat × Insertion} (hother : other ∈ start.waiting) :
    less start.job.1.priority other.2.1.priority = false ∧
      (other.2.1.priority.value = start.job.1.priority.value → start.ticket < other.1) := by
  have hbefore := (orderly_run (schedule_goesBy c) hpriorities).starts start hstart
    other hother
  have hbalanced := (sound_run (schedule c) calls).balanced
  have hnumber : ∀ {ticket : Nat} {job : Insertion},
      (run (schedule c) calls).submitted[ticket]? = some job →
        job.1.priority.value ≠ .nan := fun hjob =>
    hpriorities _ (run_submitted _ _ _ (List.mem_of_getElem? hjob))
  have hless := less_iff_rank (hnumber (hbalanced.taken start hstart))
    (hnumber (hbalanced.waited start hstart other hother))
  refine ⟨?_, fun hsame => ?_⟩
  · refine Bool.eq_false_of_not_eq_true fun hhigher => ?_
    exact absurd (hless.mp hhigher) (not_lt.mpr hbefore.rank_le)
  · rcases hbefore with hlower | ⟨_, hearlier⟩
    · exact absurd (rank_congr hsame) hlower.ne
    · exact hearlier

/-- The scheduler keeps its order in every run in which it counts its requests and every priority
is a number. -/
theorem scheduler_keeps_order (hone : c.AtLeast 1) (hcount : Countable c)
    (hpriorities : ∀ job : Insertion, Call.submit job ∈ calls → job.1.priority.value ≠ .nan) :
    KeepsOrder c (run (schedule c) calls) := by
  have hsound := sound_run (schedule c) calls
  have hplaced := hsound.balanced.placed
  have hdistinct := hplaced.nodup_iff.mpr List.nodup_range
  have hpending : (run (schedule c) calls).pool.pending.map Prod.fst =
      (run (schedule c) calls).pool.queue.map Prod.fst ++
        (run (schedule c) calls).pool.active.map Prod.fst := List.map_append
  rw [hpending] at hplaced hdistinct
  exact {
    placed := hplaced
    atMost := atLeast_active hone hcount hsound.within
    busy := fun hwaits => not_above_of_full (hsound.valid.busy hwaits)
    started_once := by
      refine hsound.balanced.begun.nodup_iff.mpr ?_
      rw [List.append_assoc] at hdistinct
      exact hdistinct.of_append_right
    started := hsound.balanced.taken
    settled_once := hdistinct.of_append_right
    settled := fun settlement hmem => by
      refine ⟨?_, ?_⟩
      · exact hsound.balanced.begun.mem_iff.mpr
          (List.mem_append_right _ (List.mem_map_of_mem hmem))
      · obtain ⟨job, hjob, hrun⟩ := hsound.balanced.own settlement hmem
        exact ⟨job.1, by rw [hjob, hrun]; rfl⟩
    first := fun start hstart other hother => first_of_orderly hpriorities hstart hother }

def askedWith (priority : YamlNumber) : Insertion :=
  let request : GateRequest :=
    ⟨"lint", "pre_commit", "r1", "s1", priority, .ofNat 30, []⟩
  (request, .ok (PriorityGateScheduler.mockAllowGate request))

theorem scheduler_keeps_order_two :
    KeepsOrder (.ofNat 1) (run (schedule (.ofNat 1))
      [.submit (askedWith (.ofNat 1)), .submit (askedWith (.ofNat 5)), .finish 0]) := by
  refine scheduler_keeps_order (by decide) rfl fun job hmem => ?_
  obtain rfl | rfl : job = askedWith (.ofNat 1) ∨ job = askedWith (.ofNat 5) := by
    simpa using hmem
  · exact fun h => (by cases h)
  · exact fun h => (by cases h)

/-- A running request ends while `1`, `NaN` and `5` wait: `1` is started. -/
def nanCalls : List (Call Insertion) :=
  [.submit (askedWith (.ofNat 9)), .submit (askedWith (.ofNat 1)),
    .submit (askedWith ⟨.nan, "NaN"⟩), .submit (askedWith (.ofNat 5)), .finish 0]

theorem scheduler_fails_nan_priority : ¬ ∀ (c : YamlNumber) (calls : List (Call Insertion)),
    c.AtLeast 1 → KeepsOrder c (run (schedule c) calls) := by
  intro h
  have hlower : ∃ start ∈ (run (schedule (.ofNat 1)) nanCalls).starts,
      ∃ other ∈ start.waiting, less start.job.1.priority other.2.1.priority = true := by
    decide +kernel
  obtain ⟨start, hstart, other, hother, hless⟩ := hlower
  have hfirst := ((h (.ofNat 1) nanCalls (by decide)).first start hstart other hother).1
  cases hless.symm.trans hfirst

end Newide.Gate
