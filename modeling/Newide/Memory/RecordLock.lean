import Newide.Foundation.Runs
import Newide.Memory.DeliveryLifecycle

/-!
# The lock file of a delivery record

`withRecordLock` of `src/memory/adapters/file-memory-delivery.ts`:
`acquireLockFile`, the critical section and `releaseLockFile`, one file
call a step.  Any number of attempts, of one process or of many, run
interleaved on the lock file of one record.

An attempt that has created the file writes through its open handle.  If
the file was removed meanwhile the handle writes to the removed file, so
a file carries the number of its creation.
-/

namespace Newide.Memory

/-! ## The lock file -/

/-- What a holder writes; `token` is the attempt, as every attempt draws its own. -/
structure LockContent where
  token : Nat
  acquiredAt : Time
deriving DecidableEq

structure LockFile where
  inode : Nat
  /-- Nothing until its creator has written it. -/
  content : Option LockContent := none

/-- A write through the handle of the file created as `inode`. -/
def LockFile.writeTo (inode : Nat) (content : LockContent) (file : LockFile) : LockFile :=
  if file.inode = inode then { file with content := some content } else file

def lockRetryBudgetMs : Int := 100

/-- How many stale locks one attempt takes over at most. -/
def maxLockTakeovers : Nat := 5

/-- The verdict on a read of the lock file: an absent file is not stale, an unreadable one is. -/
def isLockStale (ttlMs : Int) (now : Time) : Option (Option LockContent) → Bool
  | none => false
  | some none => true
  | some (some content) => ttlMs < now - content.acquiredAt

/-! ## Attempts -/

inductive LockPoint where
  /-- `open(lockPath, 'wx')`. -/
  | creating (takeovers : Nat)
  /-- The file is created; the clock is read for `acquired_at`. -/
  | opened (inode : Nat)
  /-- The content is written through the handle. -/
  | stamped (inode : Nat) (acquiredAt : Time)
  /-- In the critical section. -/
  | inside
  /-- The file exists; it is read to see if it is stale. -/
  | inspecting (takeovers : Nat)
  /-- The read has answered; the clock is read for the verdict. -/
  | judging (takeovers : Nat) (found : Option (Option LockContent))
  /-- The stale file is removed. -/
  | removing (takeovers : Nat)
  /-- The release reads the file. -/
  | releasing
  /-- The release has found its own token and removes the file. -/
  | removingOwn
  | done
deriving DecidableEq

structure LockAttempt where
  deadline : Time
  point : LockPoint := .creating 0

structure LockState where
  clock : Time := 0
  file : Option LockFile := none
  nextInode : Nat := 0
  attempts : List LockAttempt := []

open LockState

inductive LockLabel where
  | tick (ms : Nat)
  /-- A new attempt. -/
  | acquire
  /-- The next file call of an attempt. -/
  | run (index : Nat)
  /-- The critical section of an attempt ends. -/
  | leave (index : Nat)

namespace LockState

def moveTo (s : LockState) (index : Nat) (attempt : LockAttempt) (point : LockPoint) : LockState :=
  { s with attempts := s.attempts.set index { attempt with point } }

/-- Wait and try again, unless the budget is spent. -/
def retry (s : LockState) (index : Nat) (attempt : LockAttempt) (takeovers : Nat) : LockState :=
  if attempt.deadline ≤ s.clock then s.moveTo index attempt .done
  else s.moveTo index attempt (.creating takeovers)

/-- One file call. -/
def fileCall (ttlMs : Int) (s : LockState) (index : Nat) (attempt : LockAttempt) : LockState :=
  match attempt.point with
  | .creating takeovers =>
      match s.file with
      | none =>
          { s with file := some { inode := s.nextInode }, nextInode := s.nextInode + 1 }.moveTo
            index attempt (.opened s.nextInode)
      | some _ =>
          if takeovers < maxLockTakeovers then s.moveTo index attempt (.inspecting takeovers)
          else s.retry index attempt takeovers
  | .opened inode => s.moveTo index attempt (.stamped inode s.clock)
  | .stamped inode acquiredAt =>
      { s with file := s.file.map (LockFile.writeTo inode { token := index, acquiredAt }) }.moveTo
        index attempt .inside
  | .inspecting takeovers =>
      s.moveTo index attempt (.judging takeovers (s.file.map (·.content)))
  | .judging takeovers found =>
      if isLockStale ttlMs s.clock found then s.moveTo index attempt (.removing (takeovers + 1))
      else s.retry index attempt takeovers
  | .removing takeovers => { s with file := none }.moveTo index attempt (.creating takeovers)
  | .releasing =>
      if (s.file.bind (·.content)).any (·.token = index) then s.moveTo index attempt .removingOwn
      else s.moveTo index attempt .done
  | .removingOwn => { s with file := none }.moveTo index attempt .done
  | .inside => s
  | .done => s

def step (ttlMs : Int) (s : LockState) : LockLabel → LockState
  | .tick ms => { s with clock := s.clock + ms }
  | .acquire =>
      { s with attempts := s.attempts ++ [{ deadline := s.clock + lockRetryBudgetMs }] }
  | .run index =>
      match s.attempts[index]? with
      | some attempt => s.fileCall ttlMs index attempt
      | none => s
  | .leave index =>
      match s.attempts[index]? with
      | some attempt =>
          if attempt.point = .inside then s.moveTo index attempt .releasing else s
      | none => s

def point? (s : LockState) (index : Nat) : Option LockPoint :=
  s.attempts[index]?.map (·.point)

end LockState

/-! ## Mutual exclusion -/

/-- At most one attempt is in the critical section. -/
def LockState.Exclusive (s : LockState) : Prop :=
  ∀ i j, s.point? i = some .inside → s.point? j = some .inside → i = j

/-- The release of an attempt removes a file that is not its own. -/
def RemovesOther (s : LockState) (label : LockLabel) (_ : LockState) : Prop :=
  ∃ index, label = .run index ∧ s.point? index = some .removingOwn ∧
    ∃ file ∈ s.file, ∀ content ∈ file.content, content.token ≠ index

/-- An attempt finds the lock stale. -/
def FindsStale (ttlMs : Int) (s : LockState) (label : LockLabel) (_ : LockState) : Prop :=
  match label with
  | .run index =>
      match s.point? index with
      | some (.judging _ found) => isLockStale ttlMs s.clock found = true
      | _ => False
  | _ => False

instance (ttlMs : Int) (s t : LockState) (label : LockLabel) :
    Decidable (FindsStale ttlMs s label t) := by
  unfold FindsStale
  split
  · split <;> infer_instance
  · infer_instance

/-- The attempt has created the file and not removed it yet; `owns` is what the file must be. -/
def LockPoint.owns (index : Nat) (file : Option LockFile) : LockPoint → Prop
  | .opened inode => file = some { inode }
  | .stamped inode _ => file = some { inode }
  | .inside => ∃ content ∈ file.bind (·.content), content.token = index
  | .releasing => ∃ content ∈ file.bind (·.content), content.token = index
  | .removingOwn => ∃ content ∈ file.bind (·.content), content.token = index
  | _ => True

def LockPoint.holds : LockPoint → Bool
  | .opened _ => true
  | .stamped _ _ => true
  | .inside => true
  | .releasing => true
  | .removingOwn => true
  | _ => false

/-- While no lock was taken over: every holder's file is there, and there is one holder. -/
structure LockState.Locked (s : LockState) : Prop where
  owned : ∀ (index : Nat) (point : LockPoint), s.point? index = some point →
    point.owns index s.file
  one : ∀ (i j : Nat) (p q : LockPoint), s.point? i = some p → s.point? j = some q →
    p.holds = true → q.holds = true → i = j
  kept : ∀ (index takeovers : Nat), s.point? index ≠ some (.removing takeovers)

variable {file : Option LockFile} {label : LockLabel}

section
variable {ttlMs : Int} {s : LockState} {index : Nat} {attempt : LockAttempt} {point : LockPoint}

theorem LockPoint.owns.present (h : point.owns index file) (hholds : point.holds = true) :
    file ≠ none := by
  rintro rfl
  cases point with
  | opened | stamped => cases h
  | inside | releasing | removingOwn =>
      obtain ⟨content, hcontent, _⟩ := h
      cases hcontent
  | creating | inspecting | judging | removing | done => cases hholds

theorem LockState.point?_moveTo (hattempt : s.attempts[index]? = some attempt) (i : Nat) :
    (s.moveTo index attempt point).point? i = if i = index then some point else s.point? i := by
  have hlt : index < s.attempts.length := (List.getElem?_eq_some_iff.mp hattempt).1
  unfold point? moveTo
  by_cases hi : i = index
  · subst hi
    simp [List.getElem?_set_self hlt]
  · simp [List.getElem?_set_ne (Ne.symm hi), hi]

theorem LockState.point?_of_attempt (hattempt : s.attempts[index]? = some attempt) :
    s.point? index = some attempt.point := by
  simp [point?, hattempt]

theorem LockState.Locked.moveTo (h : s.Locked) (hattempt : s.attempts[index]? = some attempt)
    (howns : point.owns index s.file) (hholds : point.holds = true → attempt.point.holds = true)
    (hkept : ∀ takeovers, point ≠ .removing takeovers) : (s.moveTo index attempt point).Locked := by
  have hbefore := point?_of_attempt hattempt
  refine ⟨fun i p hp => ?_, fun i j p q hp hq hhp hhq => ?_, fun i takeovers hp => ?_⟩
  · rw [point?_moveTo hattempt] at hp
    split at hp
    · next hi =>
        cases hp
        exact hi ▸ howns
    · exact h.owned i p hp
  · have owner : ∀ (k : Nat) (r : LockPoint),
        (s.moveTo index attempt point).point? k = some r → r.holds = true →
        ∃ r', s.point? k = some r' ∧ r'.holds = true := by
      intro k r hr hhr
      rw [point?_moveTo hattempt] at hr
      split at hr
      · next hk =>
          cases hr
          exact ⟨attempt.point, hk ▸ hbefore, hholds hhr⟩
      · exact ⟨r, hr, hhr⟩
    obtain ⟨p', hp', hhp'⟩ := owner i p hp hhp
    obtain ⟨q', hq', hhq'⟩ := owner j q hq hhq
    exact h.one i j p' q' hp' hq' hhp' hhq'
  · rw [point?_moveTo hattempt] at hp
    split at hp
    · exact hkept takeovers (Option.some.inj hp)
    · exact h.kept i takeovers hp

theorem LockState.Locked.retry (h : s.Locked) (hattempt : s.attempts[index]? = some attempt)
    (takeovers : Nat) : (s.retry index attempt takeovers).Locked := by
  unfold LockState.retry
  split
  · exact h.moveTo hattempt trivial (fun hholds => (by cases hholds)) (fun _ hp => (by cases hp))
  · exact h.moveTo hattempt trivial (fun hholds => (by cases hholds)) (fun _ hp => (by cases hp))

theorem LockState.Locked.moveWith {nextInode : Nat} (h : s.Locked)
    (hattempt : s.attempts[index]? = some attempt) (howns : point.owns index file)
    (halone : ∀ (i : Nat) (p : LockPoint), s.point? i = some p → p.holds = true → i = index)
    (hkept : ∀ takeovers, point ≠ .removing takeovers) :
    ({ s with file, nextInode }.moveTo index attempt point).Locked := by
  have hattempt' : { s with file, nextInode : LockState }.attempts[index]? = some attempt := hattempt
  refine ⟨fun i p hp => ?_, fun i j p q hp hq hhp hhq => ?_, fun i takeovers hp => ?_⟩
  · rw [point?_moveTo hattempt'] at hp
    split at hp
    · next hi =>
        cases hp
        exact hi ▸ howns
    · next hi =>
        have hnot : ¬ p.holds = true := fun hholds => hi (halone i p hp hholds)
        cases p with
        | opened | stamped | inside | releasing | removingOwn => exact absurd rfl hnot
        | creating | inspecting | judging | removing | done => trivial
  · have own : ∀ (k : Nat) (r : LockPoint),
        ({ s with file, nextInode : LockState }.moveTo index attempt point).point? k = some r →
        r.holds = true → k = index := by
      intro k r hr hhr
      rw [point?_moveTo hattempt'] at hr
      split at hr
      · assumption
      · exact halone k r hr hhr
    exact (own i p hp hhp).trans (own j q hq hhq).symm
  · rw [point?_moveTo hattempt'] at hp
    split at hp
    · exact hkept takeovers (Option.some.inj hp)
    · exact h.kept i takeovers hp

theorem LockState.Locked.alone (h : s.Locked) (hattempt : s.attempts[index]? = some attempt)
    (hholds : attempt.point.holds = true) (i : Nat) (p : LockPoint) (hp : s.point? i = some p)
    (hhp : p.holds = true) : i = index :=
  h.one i index p attempt.point hp (point?_of_attempt hattempt) hhp hholds

theorem LockState.Locked.free (h : s.Locked) (hfile : s.file = none) (i : Nat) (p : LockPoint)
    (hp : s.point? i = some p) : ¬ p.holds = true :=
  fun hhp => (h.owned i p hp).present hhp hfile

theorem LockState.Locked.fileCall (h : s.Locked) (hattempt : s.attempts[index]? = some attempt)
    (hfresh : ∀ takeovers found, attempt.point = .judging takeovers found →
      ¬ isLockStale ttlMs s.clock found = true) :
    (s.fileCall ttlMs index attempt).Locked := by
  have hpoint := point?_of_attempt hattempt
  have howns := h.owned index attempt.point hpoint
  unfold LockState.fileCall
  cases hp : attempt.point with
  | creating takeovers =>
      simp only
      cases hfile : s.file with
      | none =>
          exact h.moveWith hattempt rfl
            (fun i p hi hholds => absurd hholds (h.free hfile i p hi)) (fun _ hp => (by cases hp))
      | some file =>
          simp only
          split
          · exact h.moveTo hattempt trivial (fun hholds => (by cases hholds))
              (fun _ hp => (by cases hp))
          · exact h.retry hattempt takeovers
  | opened inode =>
      rw [hp] at howns
      exact h.moveTo hattempt howns (fun _ => by rw [hp]; rfl) (fun _ hp => (by cases hp))
  | stamped inode acquiredAt =>
      rw [hp] at howns
      have hfile : s.file = some { inode } := howns
      refine h.moveWith hattempt ?_ (h.alone hattempt (by rw [hp]; rfl)) (fun _ hp => (by cases hp))
      exact ⟨{ token := index, acquiredAt }, by simp [hfile, LockFile.writeTo], rfl⟩
  | inspecting takeovers =>
      exact h.moveTo hattempt trivial (fun hholds => (by cases hholds)) (fun _ hp => (by cases hp))
  | judging takeovers found =>
      simp only [if_neg (hfresh takeovers found hp)]
      exact h.retry hattempt takeovers
  | removing takeovers => exact absurd (hp ▸ hpoint) (h.kept index takeovers)
  | releasing =>
      rw [hp] at howns
      simp only
      split
      · exact h.moveTo hattempt howns (fun _ => by rw [hp]; rfl) (fun _ hp => (by cases hp))
      · exact h.moveTo hattempt trivial (fun hholds => (by cases hholds))
          (fun _ hp => (by cases hp))
  | removingOwn =>
      exact h.moveWith hattempt trivial (h.alone hattempt (by rw [hp]; rfl))
        (fun _ hp => (by cases hp))
  | inside | done => exact h

theorem LockState.Locked.step (h : s.Locked)
    (hfresh : ¬ FindsStale ttlMs s label (s.step ttlMs label)) : (s.step ttlMs label).Locked := by
  cases label with
  | tick ms => exact ⟨h.owned, h.one, h.kept⟩
  | acquire =>
      have old : ∀ (i : Nat) (p : LockPoint), (s.step ttlMs .acquire).point? i = some p →
          s.point? i = some p ∨ p = .creating 0 := by
        intro i p hp
        simp only [LockState.step, LockState.point?, List.getElem?_append] at hp
        split at hp
        · exact .inl hp
        · rw [List.getElem?_singleton] at hp
          split at hp
          · cases hp
            exact .inr rfl
          · cases hp
      refine ⟨fun i p hp => ?_, fun i j p q hp hq hhp hhq => ?_, fun i takeovers hp => ?_⟩
      · rcases old i p hp with hp | rfl
        · exact h.owned i p hp
        · trivial
      · rcases old i p hp with hp | rfl
        · rcases old j q hq with hq | rfl
          · exact h.one i j p q hp hq hhp hhq
          · cases hhq
        · cases hhp
      · rcases old i _ hp with hp | hp
        · exact h.kept i takeovers hp
        · cases hp
  | run index =>
      simp only [LockState.step] at hfresh ⊢
      split
      · next attempt hattempt =>
          refine h.fileCall hattempt fun takeovers found hp hstale => hfresh ?_
          simp only [FindsStale, LockState.point?, hattempt, Option.map_some, hp]
          exact hstale
      · exact h
  | leave index =>
      simp only [LockState.step]
      split
      · next attempt hattempt =>
          split
          · next hinside =>
              have howns := h.owned index attempt.point (point?_of_attempt hattempt)
              rw [hinside] at howns
              exact h.moveTo hattempt howns (fun _ => by rw [hinside]; rfl)
                (fun _ hp => (by cases hp))
          · exact h
      · exact h

theorem LockState.Locked.exclusive (h : s.Locked) : s.Exclusive :=
  fun i j hi hj => h.one i j .inside .inside hi hj rfl rfl

theorem LockState.Locked.removes_own {t : LockState} (h : s.Locked) :
    ¬ RemovesOther s label t := by
  rintro ⟨index, rfl, hpoint, file, hfile, hother⟩
  obtain ⟨content, hcontent, htoken⟩ := h.owned index _ hpoint
  rw [Option.mem_def.mp hfile] at hcontent
  exact hother content hcontent htoken

end

/-- In every interleaving in which no attempt finds the lock stale, at most one attempt is in
the critical section and no release removes a lock that is not its own. -/
theorem record_lock_excludes (ttlMs : Int) (labels : List LockLabel)
    (h : ¬ Runs.Happened (LockState.step ttlMs) {} labels (FindsStale ttlMs)) :
    (labels.foldl (LockState.step ttlMs) {}).Exclusive ∧
      ¬ Runs.Happened (LockState.step ttlMs) {} labels RemovesOther := by
  have start : LockState.Locked {} :=
    ⟨fun _ _ hp => (by cases hp), fun _ _ _ _ hp => (by cases hp), fun _ _ hp => (by cases hp)⟩
  have hstep : ∀ s label, LockState.Locked s → ¬ FindsStale ttlMs s label (s.step ttlMs label) →
      (s.step ttlMs label).Locked := fun s label hs hfresh => hs.step hfresh
  exact ⟨(Runs.invariant_of_not_happened hstep start h).exclusive,
    Runs.not_happened hstep (fun s label hs _ => hs.removes_own) start h⟩

/-- One attempt enters and leaves while another waits for it. -/
theorem record_lock_excludes_pair :
    (([.acquire, .acquire, .run 0, .run 0, .run 0, .run 1, .run 1, .run 1, .leave 0, .run 0, .run 0,
        .run 1] : List LockLabel).foldl (LockState.step 30000) {}).Exclusive :=
  (record_lock_excludes 30000 _ (by decide)).1

def takenOver : List LockLabel :=
  [.acquire, .acquire, .run 0, .run 1, .run 1, .run 1, .run 1, .run 1, .run 0, .run 0, .run 1,
    .run 1]

/-- It finds an empty lock stale, removes it and both enter, with no time gone by. -/
theorem two_inside :
    (takenOver.foldl (LockState.step 30000) {}).clock = 0 ∧
      ¬ (takenOver.foldl (LockState.step 30000) {}).Exclusive := by
  refine ⟨by decide, fun hexclusive => ?_⟩
  have := hexclusive 0 1 (by decide) (by decide)
  omega

end Newide.Memory
