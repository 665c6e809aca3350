import Newide.Memory.BufferSaving

/-!
# A report lives in exactly one partition

Operations on one buffer in any order of their calls of the file system.
Where none finds a report that another one has taken, every number given
out has its report in one partition once all have ended, as it was last
written, and the meta file counts the reports of each partition.
-/

namespace Newide.Memory

open Threads Threads.Protocol BufferLocation BufferWorld

variable {s : BufferState}

section
variable {i : Nat} {w : BufferWorld} {roleId : String}

/-! ## Every operation -/

/-- What an operation has answered, and the thread with nothing in hand. -/
def BufferWorld.Answered (i : Nat) (r : BufferOutcome) (w : BufferWorld) : Prop :=
  w.Free i [] ∧ ∀ result, r = .ok (.saved result) → w.Given i result.seq

theorem BufferWorld.Answered.stable (r : BufferOutcome) :
    bufferProtocol.Stable i (BufferWorld.Answered i r) :=
  fun w u h hrely => ⟨Local.free.stable w u h.1 hrely,
    fun result hr => Framed.given.stable w u (h.2 result hr) hrely⟩

theorem safe_answering {α : Type} {routine : BufferRoutine α} (answer : α → BufferAnswer)
    (hanswer : ∀ a result, answer a ≠ .saved result)
    (h : bufferProtocol.Safe i (fun _ => BufferWorld.Free i []) routine.run w) :
    bufferProtocol.Safe i (BufferWorld.Answered i)
      (do
        let a ← routine
        pure (answer a) : BufferRoutine BufferAnswer).run w := by
  refine Safe.chain (fun e => BufferWorld.Answered.stable _) (h.mono fun r v hv => ?_)
  cases r with
  | error e => exact ⟨hv, nofun⟩
  | ok a =>
      refine Safe.returns (BufferWorld.Answered.stable _) ⟨hv, fun result hr => ?_⟩
      exact absurd (Except.ok.inj hr) (hanswer a result)

theorem safe_job (job : BufferJob) (hw : w.Free i []) :
    bufferProtocol.Safe i (BufferWorld.Answered i) (job.routine roleId).run w := by
  cases job with
  | save snapshot agentContext =>
      refine Safe.chain (fun e => BufferWorld.Answered.stable _)
        ((safe_saveBufferSnapshot hw).mono fun r v hv => ?_)
      cases r with
      | error e => exact ⟨hv.1, nofun⟩
      | ok result =>
          refine Safe.returns (BufferWorld.Answered.stable _) ⟨hv.1, fun other hother => ?_⟩
          cases hother
          exact hv.2 result rfl
  | archive seq now =>
      exact safe_answering .archive (fun _ _ => nofun) (safe_archiveBuffer hw)
  | markProcessed seq now =>
      exact safe_answering (fun _ => .done) (fun _ _ => nofun) (safe_markBuffer hw)
  | markDeadLetter seq reason now =>
      exact safe_answering (fun _ => .done) (fun _ _ => nofun) (safe_markBuffer hw)
  | restore seq =>
      exact safe_answering (fun _ => .done) (fun _ _ => nofun)
        (safe_restoreDeadLetter hw)
  | rate seq rating =>
      exact safe_answering (fun _ => .done) (fun _ _ => nofun)
        (safe_updateBufferRating hw)

/-! ## Operations together -/

/-- The operations that were started, each safe beside the others. -/
def BufferState.InOrder (s : BufferState) : Prop :=
  bufferProtocol.Together (fun i w => w.Free i []) BufferWorld.Answered s.world s.threads

theorem BufferWorld.ensured_kept : ensured.Kept where
  held _ _ _ h := absurd h List.not_mem_nil
  taken _ _ _ h := absurd h List.not_mem_nil
  distinct := List.nodup_nil
  takenAllotted _ _ h := absurd h List.not_mem_nil
  filed location seq h := by
    have hnone : ensured.disk.lookup (reportPath location seq) = none :=
      AList.lookup_eq_none.mpr fun hin => by
        have hpath := List.mem_singleton.mp (AList.mem_keys.mp hin)
        cases hpath
    rw [hnone] at h
    cases h
  lives _ h := absurd h.choose_spec List.not_mem_nil
  present := ⟨{}, rfl, Nat.le_refl _⟩
  cursor _ _ h := absurd h.choose_spec List.not_mem_nil
  counted _ := .inr ⟨{}, rfl, rfl, rfl, rfl⟩

theorem BufferState.inOrder_start : BufferState.InOrder {} where
  inv := ensured_kept
  safe i p h := by cases h
  idle i _ :=
    { holds :=
        { queues := fun _ _ => iff_of_false List.not_mem_nil List.not_mem_nil
          own := fun _ => iff_of_false List.not_mem_nil List.not_mem_nil }
      outside := List.not_mem_nil
      clean := List.not_mem_nil }

/-- A step that finds no report another operation has taken keeps them all safe. -/
theorem BufferState.InOrder.step {label : BufferLabel} (h : s.InOrder) (hclear : ¬ s.Clashes label) :
    (s.step roleId label).InOrder := by
  cases label with
  | start job => exact h.start fun _ hidle => safe_job job hidle
  | advance i =>
      cases hthread : s.threads[i]? with
      | none =>
          simp only [BufferState.step, hthread]
          exact h
      | some thread =>
          cases thread with
          | done outcome =>
              simp only [BufferState.step, hthread]
              exact h
          | call c next =>
              cases hexec : c.exec i s.world with
              | none =>
                  simp only [BufferState.step, hthread, hexec]
                  exact h
              | some result =>
                  simp only [BufferState.step, hthread, hexec]
                  refine Together.step h (fun i => Local.free.stable) hthread ⟨hexec, ?_⟩
                  cases c with
                  | take location seq =>
                      intro hfound other hother hseq
                      by_contra hne
                      simp only [BufferState.Clashes, hthread] at hclear
                      exact hclear ⟨hfound, other, hother, hne, hseq⟩
                  | file | settle | allot | enter | leave => exact trivial

/-! ## At rest -/

theorem BufferState.Quiet.free (h : s.InOrder) (hquiet : s.Quiet) (i : Nat) :
    s.world.Free i [] := by
  by_cases hlt : i < s.threads.length
  · have hanswer := hquiet s.threads[i] (List.getElem_mem hlt)
    obtain ⟨outcome, houtcome⟩ := Option.isSome_iff_exists.mp hanswer
    have hthread : s.threads[i]? = some (.done outcome) := by
      rw [List.getElem?_eq_getElem hlt, Thread.answer?_eq_some.mp houtcome]
    exact (Together.answers h hthread).1
  · exact h.idle i (Nat.le_of_not_lt hlt)

theorem BufferState.InOrder.given (h : s.InOrder) {thread : BufferThread BufferOutcome} {seq : Nat}
    (hthread : s.threads[i]? = some thread) (hsaved : BufferState.savedBy thread = some seq) :
    (i, seq) ∈ s.world.allotted := by
  obtain ⟨result, rfl, rfl⟩ := BufferState.savedBy_eq_some.mp hsaved
  exact (Together.answers h hthread).2 result rfl

theorem BufferState.InOrder.distinct (h : s.InOrder) : s.saved.Nodup := by
  have hnodup : (s.world.allotted.map (·.2)).Nodup := h.inv.distinct
  unfold BufferState.saved
  rw [List.nodup_iff_pairwise_ne, List.pairwise_filterMap, List.pairwise_iff_getElem]
  rintro i j hi hj hlt seq hseq other hother rfl
  have hfirst := h.given (List.getElem?_eq_getElem hi) hseq
  have hsecond := h.given (List.getElem?_eq_getElem hj) hother
  have hsame := List.inj_on_of_nodup_map hnodup hfirst hsecond rfl
  cases hsame
  exact Nat.lt_irrefl _ hlt

theorem BufferState.InOrder.sound (h : s.InOrder) (hquiet : s.Quiet) :
    s.Sound where
  lives seq hseq := by
    obtain ⟨thread, hin, hsaved⟩ := List.mem_filterMap.mp hseq
    obtain ⟨i, hi, hthread⟩ := List.mem_iff_getElem.mp hin
    have hgiven := h.given (i := i) (by rw [List.getElem?_eq_getElem hi, hthread]) hsaved
    refine (h.inv.lives seq ⟨i, hgiven⟩).resolve_left ?_
    rintro ⟨j, hj⟩
    rw [(hquiet.free h j).holds.own] at hj
    exact List.not_mem_nil hj
  distinct := h.distinct
  counted := by
    have hnobody (j : Nat) : (.bufferMeta, j) ∉ s.world.held := (hquiet.free h j).outside
    refine (h.inv.counted hnobody).resolve_left ?_
    rintro ⟨j, hj⟩
    exact (hquiet.free h j).clean hj

/-- Whenever no operation is in flight, in a run in which no operation found a report that another
one had taken, the files are in order. -/
theorem buffer_in_one_partition (labels : List BufferLabel)
    (h : ¬ Runs.Happened (BufferState.step roleId) {} labels fun s label _ => s.Clashes label) :
    let s := labels.foldl (BufferState.step roleId) {}
    s.Quiet → s.Sound := by
  intro s hquiet
  have hs : s.InOrder := Runs.invariant_of_not_happened (fun s label hs => hs.step)
    BufferState.inOrder_start h
  exact hs.sound hquiet

end

/-! ### Runs -/

def advances (thread calls : Nat) : List BufferLabel :=
  List.replicate calls (.advance thread)

def firstSave : List BufferLabel :=
  .start (.save { taskId := "first" } none) :: advances 0 20

/-- A report is archived while another one is saved, call by call in turn. -/
def archivedWhileSaved : List BufferLabel :=
  firstSave ++ [.start (.archive 1 0), .start (.save { taskId := "second" } none)] ++
    (List.replicate 25 [BufferLabel.advance 1, .advance 2]).flatten

theorem archived_while_saved :
    let s := archivedWhileSaved.foldl (BufferState.step "role") {}
    s.saved = [1, 2] ∧ s.Sound := by
  refine ⟨by decide +kernel, buffer_in_one_partition archivedWhileSaved (by decide +kernel) ?_⟩
  unfold BufferState.Quiet
  decide +kernel

/-- A rating has read the report before it is archived and writes it back afterwards. -/
def ratedWhileArchived : List BufferLabel :=
  firstSave ++ [.start (.rate 1 .resolved), .advance 1, .start (.archive 1 0)] ++ advances 2 18 ++
    advances 1 4

/-- Then all have ended and the report is in two partitions. -/
theorem report_in_two_partitions :
    ¬ ∀ labels : List BufferLabel, (labels.foldl (BufferState.step "role") {}).Quiet →
      (labels.foldl (BufferState.step "role") {}).Sound := by
  intro hclaim
  have hquiet : (ratedWhileArchived.foldl (BufferState.step "role") {}).Quiet := by
    unfold BufferState.Quiet
    decide +kernel
  have hfiles : 1 ∈ (ratedWhileArchived.foldl (BufferState.step "role") {}).saved ∧
      ∀ location ∈ [pending, .processed],
        ((ratedWhileArchived.foldl (BufferState.step "role") {}).world.disk.lookup
          (reportPath location 1)).isSome = true := by decide +kernel
  obtain ⟨location, report, hat⟩ := (hclaim _ hquiet).lives 1 hfiles.1
  have hthere (other : BufferLocation) (hin : other ∈ [pending, .processed]) :
      other = location := by
    by_contra hne
    have hfile := hfiles.2 other hin
    rw [hat.nowhereElse other hne] at hfile
    cases hfile
  have hboth : pending = .processed :=
    (hthere .pending (by decide)).trans (hthere .processed (by decide)).symm
  cases hboth

end Newide.Memory
