import Newide.Foundation.Runs
import Newide.Memory.BufferRepository

/-!
# Operations on the buffer of one role

Any number of operations of the buffer repository run in one process, one
call of the file system at a time, in any order.  No operation of the
file system fails but for the absence of a file.
-/

namespace Newide.Memory

open Threads

/-! ## The state they share -/

/-- The files, and who waits for nobody in a queue.  The rest is a record of what was done. -/
structure BufferWorld where
  disk : BufferDisk
  held : List (QueueKey × Nat) := []
  /-- Who has read a report in order to write it again, and is not done with it. -/
  taken : List (Nat × Nat) := []
  /-- The reports written, oldest first. -/
  written : List (Nat × StoredReport) := []
  /-- Who was given which sequence number. -/
  allotted : List (Nat × Nat) := []
  /-- Who has added or removed a report since it last began to write the meta file. -/
  stale : List Nat := []

/-- The buffer as `ensureAgent` leaves it. -/
def BufferWorld.ensured : BufferWorld where
  disk := AList.singleton metaPath (.bufferMeta {})

def FileCall.written (disk : BufferDisk) : FileCall → Option (Nat × StoredReport)
  | .rename source destination =>
      match destination.name, destination.temporary, disk.lookup source with
      | .report seq, false, some (.report report) => some (seq, report)
      | _, _, _ => none
  | _ => none

def BufferDisk.sameSizes (disk after : BufferDisk) : Bool :=
  BufferLocation.all.all fun location => after.size location = disk.size location

/-- One call of the thread `i`; a queue that somebody is in lets nobody else enter. -/
def BufferCall.exec (i : Nat) : (c : BufferCall) → BufferWorld → Option (c.Reply × BufferWorld)
  | .file c, w =>
      let (answer, disk) := c.exec w.disk
      some (answer,
        { w with
          disk
          written := w.written ++ (c.written w.disk).toList
          stale := if w.disk.sameSizes disk then w.stale else i :: w.stale })
  | .take location seq, w =>
      match w.disk.lookup (reportPath location seq) with
      | some text => some (.ok text, { w with taken := (i, seq) :: w.taken })
      | none => some (.error (noEntry (reportPath location seq)), w)
  | .settle seq, w => some ((), { w with taken := w.taken.filter (· ≠ (i, seq)) })
  | .allot seq, w =>
      some ((), { w with allotted := (i, seq) :: w.allotted, taken := (i, seq) :: w.taken })
  | .enter queue, w =>
      if w.held.any fun holder => holder.1 = queue then none
      else
        some ((),
          { w with
            held := (queue, i) :: w.held
            stale := if queue = .bufferMeta then w.stale.filter (· ≠ i) else w.stale })
  | .leave queue, w => some ((), { w with held := w.held.filter (· ≠ (queue, i)) })

/-! ## The operations -/

inductive BufferJob where
  | save (snapshot : BufferSnapshot) (agentContext : Option AgentContextSnapshot)
  | archive (seq : Nat) (now : Time)
  | markProcessed (seq : Nat) (now : Time)
  | markDeadLetter (seq : Nat) (reason : Option String) (now : Time)
  | restore (seq : Nat)
  | rate (seq : Nat) (rating : UserRating)

inductive BufferAnswer where
  | saved (result : SaveBufferResult)
  | archive (outcome : BufferArchiveOutcome)
  | done

def BufferJob.routine (roleId : String) : BufferJob → BufferRoutine BufferAnswer
  | .save snapshot agentContext => do
      let result ← saveBufferSnapshot roleId snapshot agentContext
      pure (.saved result)
  | .archive seq now => do
      let outcome ← archiveBuffer roleId seq now
      pure (.archive outcome)
  | .markProcessed seq now => do
      markBufferProcessed roleId seq now
      pure .done
  | .markDeadLetter seq reason now => do
      markBufferDeadLetter roleId seq reason now
      pure .done
  | .restore seq => do
      restoreDeadLetter roleId seq
      pure .done
  | .rate seq rating => do
      updateBufferRating seq rating
      pure .done

abbrev BufferOutcome := Except BufferError BufferAnswer

structure BufferState where
  world : BufferWorld := .ensured
  threads : List (BufferThread BufferOutcome) := []

inductive BufferLabel where
  | start (job : BufferJob)
  | advance (thread : Nat)

namespace BufferState

def step (roleId : String) (s : BufferState) : BufferLabel → BufferState
  | .start job => { s with threads := s.threads ++ [(job.routine roleId).run] }
  | .advance i =>
      match s.threads[i]? with
      | some (.call c next) =>
          match c.exec i s.world with
          | some (r, world) => { world, threads := s.threads.set i (next r) }
          | none => s
      | _ => s

/-- A report is found by an operation, to be written again, while another one that has found it
is not done with it. -/
def Clashes (s : BufferState) : BufferLabel → Prop
  | .start _ => False
  | .advance i =>
      match s.threads[i]? with
      | some (.call (.take location seq) _) =>
          (s.world.disk.lookup (reportPath location seq)).isSome = true ∧
            ∃ other ∈ s.world.taken, other.1 ≠ i ∧ other.2 = seq
      | _ => False

instance {s : BufferState} : (label : BufferLabel) → Decidable (s.Clashes label)
  | .start _ => inferInstanceAs (Decidable False)
  | .advance i => by
      unfold Clashes
      dsimp only
      split <;> infer_instance

/-! ## What is to hold -/

/-- No operation is in flight. -/
def Quiet (s : BufferState) : Prop :=
  ∀ thread ∈ s.threads, thread.answer?.isSome = true

def savedBy (thread : BufferThread BufferOutcome) : Option Nat :=
  match thread.answer? with
  | some (.ok (.saved result)) => some result.seq
  | _ => none

def saved (s : BufferState) : List Nat :=
  s.threads.filterMap savedBy

theorem savedBy_eq_some {thread : BufferThread BufferOutcome} {seq : Nat} :
    savedBy thread = some seq ↔ ∃ result, thread = .done (.ok (.saved result)) ∧
      result.seq = seq := by
  constructor
  · intro h
    unfold savedBy at h
    split at h
    · next result hanswer =>
        exact ⟨result, Thread.answer?_eq_some.mp hanswer, Option.some.inj h⟩
    · cases h
  · rintro ⟨result, rfl, rfl⟩
    rfl

end BufferState

def BufferWorld.lastWritten (w : BufferWorld) (seq : Nat) : Option StoredReport :=
  ((w.written.filter fun entry => entry.1 = seq).getLast?).map (·.2)

/-- The report is in this partition and in no other, as it was last written. -/
structure BufferWorld.LivesAt (w : BufferWorld) (seq : Nat) (location : BufferLocation)
    (report : StoredReport) : Prop where
  here : w.disk.lookup (reportPath location seq) = some (.report report)
  nowhereElse : ∀ other, other ≠ location → w.disk.lookup (reportPath other seq) = none
  last : w.lastWritten seq = some report

/-- The counters of the meta file are the sizes of the partitions. -/
def BufferMeta.Fits (found : BufferMeta) (disk : BufferDisk) : Prop :=
  found.pendingCount = disk.size .pending ∧ found.totalProcessed = disk.size .processed ∧
    found.totalDeadLetters = disk.size .deadLetter

structure BufferState.Sound (s : BufferState) : Prop where
  lives : ∀ seq ∈ s.saved, ∃ location report, s.world.LivesAt seq location report
  distinct : s.saved.Nodup
  counted : ∃ found, s.world.disk.lookup metaPath = some (.bufferMeta found) ∧
    found.Fits s.world.disk

end Newide.Memory
