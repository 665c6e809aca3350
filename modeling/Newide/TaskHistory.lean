import Newide.Interruption

/-!
# The history of a Task

What is stored of a Task only grows until it is deleted: later events and
checkpoints come behind the ones that are there, and have higher numbers;
a Run that has ended stays ended; a revision stands for one content.  A
checkpoint descends from earlier ones of its Task.
-/

namespace Newide

open Fallible CoordinationStore

variable {π : Type} {store after : CoordinationStore} {env : Env} {op : Operation}
  {record new later : TaskRecord} {taskId : String} {last more : Nat}

/-! ## Numbers and revisions -/

theorem numberEvents_ascends (last : Nat) (events : List Event) :
    (Tables.numberEvents last events).Pairwise (fun a b => a.sequence < b.sequence) ∧
      ∀ event ∈ Tables.numberEvents last events,
        last < event.sequence ∧ event.sequence ≤ last + events.length := by
  induction events generalizing last with
  | nil => exact ⟨.nil, fun _ h => by cases h⟩
  | cons event rest ih =>
      obtain ⟨hrest, hbounds⟩ := ih (last + 1)
      refine ⟨.cons (fun other hother => (hbounds other hother).1) hrest, fun other hother => ?_⟩
      rw [List.length_cons]
      rcases List.mem_cons.mp hother with rfl | hother
      · exact ⟨Nat.lt_succ_self last, by simp [readEvent]⟩
      · have := hbounds other hother
        omega

/-- The events of every Task ascend up to the last number, and every Run has been written. -/
structure Numbered (store : CoordinationStore) : Prop where
  ascends : Everywhere (fun record => record.events.Pairwise fun a b => a.sequence < b.sequence)
    store
  bounded : ∀ record ∈ store.tables.records, ∀ event ∈ record.events,
    event.sequence ≤ store.tables.lastSequence
  written : Everywhere (fun record => ∀ run ∈ record.runs, run.revision ≠ 0) store

theorem numbered_empty : Numbered .empty :=
  ⟨fun _ h => (by cases h), fun _ h => (by cases h), fun _ h => (by cases h)⟩

theorem numbered_step (h : StoreStep op env store after) (hI : Numbered store) :
    Numbered after ∧ store.tables.lastSequence ≤ after.tables.lastSequence := by
  cases h with
  | commit hc hstore =>
      rename_i old input committed
      obtain ⟨hadmitted, _, hafter⟩ := commitState_eq_ok.mp hstore
      have hlast : after.tables.lastSequence = store.tables.lastSequence + input.events.length := by
        rw [hafter, Tables.write]
      obtain ⟨hnumbers, hbounds⟩ := numberEvents_ascends store.tables.lastSequence input.events
      have hevents : (oldEvents old).Pairwise (fun a b => a.sequence < b.sequence) ∧
          ∀ event ∈ oldEvents old, event.sequence ≤ store.tables.lastSequence := by
        cases old with
        | none => exact ⟨.nil, fun _ h => by cases h⟩
        | some record => exact ⟨hI.ascends record hc.record_mem, hI.bounded record hc.record_mem⟩
      refine ⟨⟨hI.ascends.commit hc.old_eq hstore ?_, fun record hmem event hevent => ?_,
        hI.written.commit hc.old_eq hstore fun run hrun => ?_⟩, hlast ▸ Nat.le_add_right _ _⟩
      · rw [recordAfter_events]
        refine List.pairwise_append.mpr ⟨hevents.1, hnumbers, fun a ha b hb => ?_⟩
        exact Nat.lt_of_le_of_lt (hevents.2 a ha) (hbounds b hb).1
      · rw [hlast]
        rcases mem_records_after hc.old_eq hstore hmem with rfl | ⟨hmem, _⟩
        · rw [recordAfter_events] at hevent
          rcases List.mem_append.mp hevent with hold | hnew
          · exact Nat.le_add_right_of_le (hevents.2 event hold)
          · exact (hbounds event hnew).2
        · exact Nat.le_add_right_of_le (hI.bounded record hmem event hevent)
      · rcases (mem_recordAfter_runs hc.old_eq).mp hrun with ⟨w, hw, rfl⟩ | ⟨hold, _⟩
        · have hrow := (hadmitted.run w hw).row
          show w.revision ≠ 0
          split at hrow <;> omega
        · cases old with
          | none => cases hold
          | some record => exact hI.written record hc.record_mem run hold
  | delete _ hstore =>
      have hsame : after.tables.lastSequence = store.tables.lastSequence := by
        unfold CoordinationStore.deleteTask at hstore
        split at hstore
        · cases hstore
        · rename_i tables htables
          cases hstore
          simp only [Tables.deleteTask, bind_eq_ok, ensure_eq_ok, pure_eq_ok] at htables
          obtain ⟨_, _, _, _, rfl⟩ := htables
          rfl
      refine ⟨⟨hI.ascends.delete hstore fun _ _ h _ => h, fun record hmem => ?_,
        hI.written.delete hstore fun _ _ h _ => h⟩, hsame.ge⟩
      obtain ⟨kept, hkept, _, rfl⟩ := (mem_records_deleted hstore).mp hmem
      exact hsame ▸ hI.bounded kept hkept
  | protocol => exact ⟨hI, le_rfl⟩

/-! ## What is added to a Task -/

/-- `new` is stored of a Task after `record`; the events that came meanwhile are above `last`. -/
structure Extends (last : Nat) (record new : TaskRecord) : Prop where
  events : ∃ later, new.events = record.events ++ later ∧ ∀ event ∈ later, last < event.sequence
  checkpoints : record.checkpoints <+: new.checkpoints
  ended : ∀ run ∈ record.runs, isActiveRun run = false →
    ∃ run' ∈ new.runs, run'.runId = run.runId ∧ isActiveRun run' = false
  revision : record.task.revision ≤ new.task.revision
  same : new.task.revision = record.task.revision → new.task = record.task ∧
    new.runs = record.runs ∧ new.events = record.events ∧ new.checkpoints = record.checkpoints

theorem Extends.refl (last : Nat) (record : TaskRecord) : Extends last record record :=
  ⟨⟨[], by simp, fun _ h => by cases h⟩, List.prefix_rfl, fun run hrun hover =>
    ⟨run, hrun, rfl, hover⟩, le_rfl, fun _ => ⟨rfl, rfl, rfl, rfl⟩⟩

theorem Extends.trans (h : Extends last record new) (h' : Extends more new later)
    (hle : last ≤ more) : Extends last record later where
  events := by
    obtain ⟨first, hfirst, habove⟩ := h.events
    obtain ⟨second, hsecond, habove'⟩ := h'.events
    refine ⟨first ++ second, by rw [hsecond, hfirst, List.append_assoc], fun event hevent => ?_⟩
    rcases List.mem_append.mp hevent with hin | hin
    · exact habove event hin
    · exact Nat.lt_of_le_of_lt hle (habove' event hin)
  checkpoints := h.checkpoints.trans h'.checkpoints
  ended run hrun hover := by
    obtain ⟨middle, hmiddle, hid, hover⟩ := h.ended run hrun hover
    obtain ⟨run', hrun', hid', hover'⟩ := h'.ended middle hmiddle hover
    exact ⟨run', hrun', hid'.trans hid, hover'⟩
  revision := h.revision.trans h'.revision
  same hsame := by
    have hfirst := h.revision
    have hsecond := h'.revision
    obtain ⟨htask, hruns, hevents, hcheckpoints⟩ := h.same (by omega)
    obtain ⟨htask', hruns', hevents', hcheckpoints'⟩ := h'.same (by omega)
    exact ⟨htask'.trans htask, hruns'.trans hruns, hevents'.trans hevents,
      hcheckpoints'.trans hcheckpoints⟩

/-- A Run that is not active is not begun again: its row has a revision, a new one has none. -/
theorem ended_after {input : CoordinationStateCommit} {run w : PersistedRunState}
    (hI : Numbered store) (hc : TaskCommit store env op (some record) input)
    (hadmitted : Admitted store.tables input) (hrun : run ∈ record.runs)
    (hover : isActiveRun run = false) (hw : input.run = some w) (hid : w.runId = run.runId) :
    isActiveRun w = false := by
  have hdistinct := store.constraints.record_runs_distinct hc.record_mem
  cases hc.effect with
  | begins hop _ hnew =>
      subst hop
      have hrow := (hadmitted.run w hw).row
      have hlookup : Rows.lookup PersistedRunState.runId w.runId store.tables.runs = some run :=
        hid ▸ store.constraints.runs_distinct.lookup_of_mem
          (List.mem_flatMap.mpr ⟨record, hc.record_mem, hrun⟩)
      rw [hlookup] at hrow
      rw [hc.beginRun_eq.1] at hw
      have hrevision : w.revision = 1 := by
        obtain rfl := Option.some.inj hw
        rfl
      have := hI.written record hc.record_mem run hrun
      omega
  | keeps _ _ _ hkept =>
      obtain ⟨old, hold, hsame, hactive⟩ := hkept w hw
      rwa [hactive, hdistinct.eq_of_key hold hrun (hsame.trans hid)]
  | ends _ _ hwrites _ hover' =>
      rw [hwrites] at hw
      exact Option.some.inj hw ▸ hover'
  | blocks _ hnone | expires _ hnone =>
      rw [hnone] at hw
      cases hw

theorem extends_commit {input : CoordinationStateCommit} (hI : Numbered store)
    (hc : TaskCommit store env op (some record) input) (hadmitted : Admitted store.tables input) :
    Extends store.tables.lastSequence record
      (recordAfter (some record) input store.tables.lastSequence) := by
  have hrevision : input.task.revision = record.task.revision + 1 := by
    have htask := hadmitted.task
    unfold TaskAdmitted at htask
    rw [show store.tables.record? input.task.taskId = some record from hc.old_eq] at htask
    exact htask.2
  have hcheckpoints : record.checkpoints <+:
      (recordAfter (some record) input store.tables.lastSequence).checkpoints := by
    rw [recordAfter_checkpoints]
    exact List.prefix_append _ _
  refine ⟨⟨_, recordAfter_events, fun event hevent =>
      ((numberEvents_ascends _ _).2 event hevent).1⟩, hcheckpoints,
    fun run hrun hover => ?_, ?_, fun hsame => ?_⟩
  · obtain ⟨run', hrun', hid⟩ := recordAfter_run_kept _ hc.old_eq hrun
    refine ⟨run', hrun', hid, ?_⟩
    rcases (mem_recordAfter_runs hc.old_eq).mp hrun' with ⟨w, hw, rfl⟩ | ⟨hold, _⟩
    · show isActiveRun w = false
      exact ended_after hI hc hadmitted hrun hover hw hid
    · rwa [(store.constraints.record_runs_distinct hc.record_mem).eq_of_key hold hrun hid]
  · rw [recordAfter_task]
    exact (Nat.le_succ _).trans hrevision.ge
  · rw [recordAfter_task] at hsame
    exact absurd (hrevision.symm.trans hsame) (Nat.succ_ne_self _)

theorem extends_step (h : StoreStep op env store after) (hI : Numbered store)
    (hkept : op ≠ .deleteTask taskId) (hrecord : store.record? taskId = some record) :
    ∃ new, after.record? taskId = some new ∧
      Extends store.tables.lastSequence record new := by
  cases h with
  | commit hc hstore =>
      rename_i old input committed
      by_cases hid : taskId = input.task.taskId
      · subst hid
        obtain rfl : some record = old := hrecord.symm.trans hc.old_eq
        exact ⟨_, record?_after hc.old_eq hstore,
          extends_commit hI hc (commitState_eq_ok.mp hstore).1⟩
      · exact ⟨record, (record?_commit_ne hstore hid).trans hrecord, .refl _ _⟩
  | delete hop hstore =>
      rename_i deleted
      have hne : record.taskId ≠ deleted := by
        rw [record?_taskId hrecord]
        exact fun heq => hkept (heq ▸ hop)
      have hmem := (mem_records_deleted hstore).mpr ⟨record, record?_mem hrecord, hne, rfl⟩
      refine ⟨Tables.forgetRuns (goneRuns store deleted) record, ?_,
        { Extends.refl _ record with }⟩
      rw [← record?_taskId hrecord]
      exact record?_of_mem hmem
  | protocol => exact ⟨record, hrecord, .refl _ _⟩

/-! ## Runs -/

variable {bridges : Bridges π} {w₀ w w' : World π} {first second : List Call}

theorem numbered_run (hw : Initial w₀) (h : Runs.Steps (Cut bridges) w₀ first w) :
    Numbered w.store := by
  refine Runs.Steps.invariant (I := fun w : World π => Numbered w.store) (hw ▸ numbered_empty)
    (fun a call b ha hab => ?_) h
  exact hab.invariant (fun _ _ hs hst => (numbered_step hst hs).1) ha

theorem extends_run (hI : Numbered w.store) (hrecord : w.store.record? taskId = some record)
    (h : Runs.Steps (Cut bridges) w second w')
    (hkept : ∀ call ∈ second, call.op ≠ .deleteTask taskId) :
    Numbered w'.store ∧ ∃ new, w'.store.record? taskId = some new ∧
      Extends w.store.tables.lastSequence record new := by
  let I (s : CoordinationStore) : Prop := (Numbered s ∧
    w.store.tables.lastSequence ≤ s.tables.lastSequence) ∧
      ∃ new, s.record? taskId = some new ∧ Extends w.store.tables.lastSequence record new
  have hrun : I w'.store := by
    refine Runs.Steps.invariant_history (I := fun past (x : World π) =>
      (∀ call ∈ past, call.op ≠ .deleteTask taskId) → I x.store)
      (fun _ => ⟨⟨hI, le_rfl⟩, record, hrecord, .refl _ _⟩) (fun past a call b ih hab hpast => ?_)
      h hkept
    obtain ⟨hbefore, hcall⟩ := List.forall_mem_append.mp hpast
    refine hab.invariant (fun s t hs hst => ?_) (ih hbefore)
    obtain ⟨⟨hnumbered, hle⟩, new, hnew, hextends⟩ := hs
    obtain ⟨hnumbered', hle'⟩ := numbered_step hst hnumbered
    obtain ⟨later, hlater, hextends'⟩ :=
      extends_step hst hnumbered (hcall call (List.mem_singleton_self _)) hnew
    exact ⟨⟨hnumbered', hle.trans hle'⟩, later, hlater, hextends.trans hextends' hle⟩
  exact ⟨hrun.1.1, hrun.2⟩

/-- Whatever calls follow, whether they end or break off: nothing that was stored of a Task is
lost until it is deleted, and the events above the last number are those that were added. -/
theorem history_only_grows (hw : Initial w₀) (hfirst : Runs.Steps (Cut bridges) w₀ first w)
    (hsecond : Runs.Steps (Cut bridges) w second w')
    (hrecord : w.store.record? taskId = some record)
    (hkept : ∀ call ∈ second, call.op ≠ .deleteTask taskId) :
    ∃ new, w'.store.record? taskId = some new ∧
      Extends w.store.tables.lastSequence record new ∧
      new.events.Pairwise (fun a b => a.sequence < b.sequence) ∧
      record.events =
        new.events.filter fun event => event.sequence ≤ w.store.tables.lastSequence := by
  have hI := numbered_run hw hfirst
  obtain ⟨hI', new, hnew, hextends⟩ := extends_run hI hrecord hsecond hkept
  refine ⟨new, hnew, hextends, hI'.ascends new (record?_mem hnew), ?_⟩
  obtain ⟨later, hevents, habove⟩ := hextends.events
  rw [hevents, List.filter_append, List.filter_eq_self.mpr fun event hevent => by
      simpa using hI.bounded record (record?_mem hrecord) event hevent,
    List.filter_eq_nil_iff.mpr fun event hevent => by simpa using habove event hevent,
    List.append_nil]

/-- A Task has begun and can start its first stage. -/
abbrev CanStart (w : World Unit) : Prop :=
  (w.store.record? "t").isSome = true ∧
    (Runs.exec (nextWorld (fun _ _ => True) {}) w [startCall '2' "r" .selectAgent]).any
      (fun _ => True) = true ∧
    (exec {} (stoppedEnv '2') w (startCall '2' "r" .selectAgent).op).commits.head?.any
      (fun after => after.store.tables.lastSequence ≠ w.store.tables.lastSequence) = true

theorem exists_canStart : ∃ w, CanStart w ∧
    Runs.Steps (Cut {}) emptyWorld [⟨stoppedEnv '1', .beginRun createRequest⟩] w := by
  obtain ⟨w, h, hw⟩ := exists_run {} emptyWorld [⟨stoppedEnv '1', .beginRun createRequest⟩]
    (P := CanStart) (by decide)
  exact ⟨w, hw, h.mono fun _ _ _ hab => hab.cut⟩

theorem started_history_grows : ∃ (w w' : World Unit) (record new : TaskRecord),
    w.store.record? "t" = some record ∧ w'.store.record? "t" = some new ∧
      record.events =
        new.events.filter fun event => event.sequence ≤ w.store.tables.lastSequence := by
  obtain ⟨w, ⟨hrecord, hexec, _⟩, hfirst⟩ := exists_canStart
  obtain ⟨record, hrecord⟩ := Option.isSome_iff_exists.mp hrecord
  obtain ⟨w', hsecond, _⟩ := exists_run {} w [startCall '2' "r" .selectAgent] hexec
  have hempty : Initial emptyWorld := rfl
  obtain ⟨new, hnew, _, _, hevents⟩ := history_only_grows hempty hfirst
    (hsecond.mono fun _ _ _ hab => hab.cut) hrecord (by simp [startCall])
  exact ⟨w, w', record, new, hrecord, hnew, hevents⟩

theorem TaskCommit.expects {input : CoordinationStateCommit}
    (h : TaskCommit store env op (some record) input) :
    input.expectedTaskRevision = some record.task.revision := by
  cases h <;> rfl

/-- A commit that was built from what one state stores of a Task, and is accepted in a later one,
finds the Task there as it was: no call writes over what another has written meanwhile. -/
theorem commit_finds_what_it_read {input : CoordinationStateCommit}
    {committed : List PersistedCoordinationEvent} (hw : Initial w₀)
    (hfirst : Runs.Steps (Cut bridges) w₀ first w)
    (hsecond : Runs.Steps (Cut bridges) w second w')
    (hkept : ∀ call ∈ second, call.op ≠ .deleteTask input.task.taskId)
    (hread : TaskCommit w.store env op (some record) input)
    (hcommit : w'.store.commitState input = .ok (committed, after)) :
    ∃ new, w'.store.record? input.task.taskId = some new ∧ new.task = record.task ∧
      new.runs = record.runs ∧ new.events = record.events ∧
      new.checkpoints = record.checkpoints := by
  obtain ⟨_, new, hnew, hextends⟩ :=
    extends_run (numbered_run hw hfirst) hread.old_eq hsecond hkept
  refine ⟨new, hnew, hextends.same ?_⟩
  have htask := (commitState_eq_ok.mp hcommit).1.task
  unfold TaskAdmitted at htask
  rw [show w'.store.tables.record? input.task.taskId = some new from hnew, hread.expects] at htask
  exact (Option.some.inj htask.1).symm

theorem started_commit_finds : ∃ (w : World Unit) (env : Env) (record new : TaskRecord)
    (input : CoordinationStateCommit),
    TaskCommit w.store env (startCall '2' "r" .selectAgent).op (some record) input ∧
      w.store.record? input.task.taskId = some new ∧ new.task = record.task := by
  obtain ⟨w, ⟨_, _, hcommits⟩, hfirst⟩ := exists_canStart
  obtain ⟨after, hhead, hlast⟩ := (Option.any_eq_true _ _).mp hcommits
  obtain ⟨rest, hcons⟩ := List.head?_eq_some_iff.mp hhead
  have hchain := exec_chain {} (stoppedEnv '2') w (startCall '2' "r" .selectAgent).op
  unfold StoreChain at hchain
  rw [hcons, List.map_cons, List.isChain_cons_cons] at hchain
  have hstep := hchain.1
  generalize hnext : after.store = store at hstep
  cases hstep with
  | commit hc hstore =>
      rename_i k old input committed
      cases old with
      | none => cases hc
      | some record =>
          have hempty : Initial emptyWorld := rfl
          obtain ⟨new, hnew, htask, _⟩ :=
            commit_finds_what_it_read hempty hfirst .nil (fun _ h => by cases h) hc hstore
          exact ⟨w, _, record, new, input, hc, hnew, htask⟩
  | delete hop _ => cases hop
  | protocol => simp [hnext] at hlast

/-! ## Checkpoints -/

/-- What a checkpoint keeps of an anchor that was captured for it. -/
def snapshotOf (anchor : FileAnchor) : MechanicalSnapshot where
  baseCommit := anchor.baseCommit
  snapshotCommit := truthy anchor.snapshotCommit
  worktreePath := anchor.worktreePath
  branch := anchor.branch
  modifiedFiles := anchor.modifiedFiles

/-- The parent of a checkpoint is stored before it, and a recovery keeps the content that its
parent has pinned. -/
def Follows (earlier : List PersistedFullCheckpoint) (checkpoint : PersistedFullCheckpoint) :
    Prop :=
  ∀ parent ∈ checkpoint.parentCheckpointId, ∃ p ∈ earlier, p.checkpointId = parent ∧
    (checkpoint.interruptState.any (·.type = .processInterrupted) = true →
      p.mechanicalSnapshot.snapshotCommit.isSome →
        checkpoint.mechanicalSnapshot = p.mechanicalSnapshot)

inductive Descends : List PersistedFullCheckpoint → Prop where
  | nil : Descends []
  | snoc {earlier : List PersistedFullCheckpoint} {checkpoint : PersistedFullCheckpoint}
      (h : Descends earlier) (hnew : Follows earlier checkpoint) :
      Descends (earlier ++ [checkpoint])

/-- A call captured the snapshot, in the workspace and for one of the checkpoints. -/
def Captured (calls : List Call) (workspacePath : String)
    (checkpoints : List PersistedFullCheckpoint) (snapshot : MechanicalSnapshot) : Prop :=
  ∃ call ∈ calls, ∃ origin ∈ checkpoints,
    snapshot = snapshotOf (call.env.captureFileAnchor workspacePath origin.checkpointId)

structure Lineage (calls : List Call) (record : TaskRecord) : Prop where
  descends : Descends record.checkpoints
  captured : ∀ checkpoint ∈ record.checkpoints,
    Captured calls record.task.workspacePath record.checkpoints checkpoint.mechanicalSnapshot

/-- What a commit builds a checkpoint from; `latest` is the one its Task had. -/
structure Builds (request : BuildSafepointCheckpointInput) (env : Env) (record : TaskRecord)
    (latest : Option PersistedFullCheckpoint) : Prop where
  aggregate : request.aggregate = record.aggregate
  capture : request.captureFileAnchor = env.captureFileAnchor
  parent : request.parentCheckpointId = latest.map (·.checkpointId) ∨
    request.parentCheckpointId = none
  inherits : request.inheritMechanicalSnapshot = latest.map (·.mechanicalSnapshot) ∨
    request.inheritMechanicalSnapshot = none ∧
      request.interruptState.any (·.type = .processInterrupted) = false

theorem TaskCommit.builds {old : Option TaskRecord} {input : CoordinationStateCommit}
    {checkpoint : PersistedFullCheckpoint} (h : TaskCommit store env op old input)
    (hinput : input.checkpoint = some checkpoint) :
    ∃ record request, old = some record ∧ checkpoint = buildSafepointCheckpoint request ∧
      Builds request env record (store.getLatestCheckpoint record.taskId) := by
  cases h with
  | interrupt hop hacts =>
      obtain rfl := Option.some.inj hinput
      rcases hop with ⟨request, _, rfl⟩ | ⟨_, rfl⟩
      · exact ⟨_, _, rfl, rfl, rfl, rfl, .inr rfl, .inr ⟨rfl, rfl⟩⟩
      · exact ⟨_, _, rfl, rfl, rfl, rfl, .inl rfl, .inl rfl⟩
  | safepoint hop hacts =>
      obtain rfl := Option.some.inj hinput
      exact ⟨_, _, rfl, rfl, rfl, rfl, .inl rfl, .inr ⟨rfl, rfl⟩⟩
  | _ => cases hinput

theorem TaskCommit.workspacePath_eq {input : CoordinationStateCommit}
    (h : TaskCommit store env op (some record) input) :
    input.task.workspacePath = record.task.workspacePath := by
  cases h with
  | advance h =>
      simp only [advanceStageCommit, advancedTask]
      split <;> rfl
  | _ => rfl

section
variable {request : BuildSafepointCheckpointInput} {latest : Option PersistedFullCheckpoint}
  {p : PersistedFullCheckpoint}

theorem Builds.keeps (hp : latest = some p)
    (hinherits : request.inheritMechanicalSnapshot = latest.map (·.mechanicalSnapshot))
    (hread : truthy p.mechanicalSnapshot.snapshotCommit = p.mechanicalSnapshot.snapshotCommit)
    (hpinned : p.mechanicalSnapshot.snapshotCommit.isSome) :
    (buildSafepointCheckpoint request).mechanicalSnapshot = p.mechanicalSnapshot := by
  simp [buildSafepointCheckpoint, safepointAnchor, hinherits, hp, Option.filter, hread, hpinned]

theorem Builds.follows (hb : Builds request env record latest)
    (hstored : ∀ p ∈ latest, p ∈ record.checkpoints)
    (hread : ∀ p ∈ latest,
      truthy p.mechanicalSnapshot.snapshotCommit = p.mechanicalSnapshot.snapshotCommit) :
    Follows record.checkpoints (readCheckpoint (buildSafepointCheckpoint request)) := by
  intro parent hparent
  have hnamed : request.parentCheckpointId = some parent :=
    (truthy_eq_some.mp ((truthy_truthy _).symm.trans hparent)).1
  rcases hb.parent with heq | heq
  · obtain ⟨p, hp, hid⟩ := Option.map_eq_some_iff.mp (heq.symm.trans hnamed)
    refine ⟨p, hstored p hp, hid, fun hrecovery hpinned => ?_⟩
    rcases hb.inherits with hinherits | ⟨_, hnot⟩
    · exact keeps hp hinherits (hread p hp) hpinned
    · exact absurd hrecovery (Bool.eq_false_iff.mp hnot)
  · cases heq.symm.trans hnamed

theorem Builds.snapshot (hb : Builds request env record latest)
    (hread : ∀ p ∈ latest,
      truthy p.mechanicalSnapshot.snapshotCommit = p.mechanicalSnapshot.snapshotCommit) :
    (∃ p ∈ latest,
        (buildSafepointCheckpoint request).mechanicalSnapshot = p.mechanicalSnapshot) ∨
      (buildSafepointCheckpoint request).mechanicalSnapshot =
        snapshotOf (env.captureFileAnchor record.task.workspacePath request.checkpointId) := by
  have hcaptured (hnone : request.inheritMechanicalSnapshot.filter (fun inherited =>
      (truthy inherited.snapshotCommit).isSome) = none) :
      (buildSafepointCheckpoint request).mechanicalSnapshot =
        snapshotOf (env.captureFileAnchor record.task.workspacePath request.checkpointId) := by
    simp only [buildSafepointCheckpoint, safepointAnchor, hnone, snapshotOf, hb.capture,
      hb.aggregate]
  rcases hb.inherits with hinherits | ⟨hnone, _⟩
  · cases hlatest : latest with
    | none => exact .inr (hcaptured (by rw [hinherits, hlatest]; rfl))
    | some p =>
        by_cases hpinned : p.mechanicalSnapshot.snapshotCommit.isSome
        · exact .inl ⟨p, rfl, keeps hlatest hinherits (hread p hlatest) hpinned⟩
        · refine .inr (hcaptured ?_)
          simpa [hinherits, hlatest, Option.filter, hread p hlatest] using hpinned
  · exact .inr (hcaptured (by rw [hnone]; rfl))

end

theorem Captured.mono {workspacePath : String} {checkpoints more : List PersistedFullCheckpoint}
    {snapshot : MechanicalSnapshot} (h : Captured first workspacePath checkpoints snapshot)
    (hcalls : first ⊆ second) (hmore : checkpoints ⊆ more) :
    Captured second workspacePath more snapshot := by
  obtain ⟨call, hcall, origin, horigin, heq⟩ := h
  exact ⟨call, hcalls hcall, origin, hmore horigin, heq⟩

theorem lineage_commit {old : Option TaskRecord} {input : CoordinationStateCommit} {call : Call}
    {k : Nat} (hI : ∀ record ∈ old, Lineage first record) (hcall : call ∈ first)
    (hc : TaskCommit store (call.env.shift k) op old input) :
    Lineage first (recordAfter old input last) := by
  cases hinput : input.checkpoint with
  | none =>
      have hsame : (recordAfter old input last).checkpoints = oldCheckpoints old := by
        rw [recordAfter_checkpoints, hinput]
        exact List.append_nil _
      cases old with
      | none => exact ⟨hsame ▸ .nil, fun _ hmem => by rw [hsame] at hmem; cases hmem⟩
      | some record =>
          refine ⟨hsame ▸ (hI record rfl).descends, ?_⟩
          rw [hsame, recordAfter_task, show (readTask input.task).workspacePath =
            record.task.workspacePath from hc.workspacePath_eq]
          exact (hI record rfl).captured
  | some checkpoint =>
      obtain ⟨record, request, rfl, rfl, hb⟩ := hc.builds hinput
      obtain ⟨hdescends, hcaptured⟩ := hI record rfl
      have hstored : ∀ p ∈ store.getLatestCheckpoint record.taskId, p ∈ record.checkpoints := by
        intro p hp
        obtain ⟨other, hother, hmem⟩ := latest_mem hp
        rw [record?_of_mem hc.record_mem] at hother
        exact Option.some.inj hother ▸ hmem
      have hread : ∀ p ∈ store.getLatestCheckpoint record.taskId,
          truthy p.mechanicalSnapshot.snapshotCommit = p.mechanicalSnapshot.snapshotCommit := by
        intro p hp
        obtain ⟨_, _, _, _, heq⟩ := hcaptured p (hstored p hp)
        rw [heq]
        exact truthy_truthy _
      have hafter : (recordAfter (some record) input last).checkpoints = record.checkpoints ++
          [readCheckpoint (buildSafepointCheckpoint request)] := by
        rw [recordAfter_checkpoints, hinput]
        rfl
      refine ⟨hafter ▸ hdescends.snoc (hb.follows hstored hread), ?_⟩
      rw [hafter, recordAfter_task, show (readTask input.task).workspacePath =
        record.task.workspacePath from hc.workspacePath_eq]
      have hold (p : PersistedFullCheckpoint) (hp : p ∈ record.checkpoints) :=
        (hcaptured p hp).mono (List.Subset.refl _)
          (List.subset_append_left _ [readCheckpoint (buildSafepointCheckpoint request)])
      intro checkpoint hmem
      rcases List.mem_append.mp hmem with hin | hnew
      · exact hold checkpoint hin
      · obtain rfl := List.mem_singleton.mp hnew
        rcases hb.snapshot hread with ⟨p, hp, heq⟩ | heq
        · exact heq ▸ hold p (hstored p hp)
        · exact ⟨call, hcall, _, hmem, heq⟩

/-- However calls end or break off: the parent of a checkpoint is an earlier one of its Task, a
recovery keeps the content that its parent has pinned, and no snapshot stems from anything but
the workspace of its Task. -/
theorem checkpoints_descend (hw : Initial w₀) (h : Runs.Steps (Cut bridges) w₀ first w)
    (hrecord : w.store.record? taskId = some record) : Lineage first record := by
  refine Runs.Steps.invariant_history
    (I := fun past (x : World π) => Everywhere (Lineage past) x.store)
    (hw ▸ fun _ hmem => by cases hmem) (fun past a call b hI hab => ?_) h record
    (record?_mem hrecord)
  have hmore : Everywhere (Lineage (past ++ [call])) a.store := fun record hmem =>
    { hI record hmem with
      captured := fun checkpoint hin => ((hI record hmem).captured checkpoint hin).mono
        (List.subset_append_left _ _) (List.Subset.refl _) }
  refine hab.invariant (fun s t hs hst => ?_) hmore
  refine hs.step hst (fun k old input hc _ => ?_) fun _ _ hlineage _ => { hlineage with }
  refine lineage_commit (fun record hold => ?_)
    (List.mem_append_right _ (List.mem_singleton_self _)) hc
  subst hold
  exact hs record hc.record_mem

/-- A Task is begun, the process saves a safepoint and ends, and the next one recovers. -/
abbrev recoveringCalls : List Call :=
  [⟨stoppedEnv '1', .beginRun createRequest⟩, ⟨stoppedEnv '2', .saveShutdownSafepoints⟩,
    ⟨stoppedEnv '3', .recoverInterruptedTasks⟩]

theorem recovered_checkpoints_descend : ∃ (w : World Unit) (record : TaskRecord),
    w.store.record? "t" = some record ∧ Lineage recoveringCalls record ∧
      record.checkpoints.map (·.parentCheckpointId) = [none, some "2c"] := by
  obtain ⟨w, h, hw⟩ := exists_run {} emptyWorld recoveringCalls
    (P := fun w => (w.store.record? "t").any (fun record =>
      record.checkpoints.map (·.parentCheckpointId) = [none, some "2c"]) = true) (by decide)
  obtain ⟨record, hrecord, hparents⟩ := (Option.any_eq_true _ _).mp hw
  have hempty : Initial emptyWorld := rfl
  exact ⟨w, record, hrecord,
    checkpoints_descend hempty (h.mono fun _ _ _ hab => hab.cut) hrecord,
    of_decide_eq_true hparents⟩

end Newide
