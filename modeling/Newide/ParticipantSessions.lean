import Mathlib.Data.String.Basic
import Newide.Checkpoint
import Newide.Foundation.Rows
import Newide.SqliteStore

/-!
# Participant sessions of a checkpoint

A safepoint writes down the participant sessions of its Task from two
sides: the registry, which binds a role in a workspace to a session, and
the Runs and events of the Task, of which only the role and the session
are kept.  A resume compares what was written down with the registry.
The Runs come newest first and a later entry overwrites an earlier one,
so of a Task's own Runs it is the oldest whose session is kept.
-/

namespace Newide

open Fallible ParticipantSessionBinding

/-! ## The registry -/

/-- `ORDER BY workspace_path, role_id` -/
def bindingBefore (a b : ParticipantSessionBinding) : Prop :=
  a.workspacePath < b.workspacePath ∨ a.workspacePath = b.workspacePath ∧ a.roleId ≤ b.roleId

instance : DecidableRel bindingBefore := fun _ _ => inferInstanceAs (Decidable (_ ∨ _))

/-- The primary key of `participant_sessions`. -/
def ParticipantSessionBinding.key (binding : ParticipantSessionBinding) :
    String × String × String :=
  (binding.taskId, binding.workspacePath, binding.roleId)

/-- The table `participant_sessions`. -/
structure ParticipantSessionTable where
  rows : List ParticipantSessionBinding
  distinct : Rows.Distinct key rows

namespace ParticipantSessionTable

def findParticipantSession (table : ParticipantSessionTable)
    (taskId workspacePath roleId : String) : Option String :=
  (Rows.lookup key (taskId, workspacePath, roleId) table.rows).map
    (·.sessionId)

def listParticipantSessions (table : ParticipantSessionTable) (taskId workspacePath : String) :
    List ParticipantSessionBinding :=
  (table.rows.filter fun row => row.taskId = taskId ∧ row.workspacePath = workspacePath)
    |>.insertionSort bindingBefore

def listParticipantSessionsForTask (table : ParticipantSessionTable) (taskId : String) :
    List ParticipantSessionBinding :=
  (table.rows.filter fun row => row.taskId = taskId).insertionSort bindingBefore

/-- `PersistentParticipantSessionRegistry` over the table. -/
def registry (table : ParticipantSessionTable) : ParticipantSessionRegistry where
  get := table.findParticipantSession
  list := some table.listParticipantSessions
  listForTask := some table.listParticipantSessionsForTask

end ParticipantSessionTable

/-! ## What a Task's history says -/

def eventParticipant (event : PersistedCoordinationEvent) : Option (String × String) :=
  match readUnblankString event.payload "role_id" <|> readUnblankString event.payload "agent_id",
      readUnblankString event.payload "session_id" with
  | some roleId, some sessionId => some (roleId, sessionId)
  | _, _ => none

def eventSession (roleId : String) (event : PersistedCoordinationEvent) : Option String :=
  (eventParticipant event).bind fun named => if named.1 = roleId then some named.2 else none

/-- The session of a Run for a role: the Run's own, for the role of its Task, or the one that
its last event to name the role names. -/
def runSession (aggregate : PersistedTaskAggregate) (roleId : String) (run : PersistedRunState) :
    Option String :=
  (if truthy aggregate.task.roleId = some roleId then truthy run.sessionId else none)
    <|> (aggregate.events.filter fun event => event.runId = some run.runId).reverse.findSome?
      (eventSession roleId)

def NewestSession (aggregate : PersistedTaskAggregate) (roleId sessionId : String) : Prop :=
  ∃ run ∈ aggregate.runs, runSession aggregate roleId run = some sessionId ∧
    ∀ other ∈ aggregate.runs, runSession aggregate roleId other ≠ none → runBefore run other

/-- The session of the oldest Run that has one of its own. -/
def oldestRunSession (aggregate : PersistedTaskAggregate) (roleId : String) : Option String :=
  if truthy aggregate.task.roleId = some roleId then
    aggregate.runs.reverse.findSome? fun run => truthy run.sessionId
  else none

/-- The session that the last event to name the role names; without such an event, that of the
oldest Run. -/
def lastNamedSession (aggregate : PersistedTaskAggregate) (roleId : String) : Option String :=
  aggregate.events.reverse.findSome? (eventSession roleId) <|> oldestRunSession aggregate roleId

/-! ## Writing down and comparing -/

/-- The session the checkpoint writes down for a role in a workspace; an entry without a
workspace is in the Task's. -/
structure Records (aggregate : PersistedTaskAggregate)
    (sessions : List PersistedCheckpointParticipantSession)
    (roleId workspacePath sessionId : String) : Prop where
  present : ∃ entry ∈ sessions, entry.roleId = roleId ∧
    entry.workspacePath.getD aggregate.task.workspacePath = workspacePath ∧
    entry.sessionId = sessionId
  only : ∀ entry ∈ sessions, entry.roleId = roleId →
    entry.workspacePath.getD aggregate.task.workspacePath = workspacePath →
    entry.sessionId = sessionId

/-- The session a role ever had in a workspace: in the Task's own, that of the newest Run that
has one; else the registered one. -/
def HadSession (aggregate : PersistedTaskAggregate) (table : ParticipantSessionTable)
    (roleId workspacePath sessionId : String) : Prop :=
  (workspacePath = aggregate.task.workspacePath ∧ NewestSession aggregate roleId sessionId) ∨
    ((workspacePath = aggregate.task.workspacePath → ∀ newest, ¬ NewestSession aggregate roleId newest) ∧
      table.findParticipantSession aggregate.task.taskId workspacePath roleId = some sessionId)

def participantMismatch (participant : PersistedCheckpointParticipantSession) : Thrown :=
  .resumePackage ("Participant Session " ++ participant.roleId ++ "/" ++
    participant.sessionId ++ " is not recoverable")

structure SessionsAgree (aggregate : PersistedTaskAggregate) (table : ParticipantSessionTable) :
    Prop where
  /-- No session is registered for a role in two workspaces. -/
  oneWorkspace : ∀ a ∈ table.rows, ∀ b ∈ table.rows, a.taskId = aggregate.task.taskId →
    b.taskId = aggregate.task.taskId → a.roleId = b.roleId → a.sessionId = b.sessionId →
    a.workspacePath = b.workspacePath
  /-- Where a role is registered in the Task's workspace, the session named last is registered
  for it, and the newest Run has the registered one. -/
  registered : ∀ roleId named bound, lastNamedSession aggregate roleId = some named →
    table.findParticipantSession aggregate.task.taskId aggregate.task.workspacePath roleId =
      some bound →
    (∃ workspacePath, table.findParticipantSession aggregate.task.taskId workspacePath roleId =
      some named) ∧ ∀ newest, NewestSession aggregate roleId newest → newest = bound
  /-- Where it is not, the newest Run has the session named last, which is registered nowhere. -/
  unregistered : ∀ roleId named, lastNamedSession aggregate roleId = some named →
    table.findParticipantSession aggregate.task.taskId aggregate.task.workspacePath roleId = none →
    ∀ newest, NewestSession aggregate roleId newest → newest = named ∧ ∀ workspacePath,
      table.findParticipantSession aggregate.task.taskId workspacePath roleId ≠ some named

/-! ## Entries of a map, last one kept -/

section
variable {entries : List (String × String)} {key value : String}

theorem mem_setEntry {k v : String} : (k, v) ∈ setEntry entries key value ↔
    (k = key ∧ v = value) ∨ (k ≠ key ∧ (k, v) ∈ entries) := by
  unfold setEntry
  split
  · next h =>
      obtain ⟨old, hold, hkey⟩ := List.any_eq_true.mp h
      have hkey : old.1 = key := of_decide_eq_true hkey
      rw [List.mem_map]
      constructor
      · rintro ⟨entry, hentry, heq⟩
        split at heq
        · cases heq
          exact .inl ⟨rfl, rfl⟩
        · next hne =>
            subst heq
            exact .inr ⟨hne, hentry⟩
      · rintro (⟨rfl, rfl⟩ | ⟨hne, hentry⟩)
        · exact ⟨old, hold, if_pos hkey⟩
        · exact ⟨(k, v), hentry, if_neg hne⟩
  · next h =>
      have hfresh : ∀ entry ∈ entries, entry.1 ≠ key := by
        intro entry hentry hkey
        exact h (List.any_eq_true.mpr ⟨entry, hentry, decide_eq_true hkey⟩)
      rw [List.mem_append, List.mem_singleton, Prod.mk.injEq]
      constructor
      · rintro (hentry | hnew)
        · exact .inr ⟨hfresh _ hentry, hentry⟩
        · exact .inl hnew
      · rintro (hnew | ⟨_, hentry⟩)
        · exact .inr hnew
        · exact .inl hentry

/-- The value a list of settings leaves for a key: the last one set, or the one before. -/
theorem mem_foldl_setEntry {β : Type} (f : β → Option (String × String)) (xs : List β)
    {k v : String} :
    (k, v) ∈ xs.foldl (fun entries x => (f x).elim entries fun p => setEntry entries p.1 p.2) entries ↔
      xs.reverse.findSome? (fun x => (f x).bind fun p => if p.1 = k then some p.2 else none) = some v ∨
      (xs.reverse.findSome? (fun x => (f x).bind fun p => if p.1 = k then some p.2 else none) = none ∧
        (k, v) ∈ entries) := by
  induction xs using List.reverseRecOn with
  | nil => simp
  | append_singleton xs x ih =>
      rw [List.foldl_append, List.foldl_cons, List.foldl_nil, List.reverse_append,
        List.reverse_singleton, List.singleton_append, List.findSome?_cons]
      cases hf : f x with
      | none => simpa using ih
      | some p =>
          obtain ⟨key, value⟩ := p
          rw [Option.elim_some, mem_setEntry, Option.bind_some]
          by_cases hk : key = k
          · subst hk
            simp [eq_comm]
          · rw [if_neg hk, ih]
            have hk' : k ≠ key := fun h => hk h.symm
            simp [hk']

end

/-! ## What a safepoint collects -/

section
variable {aggregate : PersistedTaskAggregate} {roleId sessionId : String}

def runParticipant (aggregate : PersistedTaskAggregate) (run : PersistedRunState) :
    Option (String × String) :=
  match truthy run.sessionId, truthy aggregate.task.roleId with
  | some sessionId, some roleId => some (roleId, sessionId)
  | _, _ => none

theorem collectParticipantSessions_eq : collectParticipantSessions aggregate =
    (aggregate.events.foldl
      (fun entries event => (eventParticipant event).elim entries fun p => setEntry entries p.1 p.2)
      (aggregate.runs.foldl
        (fun entries run => (runParticipant aggregate run).elim entries fun p =>
          setEntry entries p.1 p.2) [])).map
      fun entry => { roleId := entry.1, sessionId := entry.2 } := by
  simp only [collectParticipantSessions]
  congr 2
  · funext entries event
    unfold eventParticipant
    cases readUnblankString event.payload "role_id" <|> readUnblankString event.payload "agent_id" <;>
      cases readUnblankString event.payload "session_id" <;> rfl
  · congr 1
    funext entries run
    unfold runParticipant
    cases truthy run.sessionId <;> cases truthy aggregate.task.roleId <;> rfl

theorem findSome?_runParticipant :
    aggregate.runs.reverse.findSome? (fun run => (runParticipant aggregate run).bind fun p =>
      if p.1 = roleId then some p.2 else none) = oldestRunSession aggregate roleId := by
  unfold oldestRunSession runParticipant
  cases hrole : truthy aggregate.task.roleId with
  | none =>
      rw [if_neg (by simp), List.findSome?_eq_none_iff]
      intro run _
      cases truthy run.sessionId <;> rfl
  | some role =>
      by_cases h : role = roleId
      · rw [if_pos (congrArg some h)]
        congr 1
        funext run
        cases truthy run.sessionId with
        | none => rfl
        | some sessionId => simp [h]
      · rw [if_neg (by simpa using h), List.findSome?_eq_none_iff]
        intro run _
        cases truthy run.sessionId with
        | none => rfl
        | some sessionId => simp [h]

theorem mem_collectParticipantSessions {entry : PersistedCheckpointParticipantSession} :
    entry ∈ collectParticipantSessions aggregate ↔
      entry.workspacePath = none ∧ lastNamedSession aggregate entry.roleId = some entry.sessionId := by
  have hentries (k v : String) : (k, v) ∈ aggregate.events.foldl
      (fun entries event => (eventParticipant event).elim entries fun p => setEntry entries p.1 p.2)
      (aggregate.runs.foldl
        (fun entries run => (runParticipant aggregate run).elim entries fun p =>
          setEntry entries p.1 p.2) []) ↔ lastNamedSession aggregate k = some v := by
    rw [mem_foldl_setEntry, mem_foldl_setEntry, findSome?_runParticipant, lastNamedSession,
      Option.orElse_eq_orElse, Option.orElse_eq_or, Option.or_eq_some_iff]
    simp only [List.not_mem_nil, and_false, or_false]
    rfl
  rw [collectParticipantSessions_eq, List.mem_map]
  constructor
  · rintro ⟨⟨k, v⟩, hin, rfl⟩
    exact ⟨rfl, (hentries k v).mp hin⟩
  · rintro ⟨hnone, hlast⟩
    refine ⟨(entry.roleId, entry.sessionId), (hentries _ _).mpr hlast, ?_⟩
    cases entry
    cases hnone
    rfl

theorem lastNamedSession_of_newest (h : NewestSession aggregate roleId sessionId) :
    ∃ named, lastNamedSession aggregate roleId = some named := by
  obtain ⟨run, hrun, hsession, _⟩ := h
  rw [← Option.isSome_iff_exists, lastNamedSession, Option.orElse_eq_orElse, Option.orElse_eq_or,
    Option.isSome_or, Bool.or_eq_true]
  rw [runSession, Option.orElse_eq_orElse, Option.orElse_eq_or, Option.or_eq_some_iff] at hsession
  rcases hsession with hown | ⟨_, hevent⟩
  · right
    rw [Option.ite_none_right_eq_some] at hown
    rw [oldestRunSession, if_pos hown.1, List.isSome_findSome?, List.any_eq_true]
    exact ⟨run, List.mem_reverse.mpr hrun, by rw [hown.2]; rfl⟩
  · left
    obtain ⟨event, hevent, hnamed⟩ := List.exists_of_findSome?_eq_some hevent
    rw [List.isSome_findSome?, List.any_eq_true]
    refine ⟨event, ?_, by rw [hnamed]; rfl⟩
    exact List.mem_reverse.mpr (List.mem_filter.mp (List.mem_reverse.mp hevent)).1

end

/-! ## The first of each session -/

section
variable {sessions : List PersistedCheckpointParticipantSession}
  {entry : PersistedCheckpointParticipantSession}

theorem distinctSessions_append_singleton : distinctSessions (sessions ++ [entry]) =
    if (distinctSessions sessions).any
        (fun k => k.roleId = entry.roleId ∧ k.sessionId = entry.sessionId) then
      distinctSessions sessions
    else distinctSessions sessions ++ [entry] := by
  unfold distinctSessions
  rw [List.foldl_append]
  rfl

theorem exists_distinctSessions (sessions : List PersistedCheckpointParticipantSession)
    (roleId sessionId : String) :
    (∃ kept ∈ distinctSessions sessions, kept.roleId = roleId ∧ kept.sessionId = sessionId) ↔
      ∃ old ∈ sessions, old.roleId = roleId ∧ old.sessionId = sessionId := by
  induction sessions using List.reverseRecOn with
  | nil => simp [distinctSessions]
  | append_singleton sessions entry ih =>
      rw [distinctSessions_append_singleton]
      split
      · next hany =>
          obtain ⟨kept, hkept, hsame⟩ := List.any_eq_true.mp hany
          have hsame := of_decide_eq_true hsame
          rw [ih]
          constructor
          · rintro ⟨old, hold, hid⟩
            exact ⟨old, List.mem_append_left _ hold, hid⟩
          · rintro ⟨old, hold, hid⟩
            rcases List.mem_append.mp hold with hold | hlast
            · exact ⟨old, hold, hid⟩
            · obtain rfl := List.mem_singleton.mp hlast
              exact ih.mp ⟨kept, hkept, hsame.1.trans hid.1, hsame.2.trans hid.2⟩
      · simp only [List.mem_append, or_and_right, exists_or, ih]

theorem mem_distinctSessions : entry ∈ distinctSessions sessions ↔
    ∃ pre post, sessions = pre ++ entry :: post ∧
      ∀ old ∈ pre, ¬ (old.roleId = entry.roleId ∧ old.sessionId = entry.sessionId) := by
  induction sessions using List.reverseRecOn with
  | nil => simp [distinctSessions]
  | append_singleton sessions last ih =>
      have hany : (distinctSessions sessions).any
          (fun k => k.roleId = last.roleId ∧ k.sessionId = last.sessionId) = true ↔
          ∃ old ∈ sessions, old.roleId = last.roleId ∧ old.sessionId = last.sessionId := by
        rw [← exists_distinctSessions]
        simp [List.any_eq_true]
      have hkeep (h : entry ∈ distinctSessions sessions) : ∃ pre post,
          sessions ++ [last] = pre ++ entry :: post ∧
            ∀ old ∈ pre, ¬ (old.roleId = entry.roleId ∧ old.sessionId = entry.sessionId) := by
        obtain ⟨pre, post, rfl, hpre⟩ := ih.mp h
        exact ⟨pre, post ++ [last], by simp, hpre⟩
      rw [distinctSessions_append_singleton]
      constructor
      · intro h
        split at h
        · exact hkeep h
        · next hno =>
            rcases List.mem_append.mp h with h | h
            · exact hkeep h
            · obtain rfl := List.mem_singleton.mp h
              exact ⟨sessions, [], rfl, fun old hold hsame => hno (hany.mpr ⟨old, hold, hsame⟩)⟩
      · rintro ⟨pre, post, hsplit, hpre⟩
        rcases List.eq_nil_or_concat post with rfl | ⟨init, tail, rfl⟩
        · obtain ⟨rfl, hlast⟩ := List.append_inj' hsplit rfl
          cases hlast
          rw [if_neg fun h => by
            obtain ⟨old, hold, hsame⟩ := hany.mp h
            exact hpre old hold hsame]
          exact List.mem_append_right _ (List.mem_singleton_self _)
        · rw [List.concat_eq_append, ← List.cons_append, ← List.append_assoc] at hsplit
          obtain ⟨hinit, _⟩ := List.append_inj' hsplit rfl
          have hin := ih.mpr ⟨pre, init, hinit, hpre⟩
          split
          · exact hin
          · exact List.mem_append_left _ hin

theorem eq_of_mem_distinctSessions {other : PersistedCheckpointParticipantSession}
    (h : entry ∈ distinctSessions sessions) (h' : other ∈ distinctSessions sessions)
    (hrole : entry.roleId = other.roleId) (hsession : entry.sessionId = other.sessionId) :
    entry = other := by
  obtain ⟨pre, post, hsplit, hpre⟩ := mem_distinctSessions.mp h
  obtain ⟨pre', post', hsplit', hpre'⟩ := mem_distinctSessions.mp h'
  rcases List.append_eq_append_iff.mp (hsplit.symm.trans hsplit') with
    ⟨between, rfl, hrest⟩ | ⟨between, rfl, hrest⟩
  · cases between with
    | nil => exact (List.cons.inj hrest).1
    | cons head tail =>
        rw [← (List.cons.inj hrest).1] at hpre'
        exact absurd ⟨hrole, hsession⟩ (hpre' entry (by simp))
  · cases between with
    | nil => exact (List.cons.inj hrest).1.symm
    | cons head tail =>
        rw [← (List.cons.inj hrest).1] at hpre
        exact absurd ⟨hrole.symm, hsession.symm⟩ (hpre other (by simp))

end

/-! ## What a safepoint writes down -/

def ParticipantSessionBinding.entry (binding : ParticipantSessionBinding) :
    PersistedCheckpointParticipantSession where
  roleId := binding.roleId
  sessionId := binding.sessionId
  workspacePath := some binding.workspacePath

def writtenSessions (aggregate : PersistedTaskAggregate) (table : ParticipantSessionTable) :
    List PersistedCheckpointParticipantSession :=
  distinctSessions ((table.listParticipantSessionsForTask aggregate.task.taskId).map
    ParticipantSessionBinding.entry ++ collectParticipantSessions aggregate)

section
variable {aggregate : PersistedTaskAggregate} {table : ParticipantSessionTable}
  {taskId roleId sessionId workspacePath : String}
  {entry : PersistedCheckpointParticipantSession} {binding : ParticipantSessionBinding}

theorem findParticipantSession_eq_some :
    table.findParticipantSession taskId workspacePath roleId = some sessionId ↔
      ∃ binding ∈ table.rows, binding.taskId = taskId ∧ binding.workspacePath = workspacePath ∧
        binding.roleId = roleId ∧ binding.sessionId = sessionId := by
  unfold ParticipantSessionTable.findParticipantSession
  rw [Option.map_eq_some_iff]
  constructor
  · rintro ⟨binding, hfound, rfl⟩
    have hkey := Rows.lookup_key hfound
    simp only [key, Prod.mk.injEq] at hkey
    exact ⟨binding, Rows.lookup_mem hfound, hkey.1, hkey.2.1, hkey.2.2, rfl⟩
  · rintro ⟨binding, hin, rfl, rfl, rfl, rfl⟩
    exact ⟨binding, table.distinct.lookup_of_mem hin, rfl⟩

theorem mem_listParticipantSessionsForTask :
    binding ∈ table.listParticipantSessionsForTask taskId ↔
      binding ∈ table.rows ∧ binding.taskId = taskId := by
  simp [ParticipantSessionTable.listParticipantSessionsForTask, List.mem_insertionSort]

theorem buildSafepointCheckpoint_participantSessions {input : BuildSafepointCheckpointInput}
    (h : input.participantSessions = some table.registry) :
    (buildSafepointCheckpoint input).participantSessions =
      writtenSessions input.aggregate table := by
  simp only [buildSafepointCheckpoint, safepointParticipantSessions, h]
  rfl

theorem registered_of_mem (h : entry ∈ writtenSessions aggregate table)
    (hworkspace : entry.workspacePath = some workspacePath) :
    table.findParticipantSession aggregate.task.taskId workspacePath entry.roleId =
      some entry.sessionId := by
  obtain ⟨pre, post, hsplit, _⟩ := mem_distinctSessions.mp h
  have hin : entry ∈ (table.listParticipantSessionsForTask aggregate.task.taskId).map
      ParticipantSessionBinding.entry ++ collectParticipantSessions aggregate := by
    rw [hsplit]
    simp
  rcases List.mem_append.mp hin with hin | hin
  · obtain ⟨binding, hbinding, rfl⟩ := List.mem_map.mp hin
    obtain ⟨hrow, htask⟩ := mem_listParticipantSessionsForTask.mp hbinding
    exact findParticipantSession_eq_some.mpr
      ⟨binding, hrow, htask, Option.some.inj hworkspace, rfl, rfl⟩
  · have hnone := (mem_collectParticipantSessions.mp hin).1
    cases hnone.symm.trans hworkspace

theorem mem_writtenSessions_none :
    ({ roleId, sessionId } : PersistedCheckpointParticipantSession) ∈
        writtenSessions aggregate table ↔
      lastNamedSession aggregate roleId = some sessionId ∧ ∀ workspacePath,
        table.findParticipantSession aggregate.task.taskId workspacePath roleId ≠
          some sessionId := by
  have hregistered : ({ roleId, sessionId } : PersistedCheckpointParticipantSession) ∉
      (table.listParticipantSessionsForTask aggregate.task.taskId).map
        ParticipantSessionBinding.entry := by
    intro hin
    obtain ⟨binding, _, hentry⟩ := List.mem_map.mp hin
    cases congrArg PersistedCheckpointParticipantSession.workspacePath hentry
  constructor
  · intro h
    obtain ⟨pre, post, hsplit, hpre⟩ := mem_distinctSessions.mp h
    have hbehind : (∀ old ∈ (table.listParticipantSessionsForTask aggregate.task.taskId).map
          ParticipantSessionBinding.entry, old ∈ pre) ∧
        ({ roleId, sessionId } : PersistedCheckpointParticipantSession) ∈
          collectParticipantSessions aggregate := by
      rcases List.append_eq_append_iff.mp hsplit with ⟨between, rfl, hrest⟩ | ⟨between, hall, hrest⟩
      · refine ⟨fun old hold => List.mem_append_left _ hold, ?_⟩
        rw [hrest]
        simp
      · cases between with
        | nil =>
            rw [List.append_nil] at hall
            rw [List.nil_append] at hrest
            refine ⟨fun old hold => hall ▸ hold, ?_⟩
            rw [← hrest]
            simp
        | cons head tail =>
            rw [← (List.cons.inj hrest).1] at hall
            rw [hall] at hregistered
            simp at hregistered
    refine ⟨(mem_collectParticipantSessions.mp hbehind.2).2, fun workspacePath hfound => ?_⟩
    obtain ⟨binding, hrow, htask, _, hrole, hsession⟩ := findParticipantSession_eq_some.mp hfound
    refine hpre binding.entry (hbehind.1 _ (List.mem_map_of_mem ?_)) ⟨hrole, hsession⟩
    exact mem_listParticipantSessionsForTask.mpr ⟨hrow, htask⟩
  · rintro ⟨hlast, hnowhere⟩
    have hin : ({ roleId, sessionId } : PersistedCheckpointParticipantSession) ∈
        collectParticipantSessions aggregate := mem_collectParticipantSessions.mpr ⟨rfl, hlast⟩
    obtain ⟨pre, post, hsplit, hfirst⟩ := List.eq_append_cons_of_mem hin
    refine mem_distinctSessions.mpr ⟨_ ++ pre, post, by rw [hsplit, List.append_assoc], ?_⟩
    intro old hold hsame
    rcases List.mem_append.mp hold with hold | hold
    · obtain ⟨binding, hbinding, rfl⟩ := List.mem_map.mp hold
      obtain ⟨hrow, htask⟩ := mem_listParticipantSessionsForTask.mp hbinding
      exact hnowhere binding.workspacePath (findParticipantSession_eq_some.mpr
        ⟨binding, hrow, htask, rfl, hsame.1, hsame.2⟩)
    · have hnone := (mem_collectParticipantSessions.mp
        (hsplit ▸ List.mem_append_left _ hold : old ∈ collectParticipantSessions aggregate)).1
      cases old
      cases hnone
      cases hsame.1
      cases hsame.2
      exact hfirst hold

/-- A registered session is written down, unless the same one is registered in two workspaces. -/
theorem entry_mem_writtenSessions
    (hone : ∀ a ∈ table.rows, ∀ b ∈ table.rows, a.taskId = aggregate.task.taskId →
      b.taskId = aggregate.task.taskId → a.roleId = b.roleId → a.sessionId = b.sessionId →
      a.workspacePath = b.workspacePath)
    (hrow : binding ∈ table.rows) (htask : binding.taskId = aggregate.task.taskId) :
    binding.entry ∈ writtenSessions aggregate table := by
  have hin : binding.entry ∈ (table.listParticipantSessionsForTask aggregate.task.taskId).map
      ParticipantSessionBinding.entry :=
    List.mem_map_of_mem (mem_listParticipantSessionsForTask.mpr ⟨hrow, htask⟩)
  obtain ⟨pre, post, hsplit, hfirst⟩ := List.eq_append_cons_of_mem hin
  refine mem_distinctSessions.mpr ⟨pre, post ++ collectParticipantSessions aggregate, ?_, ?_⟩
  · rw [hsplit, List.append_assoc, List.cons_append]
  · intro old hold hsame
    have hold' : old ∈ (table.listParticipantSessionsForTask aggregate.task.taskId).map
        ParticipantSessionBinding.entry := by
      rw [hsplit]
      exact List.mem_append_left _ hold
    obtain ⟨other, hother, rfl⟩ := List.mem_map.mp hold'
    obtain ⟨hotherRow, hotherTask⟩ := mem_listParticipantSessionsForTask.mp hother
    have hworkspace := hone other hotherRow binding hrow hotherTask htask hsame.1 hsame.2
    have hentry : other.entry = binding.entry := by
      simp only [ParticipantSessionBinding.entry, PersistedCheckpointParticipantSession.mk.injEq]
      exact ⟨hsame.1, hsame.2, congrArg some hworkspace⟩
    exact hfirst (hentry ▸ hold)

/-! ## The check of a resume -/

theorem checkParticipant_registered
    (h : table.findParticipantSession aggregate.task.taskId workspacePath entry.roleId =
      some entry.sessionId) (hworkspace : entry.workspacePath = some workspacePath) :
    checkParticipant aggregate (some table.registry) entry = .ok ⟨⟩ := by
  unfold checkParticipant
  simp only [hworkspace, Option.getD_some, ensure_eq_ok, Option.bind_some]
  intro bound hbound
  exact Option.some.inj (Eq.trans (show some bound = _ from hbound.symm) h)

/-- A session that is registered nowhere passes when its role is not registered in the Task's
workspace. -/
theorem checkParticipant_collected
    (hnowhere : ∀ workspacePath, table.findParticipantSession aggregate.task.taskId workspacePath
      roleId ≠ some sessionId) :
    checkParticipant aggregate (some table.registry) { roleId, sessionId } =
      ensure (table.findParticipantSession aggregate.task.taskId aggregate.task.workspacePath roleId =
        none) (participantMismatch { roleId, sessionId }) := by
  have hlegacy : (table.listParticipantSessionsForTask aggregate.task.taskId).filter
      (fun binding => binding.roleId = roleId ∧ binding.sessionId = sessionId) = [] := by
    refine List.filter_eq_nil_iff.mpr fun binding hbinding hsame => ?_
    obtain ⟨hrow, htask⟩ := mem_listParticipantSessionsForTask.mp hbinding
    have hsame := of_decide_eq_true hsame
    exact hnowhere binding.workspacePath (findParticipantSession_eq_some.mpr
      ⟨binding, hrow, htask, rfl, hsame.1, hsame.2⟩)
  have hchecked : checkParticipant aggregate (some table.registry) { roleId, sessionId } =
      ensure (∀ bound ∈ table.findParticipantSession aggregate.task.taskId
        aggregate.task.workspacePath roleId, bound = sessionId)
        (participantMismatch { roleId, sessionId }) := by
    simp only [checkParticipant, truthy, Option.filter_none, Option.isSome_none,
      Bool.false_eq_true, if_false, Option.getD_none, Option.bind_some,
      ParticipantSessionTable.registry, Option.map_some, hlegacy]
    rfl
  rw [hchecked]
  cases hbound : table.findParticipantSession aggregate.task.taskId aggregate.task.workspacePath
      roleId with
  | none => simp [ensure]
  | some bound =>
      have hne : bound ≠ sessionId := by
        rintro rfl
        exact hnowhere _ hbound
      simp [ensure, hne]

end

/-! ## Written down and recovered -/

/-- No resume of the Task from the checkpoint, with the registry as it is, finds a participant
whose session is not the registered one. -/
def ResumesMatch (aggregate : PersistedTaskAggregate) (table : ParticipantSessionTable)
    (checkpoint : PersistedFullCheckpoint) : Prop :=
  ∀ (later : PersistedTaskAggregate) (mailboxStore : Option MailboxView)
    (participant : PersistedCheckpointParticipantSession),
    later.task.taskId = aggregate.task.taskId →
    later.task.workspacePath = aggregate.task.workspacePath →
    buildResumePackageFrom later checkpoint mailboxStore (some table.registry) ≠
      .error (participantMismatch participant)

section
variable {aggregate later : PersistedTaskAggregate} {table : ParticipantSessionTable}
  {checkpoint : PersistedFullCheckpoint} {mailboxStore : Option MailboxView}
  {registry : Option ParticipantSessionRegistry}
  {participant entry : PersistedCheckpointParticipantSession}

theorem head_append {a x : String} {c : Char} (h : a.toList.head? = some c) :
    (a ++ x).toList.head? = some c := by
  rw [String.toList_append, List.head?_append, h]
  rfl

theorem participantMismatch_head :
    (participantMismatch participant).message.toList.head? = some 'P' :=
  head_append (head_append (head_append (head_append (by decide))))

theorem mismatch_of_resume (h : buildResumePackageFrom later checkpoint mailboxStore registry =
    .error (participantMismatch participant)) :
    ∃ entry ∈ checkpoint.participantSessions,
      checkParticipant later registry entry = .error (participantMismatch participant) := by
  -- the other errors of a resume begin with another letter
  have hother {e : Thrown} (he : e = participantMismatch participant)
      (hhead : e.message.toList.head? = some 'C') : False := by
    rw [he, participantMismatch_head] at hhead
    exact absurd hhead (by decide)
  rcases bind_eq_error.mp h with hthrown | ⟨_, _, h⟩
  · exact (hother (ensure_eq_error.mp hthrown).2
      (head_append (head_append (head_append (by decide))))).elim
  rcases bind_eq_error.mp h with hthrown | ⟨_, _, h⟩
  · exact (hother (orThrow_eq_error.mp hthrown).2
      (head_append (head_append (head_append (by decide))))).elim
  rcases bind_eq_error.mp h with hthrown | ⟨_, _, h⟩
  · exact (hother (orThrow_eq_error.mp hthrown).2 (head_append (head_append (by decide)))).elim
  rcases bind_eq_error.mp h with hthrown | ⟨_, _, h⟩
  · exact forM_eq_error hthrown
  · cases h

theorem resume_of_mismatch (htask : checkpoint.taskId = later.task.taskId)
    {run : PersistedRunState} (hrun : later.run? checkpoint.runId = some run)
    {input : TaskCursorInput} (hinput : resolveResumeCursorInput later checkpoint = .ok input)
    (hentry : entry ∈ checkpoint.participantSessions)
    (h : checkParticipant later registry entry ≠ .ok ⟨⟩) :
    ∃ participant, buildResumePackageFrom later checkpoint mailboxStore registry =
      .error (participantMismatch participant) := by
  cases hforM : checkpoint.participantSessions.forM (checkParticipant later registry) with
  | ok u => exact absurd (forM_eq_ok.mp hforM entry hentry) h
  | error e =>
      obtain ⟨participant, _, hthrown⟩ := forM_eq_error hforM
      obtain ⟨_, rfl⟩ := ensure_eq_error.mp hthrown
      refine ⟨participant, ?_⟩
      refine bind_eq_error.mpr (.inr ⟨⟨⟩, ensure_eq_ok.mpr htask, ?_⟩)
      refine bind_eq_error.mpr (.inr ⟨run, orThrow_eq_ok.mpr hrun, ?_⟩)
      refine bind_eq_error.mpr (.inr ⟨input, hinput, ?_⟩)
      exact bind_eq_error.mpr (.inl hforM)

theorem exists_usable (cursor : TaskResumeCursor) :
    ∃ input : TaskCursorInput, usableCandidate cursor input = some input := by
  have husable (input : TaskCursorInput) (hwf : input.WellFormed) (hids : input.deliveryIds? ≠ some []) :
      usableCandidate input.cursor input = some input :=
    usableCandidate_eq_some.mpr ⟨hwf, rfl, hids, rfl⟩
  cases cursor with
  | selectAgent => exact ⟨_, husable (.selectAgent "seed" [] none) (by decide) (by decide)⟩
  | executeAgent => exact ⟨_, husable (.executeAgent "agent" none none) (by decide) (by decide)⟩
  | council => exact ⟨_, husable (.council .persistentOverride none none) (by decide) (by decide)⟩
  | gate => exact ⟨_, husable (.gate "c" "post_primary" "c" zeroSha256) (by decide) (by decide)⟩
  | deliver => exact ⟨_, husable (.deliver "c" zeroSha256) (by decide) (by decide)⟩
  | mailboxWait => exact ⟨_, husable (.mailboxWait ["delivery"] "waiting") (by decide) (by decide)⟩
  | done => exact ⟨_, husable .done (by decide) (by decide)⟩

theorem checkParticipant_congr (htask : later.task.taskId = aggregate.task.taskId)
    (hworkspace : later.task.workspacePath = aggregate.task.workspacePath) :
    checkParticipant later registry entry = checkParticipant aggregate registry entry := by
  simp only [checkParticipant, htask, hworkspace]

theorem resumesMatch_iff (input : BuildSafepointCheckpointInput) :
    ResumesMatch input.aggregate table (buildSafepointCheckpoint input) ↔
      ∀ entry ∈ (buildSafepointCheckpoint input).participantSessions,
        checkParticipant input.aggregate (some table.registry) entry = .ok ⟨⟩ := by
  constructor
  · intro hmatch entry hentry
    by_contra hfails
    obtain ⟨stored, hstored⟩ := exists_usable (buildSafepointCheckpoint input).resumeCursor
    let later : PersistedTaskAggregate :=
      { input.aggregate with
        runs := input.run :: input.aggregate.runs
        runtimeState := { input.aggregate.runtimeState with cursorInput := some stored } }
    have hrun : later.run? (buildSafepointCheckpoint input).runId = some input.run :=
      List.find?_cons_of_pos (decide_eq_true rfl)
    obtain ⟨resolved, hresolved⟩ : ∃ resolved,
        resolveResumeCursorInput later (buildSafepointCheckpoint input) = .ok resolved := by
      simp only [resolveResumeCursorInput, orThrow_eq_ok]
      rw [← Option.isSome_iff_exists, List.isSome_findSome?, List.any_eq_true]
      exact ⟨some stored, by simp [later], by simp [hstored]⟩
    have hsame : checkParticipant later (some table.registry) entry =
        checkParticipant input.aggregate (some table.registry) entry := checkParticipant_congr rfl rfl
    obtain ⟨participant, hthrown⟩ : ∃ participant, buildResumePackageFrom later
        (buildSafepointCheckpoint input) none (some table.registry) =
          .error (participantMismatch participant) :=
      resume_of_mismatch rfl hrun hresolved hentry (by rwa [hsame])
    exact hmatch later none participant rfl rfl hthrown
  · intro hpass later mailboxStore participant htask hworkspace hthrown
    obtain ⟨entry, hentry, hmismatch⟩ := mismatch_of_resume hthrown
    rw [checkParticipant_congr htask hworkspace, hpass entry hentry] at hmismatch
    cases hmismatch

/-! ## When the two sides agree -/

/-- With the registry in the Task's workspace, or without: what the checkpoint has for a role. -/
theorem SessionsAgree.records (h : SessionsAgree aggregate table) {roleId workspacePath sessionId : String}
    (hhad : HadSession aggregate table roleId workspacePath sessionId) :
    Records aggregate (writtenSessions aggregate table) roleId workspacePath sessionId := by
  -- an entry without a workspace is one that no registration covers
  have hcollected {entry : PersistedCheckpointParticipantSession}
      (hentry : entry ∈ writtenSessions aggregate table) (hnone : entry.workspacePath = none) :
      lastNamedSession aggregate entry.roleId = some entry.sessionId ∧ ∀ workspacePath,
        table.findParticipantSession aggregate.task.taskId workspacePath entry.roleId ≠
          some entry.sessionId := by
    obtain ⟨roleId, sessionId, workspace⟩ := entry
    cases hnone
    exact mem_writtenSessions_none.mp hentry
  cases hbound : table.findParticipantSession aggregate.task.taskId workspacePath roleId with
  | some bound =>
      have hsession : sessionId = bound := by
        rcases hhad with ⟨rfl, hnewest⟩ | ⟨_, hfound⟩
        · obtain ⟨named, hnamed⟩ := lastNamedSession_of_newest hnewest
          exact (h.registered roleId named bound hnamed hbound).2 sessionId hnewest
        · exact Option.some.inj (hfound.symm.trans hbound)
      subst hsession
      obtain ⟨binding, hrow, htask, rfl, rfl, rfl⟩ := findParticipantSession_eq_some.mp hbound
      refine ⟨⟨binding.entry, entry_mem_writtenSessions h.oneWorkspace hrow htask, rfl, rfl, rfl⟩, ?_⟩
      intro entry hentry hrole hworkspace
      cases hnone : entry.workspacePath with
      | some workspacePath =>
          have hregistered := registered_of_mem hentry hnone
          rw [hnone, Option.getD_some] at hworkspace
          rw [hrole, hworkspace] at hregistered
          exact Option.some.inj (hregistered.symm.trans hbound)
      | none =>
          rw [hnone, Option.getD_none] at hworkspace
          obtain ⟨hnamed, hnowhere⟩ := hcollected hentry hnone
          rw [← hworkspace] at hbound
          rw [hrole] at hnamed hnowhere
          obtain ⟨⟨workspacePath, hfound⟩, _⟩ := h.registered _ _ _ hnamed hbound
          exact absurd hfound (hnowhere workspacePath)
  | none =>
      rcases hhad with ⟨rfl, hnewest⟩ | ⟨_, hfound⟩
      · obtain ⟨named, hnamed⟩ := lastNamedSession_of_newest hnewest
        obtain ⟨rfl, hnowhere⟩ := h.unregistered roleId named hnamed hbound sessionId hnewest
        refine ⟨⟨_, mem_writtenSessions_none.mpr ⟨hnamed, hnowhere⟩, rfl, rfl, rfl⟩, ?_⟩
        intro entry hentry hrole hworkspace
        cases hnone : entry.workspacePath with
        | some workspacePath =>
            have hregistered := registered_of_mem hentry hnone
            rw [hnone, Option.getD_some] at hworkspace
            rw [hrole, hworkspace, hbound] at hregistered
            cases hregistered
        | none =>
            have hlast := (hcollected hentry hnone).1
            rw [hrole] at hlast
            exact Option.some.inj (hlast.symm.trans hnamed)
      · cases hbound.symm.trans hfound

theorem SessionsAgree.passes (h : SessionsAgree aggregate table)
    (hentry : entry ∈ writtenSessions aggregate table) :
    checkParticipant aggregate (some table.registry) entry = .ok ⟨⟩ := by
  obtain ⟨roleId, sessionId, workspace⟩ := entry
  cases workspace with
  | some workspacePath => exact checkParticipant_registered (registered_of_mem hentry rfl) rfl
  | none =>
      obtain ⟨hnamed, hnowhere⟩ := mem_writtenSessions_none.mp hentry
      rw [checkParticipant_collected hnowhere, ensure_eq_ok]
      cases hbound : table.findParticipantSession aggregate.task.taskId
          aggregate.task.workspacePath roleId with
      | none => rfl
      | some bound =>
          obtain ⟨⟨workspacePath, hfound⟩, _⟩ := h.registered roleId sessionId bound hnamed hbound
          exact absurd hfound (hnowhere workspacePath)

theorem entry_mem_of_records
    (hrecords : ∀ roleId workspacePath sessionId,
      HadSession aggregate table roleId workspacePath sessionId →
      Records aggregate (writtenSessions aggregate table) roleId workspacePath sessionId)
    (hpasses : ∀ entry ∈ writtenSessions aggregate table,
      checkParticipant aggregate (some table.registry) entry = .ok ⟨⟩)
    {binding : ParticipantSessionBinding} (hrow : binding ∈ table.rows)
    (htask : binding.taskId = aggregate.task.taskId) :
    binding.entry ∈ writtenSessions aggregate table := by
  have hbound : table.findParticipantSession aggregate.task.taskId binding.workspacePath
      binding.roleId = some binding.sessionId :=
    findParticipantSession_eq_some.mpr ⟨binding, hrow, htask, rfl, rfl, rfl⟩
  obtain ⟨sessionId, hhad⟩ : ∃ sessionId,
      HadSession aggregate table binding.roleId binding.workspacePath sessionId := by
    by_cases hnewest : binding.workspacePath = aggregate.task.workspacePath ∧
        ∃ newest, NewestSession aggregate binding.roleId newest
    · obtain ⟨hworkspace, newest, hnewest⟩ := hnewest
      exact ⟨newest, .inl ⟨hworkspace, hnewest⟩⟩
    · refine ⟨binding.sessionId, .inr ⟨fun hworkspace newest hsession => ?_, hbound⟩⟩
      exact hnewest ⟨hworkspace, newest, hsession⟩
  obtain ⟨⟨entry, hentry, hrole, hworkspace, _⟩, _⟩ := hrecords _ _ _ hhad
  obtain ⟨roleId, sessionId, workspace⟩ := entry
  cases hrole
  cases workspace with
  | some workspacePath =>
      cases hworkspace
      have hregistered := registered_of_mem hentry rfl
      cases hbound.symm.trans hregistered
      exact hentry
  | none =>
      have hworkspace : aggregate.task.workspacePath = binding.workspacePath := hworkspace
      obtain ⟨_, hnowhere⟩ := mem_writtenSessions_none.mp hentry
      have hpass := hpasses _ hentry
      rw [checkParticipant_collected hnowhere, ensure_eq_ok, hworkspace, hbound] at hpass
      cases hpass

theorem SessionsAgree.of_records
    (hrecords : ∀ roleId workspacePath sessionId,
      HadSession aggregate table roleId workspacePath sessionId →
      Records aggregate (writtenSessions aggregate table) roleId workspacePath sessionId)
    (hpasses : ∀ entry ∈ writtenSessions aggregate table,
      checkParticipant aggregate (some table.registry) entry = .ok ⟨⟩) :
    SessionsAgree aggregate table where
  oneWorkspace a ha b hb hta htb hrole hsession := by
    have hkeptA := entry_mem_of_records hrecords hpasses ha hta
    have hkeptB := entry_mem_of_records hrecords hpasses hb htb
    have hentry := eq_of_mem_distinctSessions hkeptA hkeptB hrole hsession
    exact Option.some.inj (congrArg PersistedCheckpointParticipantSession.workspacePath hentry)
  registered roleId named bound hnamed hbound := by
    constructor
    · by_contra hno
      have hnowhere : ∀ workspacePath, table.findParticipantSession aggregate.task.taskId
          workspacePath roleId ≠ some named := fun workspacePath hfound =>
        hno ⟨workspacePath, hfound⟩
      have hpass := hpasses _ (mem_writtenSessions_none.mpr ⟨hnamed, hnowhere⟩)
      rw [checkParticipant_collected hnowhere, ensure_eq_ok, hbound] at hpass
      cases hpass
    · intro newest hnewest
      obtain ⟨binding, hrow, htask, hworkspace, rfl, rfl⟩ := findParticipantSession_eq_some.mp hbound
      have hkept := entry_mem_of_records hrecords hpasses hrow htask
      have honly := (hrecords _ _ _ (.inl ⟨rfl, hnewest⟩)).only
      exact (honly _ hkept rfl hworkspace).symm
  unregistered roleId named hnamed hbound newest hnewest := by
    obtain ⟨⟨entry, hentry, hrole, hworkspace, hsession⟩, _⟩ := hrecords _ _ _ (.inl ⟨rfl, hnewest⟩)
    obtain ⟨role, sessionId, workspace⟩ := entry
    cases hrole
    cases hsession
    cases workspace with
    | some workspacePath =>
        cases hworkspace
        cases hbound.symm.trans (registered_of_mem hentry rfl)
    | none =>
        obtain ⟨hlast, hnowhere⟩ := mem_writtenSessions_none.mp hentry
        obtain rfl := Option.some.inj (hlast.symm.trans hnamed)
        exact ⟨rfl, hnowhere⟩

end

def twiceRun (runId sessionId : String) (createdAt : Timestamp) : PersistedRunState where
  runId
  taskId := "task"
  status := .failed
  mode := .singleAgent
  workspacePath := "/workspace"
  sessionId := some sessionId
  revision := 1
  createdAt
  updatedAt := createdAt

def twiceRunTask : PersistedTaskAggregate where
  task :=
    { taskId := "task"
      status := .running
      roleId := some "builder"
      riskLevel := .low
      spec := "build"
      completionCriteria := []
      affectedPaths := []
      workspacePath := "/workspace"
      warnings := []
      revision := 1
      createdAt := "2026-01-01"
      updatedAt := "2026-01-02" }
  runs := [twiceRun "run_2" "session_2" "2026-01-02", twiceRun "run_1" "session_1" "2026-01-01"]
  runtimeState :=
    { taskId := "task"
      resumeCursor := .done
      diagnostics := { mode := .singleAgent, runIntent := .create }
      updatedAt := "2026-01-02" }
  events := []

def twiceRunSessions : ParticipantSessionTable where
  rows := [{ taskId := "task", workspacePath := "/workspace", roleId := "builder",
             sessionId := "session_2" }]
  distinct := List.nodup_singleton _

def twiceRunCheckpoint : PersistedFullCheckpoint :=
  buildSafepointCheckpoint
    { aggregate := twiceRunTask
      run := twiceRun "run_2" "session_2" "2026-01-02"
      trigger := .shutdown
      now := "2026-01-03"
      checkpointId := "checkpoint"
      captureFileAnchor := fun worktreePath _ =>
        { baseCommit := "base", worktreePath, branch := "main", modifiedFiles := [],
          recoverable := false }
      participantSessions := some twiceRunSessions.registry }

end Newide
