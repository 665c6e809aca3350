import Newide.Foundation.Runs

/-!
# The lock of an agent directory

The lock of `src/driver/agent-dir-lock.ts`: a directory that `mkdir`
makes, with a file in it that names the owner.  Each call of the file
system is one step, and any number of processes take turns.  A process
that finds the lock taken looks at it, and moves it away when its owner
has died or it is too old; what it moves is whatever then lies there.
-/

namespace Newide.Driver

open Runs

/-! ## The directory and its clients -/

/-- What `readLockOwner` reads. -/
structure LockOwner where
  token : Nat
  pid : Nat
deriving DecidableEq

structure LockDir where
  /-- The client whose `mkdir` made it. -/
  madeBy : Nat
  owner : Option LockOwner
  mtimeMs : Nat

inductive LockPhase where
  /-- `mkdirSync(lockPath)` -/
  | creating
  /-- `statSync(lockPath)`, of a lock that is taken -/
  | inspecting
  /-- `readLockOwner()` of the lock that `seen` made, as far as the client knows -/
  | reading (seen mtimeMs : Nat)
  /-- `isProcessAlive` and `Date.now()` -/
  | judging (seen mtimeMs : Nat) (owner : Option LockOwner)
  /-- `renameSync(lockPath, stolen)` -/
  | moving (seen : Nat)
  /-- `removePathQuietly(stolen)` -/
  | clearing
  /-- the check of the deadline -/
  | waiting
  /-- `writeFileSync(owner.json)` -/
  | recording
  /-- `removePathQuietly(lockPath)` after the owner could not be written -/
  | abandoning
  /-- `acquire` has returned -/
  | holding
  /-- `readLockOwner()` of a release -/
  | releasing
  /-- `removePathQuietly(lockPath)` of a release -/
  | removing
  /-- released, or `acquire` has thrown -/
  | done
deriving DecidableEq

/-- The `mkdir` of the client has succeeded, and it has not given the lock back. -/
def LockPhase.Held : LockPhase → Prop
  | .recording | .abandoning | .holding | .releasing | .removing => True
  | _ => False

/-- The client will not make the directory any more. -/
def LockPhase.Spent : LockPhase → Prop
  | .recording | .abandoning | .holding | .releasing | .removing | .done => True
  | _ => False

instance (phase : LockPhase) : Decidable phase.Held := by
  cases phase <;> unfold LockPhase.Held <;> infer_instance

variable {phase : LockPhase} {dir : LockDir} {label : LockLabel} {mtimeMs : Nat}

theorem LockPhase.Held.spent (h : phase.Held) : phase.Spent := by
  cases phase <;> trivial

/-- One call of `acquire` and of the `release` it returns; its index is its token. -/
structure LockClient where
  pid : Nat
  deadline : Nat
  phase : LockPhase := .creating
  /-- When its `mkdir` succeeded. -/
  since : Nat := 0

structure LockState where
  dir : Option LockDir := none
  clients : List LockClient := []
  /-- The processes that crashed. -/
  dead : List Nat := []
  now : Nat := 0

open LockState

inductive LockLabel where
  /-- `acquire` in a process that runs -/
  | acquire (pid timeoutMs : Nat)
  /-- the next call of a client, which may fail for a reason of its own -/
  | call (client : Nat) (fails : Bool)
  | release (client : Nat)
  | crash (pid : Nat)
  | elapse (ms : Nat)

namespace LockState

def Holds (s : LockState) (c : Nat) : Prop :=
  ∃ client, s.clients[c]? = some client ∧ client.pid ∉ s.dead ∧ client.phase.Held

/-- Every live client gives the lock back within `staleMs`, were it `now`. -/
def Prompt (staleMs now : Nat) (s : LockState) : Prop :=
  ∀ client ∈ s.clients, client.pid ∉ s.dead → client.phase.Held → now ≤ client.since + staleMs

instance (staleMs now : Nat) (s : LockState) : Decidable (s.Prompt staleMs now) :=
  inferInstanceAs (Decidable (∀ client ∈ s.clients, _))

def afterCall (staleMs : Nat) (s : LockState) (c : Nat) (client : LockClient) (fails : Bool) :
    Option LockDir × LockClient :=
  let go (dir : Option LockDir) (phase : LockPhase) := (dir, { client with phase })
  match client.phase with
  | .creating =>
      if fails then go s.dir .done
      else
        match s.dir with
        | some _ => go s.dir .inspecting
        | none => (some { madeBy := c, owner := none, mtimeMs := s.now },
            { client with phase := .recording, since := s.now })
  | .inspecting =>
      match s.dir with
      | some dir => go s.dir (if fails then .creating else .reading dir.madeBy dir.mtimeMs)
      | none => go s.dir .creating
  | .reading seen mtimeMs =>
      go s.dir (.judging seen mtimeMs (if fails then none else s.dir.bind (·.owner)))
  | .judging seen mtimeMs owner =>
      if owner.any (·.pid ∈ s.dead) ∨ staleMs < s.now - mtimeMs then go s.dir (.moving seen)
      else go s.dir .waiting
  | .moving _ =>
      if s.dir.isSome ∧ ¬ fails then go none .clearing else go s.dir .waiting
  | .clearing => go s.dir .creating
  | .waiting => if client.deadline ≤ s.now then go s.dir .done else go s.dir .creating
  | .recording =>
      match s.dir with
      | some dir =>
          if dir.owner = none ∧ ¬ fails then
            let owner := { token := c, pid := client.pid }
            go (some { dir with owner := some owner, mtimeMs := s.now }) .holding
          else go s.dir .abandoning
      | none => go s.dir .abandoning
  | .abandoning => go (if fails then s.dir else none) .done
  | .releasing =>
      let owner := if fails then none else s.dir.bind (·.owner)
      go s.dir (if owner.any (·.token ≠ c) then .done else .removing)
  | .removing => go (if fails then s.dir else none) .done
  | .holding | .done => go s.dir client.phase

/-- One step; a label that does not fit the state does nothing. -/
def next (staleMs : Nat) (s : LockState) : LockLabel → LockState
  | .acquire pid timeoutMs =>
      if pid ∈ s.dead then s
      else { s with clients := s.clients ++ [{ pid, deadline := s.now + timeoutMs }] }
  | .call c fails =>
      match s.clients[c]? with
      | none => s
      | some client =>
          if client.pid ∈ s.dead then s
          else
            let (dir, client) := s.afterCall staleMs c client fails
            { s with dir, clients := s.clients.set c client }
  | .release c =>
      match s.clients[c]? with
      | none => s
      | some client =>
          if client.pid ∉ s.dead ∧ client.phase = .holding then
            { s with clients := s.clients.set c { client with phase := .releasing } }
          else s
  | .crash pid => { s with dead := pid :: s.dead }
  | .elapse ms => if s.Prompt staleMs (s.now + ms) then { s with now := s.now + ms } else s

/-- No two live clients hold the lock, and the lock of each lies where it was made. -/
structure Exclusive (s : LockState) : Prop where
  one : ∀ c c', s.Holds c → s.Holds c' → c = c'
  inPlace : ∀ c, s.Holds c → ∃ dir ∈ s.dir, dir.madeBy = c

/-- A takeover moves another directory than the one it looked at, which a live client holds. -/
def TakesOther (s : LockState) (label : LockLabel) (_ : LockState) : Prop :=
  ∃ c client seen, label = .call c false ∧ s.clients[c]? = some client ∧ client.pid ∉ s.dead ∧
    client.phase = .moving seen ∧ ∃ dir ∈ s.dir, dir.madeBy ≠ seen ∧ s.Holds dir.madeBy

/-! ## What holds as long as no takeover errs -/

/-- The directory was made by a client that is past its `mkdir`, and names no other owner. -/
def Made (s : LockState) (dir : LockDir) : Prop :=
  ∃ client, s.clients[dir.madeBy]? = some client ∧ client.phase.Spent ∧
    client.since ≤ dir.mtimeMs ∧ dir.mtimeMs ≤ s.now ∧
    ∀ owner ∈ dir.owner, owner.token = dir.madeBy ∧ owner.pid = client.pid

/-- The directory of `seen` is not there. -/
def Absent (s : LockState) (seen : Nat) : Prop := ∀ dir ∈ s.dir, dir.madeBy ≠ seen

/-- The client `seen` made its directory at `since` in the process `pid`. -/
def Seen (s : LockState) (seen pid since : Nat) : Prop :=
  ∃ client, s.clients[seen]? = some client ∧ client.phase.Spent ∧ client.pid = pid ∧
    client.since = since

/-- What a client has learnt from its calls so far. -/
def Knows (s : LockState) : LockPhase → Prop
  | .reading seen mtimeMs => ∃ pid since, s.Seen seen pid since ∧ since ≤ mtimeMs
  | .judging seen mtimeMs owner => ∃ pid since, s.Seen seen pid since ∧ since ≤ mtimeMs ∧
      (s.Absent seen ∨ ∀ o ∈ owner, o.pid = pid)
  | .moving seen => (∃ pid since, s.Seen seen pid since) ∧ (s.Absent seen ∨ ¬ s.Holds seen)
  | _ => True

structure Sound (staleMs : Nat) (s : LockState) : Prop where
  made : ∀ dir ∈ s.dir, s.Made dir
  held : ∀ c, s.Holds c → ∃ dir ∈ s.dir, dir.madeBy = c
  knows : ∀ (c : Nat) (client : LockClient), s.clients[c]? = some client → s.Knows client.phase
  prompt : s.Prompt staleMs s.now

theorem Sound.exclusive {staleMs : Nat} {s : LockState} (h : s.Sound staleMs) : s.Exclusive where
  one c c' hc hc' := by
    obtain ⟨dir, hdir, rfl⟩ := h.held c hc
    obtain ⟨dir', hdir', rfl⟩ := h.held c' hc'
    rw [Option.mem_def.mp hdir] at hdir'
    rw [Option.some.inj hdir']
  inPlace := h.held

/-- Clients go on, processes stay dead, and a directory is only made by a client that has made none
yet. -/
structure Grows (s s' : LockState) : Prop where
  now : s.now ≤ s'.now
  dead : ∀ pid ∈ s.dead, pid ∈ s'.dead
  clients : ∀ (c : Nat) (client : LockClient), s.clients[c]? = some client →
    ∃ client', s'.clients[c]? = some client' ∧ client'.pid = client.pid ∧
      (client.phase.Spent → client'.phase.Spent ∧ client'.since = client.since ∧
        (client'.phase.Held → client.phase.Held))
  dir : ∀ dir' ∈ s'.dir, (∃ dir ∈ s.dir, dir.madeBy = dir'.madeBy) ∨
    ∀ client, s.clients[dir'.madeBy]? = some client → ¬ client.phase.Spent

section Grows

variable {s s' : LockState} {i pid since : Nat}

theorem Grows.seen (h : s.Grows s') (hseen : s.Seen i pid since) : s'.Seen i pid since := by
  obtain ⟨client, hclient, hspent, rfl, rfl⟩ := hseen
  obtain ⟨client', hclient', hpid, hkept⟩ := h.clients i client hclient
  obtain ⟨hspent', hsince, _⟩ := hkept hspent
  exact ⟨client', hclient', hspent', hpid, hsince⟩

theorem Grows.absent (h : s.Grows s') (hseen : s.Seen i pid since) (habsent : s.Absent i) :
    s'.Absent i := by
  obtain ⟨client, hclient, hspent, _⟩ := hseen
  rintro dir' hdir' rfl
  rcases h.dir dir' hdir' with ⟨dir, hdir, hmade⟩ | hunspent
  · exact habsent dir hdir hmade
  · exact hunspent client hclient hspent

theorem Grows.notHolds (h : s.Grows s') (hseen : s.Seen i pid since) (hnot : ¬ s.Holds i) :
    ¬ s'.Holds i := by
  rintro ⟨held, hheld, halive, hphase⟩
  obtain ⟨client, hclient, hspent, _⟩ := hseen
  obtain ⟨client', hclient', hpid, hkept⟩ := h.clients i client hclient
  rw [hheld] at hclient'
  cases hclient'
  refine hnot ⟨client, hclient, fun hdead => halive ?_, (hkept hspent).2.2 hphase⟩
  rw [hpid]
  exact h.dead _ hdead

theorem Grows.knows (h : s.Grows s') (hknows : s.Knows phase) :
    s'.Knows phase := by
  cases phase with
  | reading seen mtimeMs =>
      obtain ⟨pid, since, hseen, hle⟩ := hknows
      exact ⟨pid, since, h.seen hseen, hle⟩
  | judging seen mtimeMs owner =>
      obtain ⟨pid, since, hseen, hle, habsent | howner⟩ := hknows
      · exact ⟨pid, since, h.seen hseen, hle, .inl (h.absent hseen habsent)⟩
      · exact ⟨pid, since, h.seen hseen, hle, .inr howner⟩
  | moving seen =>
      obtain ⟨⟨pid, since, hseen⟩, habsent | hnot⟩ := hknows
      · exact ⟨⟨pid, since, h.seen hseen⟩, .inl (h.absent hseen habsent)⟩
      · exact ⟨⟨pid, since, h.seen hseen⟩, .inr (h.notHolds hseen hnot)⟩
  | creating | inspecting | clearing | waiting | recording | abandoning | holding | releasing
  | removing | done => trivial

theorem Grows.made (h : s.Grows s') (hmade : s.Made dir) : s'.Made dir := by
  obtain ⟨client, hclient, hspent, hsince, hmtime, howner⟩ := hmade
  obtain ⟨client', hclient', hpid, hkept⟩ := h.clients dir.madeBy client hclient
  obtain ⟨hspent', hsince', _⟩ := hkept hspent
  refine ⟨client', hclient', hspent', hsince'.symm ▸ hsince, hmtime.trans h.now,
    fun owner hmem => ?_⟩
  obtain ⟨htoken, howned⟩ := howner owner hmem
  exact ⟨htoken, howned.trans hpid.symm⟩

end Grows

/-! ## Steps of one client -/

section Move

variable {staleMs : Nat} {s : LockState} {c : Nat} {client client' : LockClient}
  {dir' : Option LockDir}

def move (s : LockState) (c : Nat) (dir : Option LockDir) (client : LockClient) : LockState :=
  { s with dir, clients := s.clients.set c client }

theorem move_self (hclient : s.clients[c]? = some client) :
    (s.move c dir' client').clients[c]? = some client' :=
  List.getElem?_set_self (List.getElem?_eq_some_iff.mp hclient).1

theorem move_other {i : Nat} (hi : i ≠ c) :
    (s.move c dir' client').clients[i]? = s.clients[i]? :=
  List.getElem?_set_ne (Ne.symm hi)

theorem grows_move (hclient : s.clients[c]? = some client) (hpid : client'.pid = client.pid)
    (hspent : client.phase.Spent → client'.phase.Spent ∧ client'.since = client.since ∧
      (client'.phase.Held → client.phase.Held))
    (hdir : ∀ dir ∈ dir', (∃ old ∈ s.dir, old.madeBy = dir.madeBy) ∨
      (dir.madeBy = c ∧ ¬ client.phase.Spent)) : s.Grows (s.move c dir' client') where
  now := Nat.le_refl _
  dead _ h := h
  clients i other hother := by
    by_cases hi : i = c
    · subst hi
      rw [hclient] at hother
      cases hother
      exact ⟨client', move_self hclient, hpid, hspent⟩
    · exact ⟨other, (move_other hi).trans hother, rfl, fun h => ⟨h, rfl, id⟩⟩
  dir dir hmem := by
    rcases hdir dir hmem with hold | ⟨rfl, hunspent⟩
    · exact .inl hold
    · refine .inr fun other hother => ?_
      rw [hclient] at hother
      cases hother
      exact hunspent

/-- A call keeps the state sound when it leaves the directories of the others in place and its
client knows what it has read. -/
theorem Sound.move (h : s.Sound staleMs) (hclient : s.clients[c]? = some client)
    (hpid : client'.pid = client.pid)
    (hspent : client.phase.Spent → client'.phase.Spent ∧ client'.since = client.since ∧
      (client'.phase.Held → client.phase.Held))
    (hdir : ∀ dir ∈ dir', (∃ old ∈ s.dir, old.madeBy = dir.madeBy) ∨
      (dir.madeBy = c ∧ ¬ client.phase.Spent))
    (hmade : ∀ dir ∈ dir', (s.move c dir' client').Made dir)
    (hothers : ∀ i, i ≠ c → s.Holds i → ∃ dir ∈ dir', dir.madeBy = i)
    (hself : client'.pid ∉ s.dead → client'.phase.Held → ∃ dir ∈ dir', dir.madeBy = c)
    (hprompt : client'.phase.Held → s.now ≤ client'.since + staleMs ∨ client'.pid ∈ s.dead)
    (hknows : (s.move c dir' client').Knows client'.phase) :
    (s.move c dir' client').Sound staleMs where
  made := hmade
  held i hi := by
    obtain ⟨other, hother, halive, hheld⟩ := hi
    by_cases hic : i = c
    · subst hic
      rw [move_self hclient] at hother
      cases hother
      exact hself halive hheld
    · rw [move_other hic] at hother
      exact hothers i hic ⟨other, hother, halive, hheld⟩
  knows i other hother := by
    by_cases hic : i = c
    · subst hic
      rw [move_self hclient] at hother
      cases hother
      exact hknows
    · rw [move_other hic] at hother
      exact (grows_move hclient hpid hspent hdir).knows (h.knows i other hother)
  prompt other hother halive hheld := by
    rcases List.mem_or_eq_of_mem_set hother with hold | rfl
    · exact h.prompt other hold halive hheld
    · exact (hprompt hheld).resolve_right halive

theorem Sound.stay (h : s.Sound staleMs) (hclient : s.clients[c]? = some client)
    (hspent : client.phase.Spent → phase.Spent) (hheld : phase.Held → client.phase.Held)
    (hknows : s.Knows phase) :
    (s.move c s.dir { client with phase }).Sound staleMs := by
  have hspent' : client.phase.Spent → phase.Spent ∧ client.since = client.since ∧
      (phase.Held → client.phase.Held) := fun hs => ⟨hspent hs, rfl, hheld⟩
  have hdir : ∀ dir ∈ s.dir, (∃ old ∈ s.dir, old.madeBy = dir.madeBy) ∨
      (dir.madeBy = c ∧ ¬ client.phase.Spent) := fun dir hmem => .inl ⟨dir, hmem, rfl⟩
  have hgrows : s.Grows (s.move c s.dir { client with phase }) :=
    grows_move hclient rfl hspent' hdir
  refine h.move hclient rfl hspent' hdir (fun dir hmem => hgrows.made (h.made dir hmem))
    (fun i _ hi => h.held i hi) (fun halive hphase => h.held c ⟨client, hclient, halive, hheld hphase⟩)
    (fun hphase => ?_) (hgrows.knows hknows)
  by_cases halive : client.pid ∈ s.dead
  · exact .inr halive
  · exact .inl (h.prompt client (List.mem_of_getElem? hclient) halive (hheld hphase))

theorem Sound.take (h : s.Sound staleMs) (hclient : s.clients[c]? = some client)
    (hspent : client.phase.Spent → phase.Spent) (hheld : ¬ phase.Held)
    (hknows : (s.move c none { client with phase }).Knows phase)
    (hothers : ∀ i, i ≠ c → ¬ s.Holds i) :
    (s.move c none { client with phase }).Sound staleMs :=
  h.move hclient rfl (fun hs => ⟨hspent hs, rfl, fun hphase => absurd hphase hheld⟩) (by simp)
    (by simp) (fun i hi hholds => absurd hholds (hothers i hi))
    (fun _ hphase => absurd hphase hheld) (fun hphase => absurd hphase hheld) hknows

end Move

section Call

variable {staleMs : Nat} {s : LockState} {c : Nat} {client : LockClient} {fails : Bool}

theorem Sound.others (h : s.Sound staleMs) (hholds : s.Holds c) (i : Nat) (hi : i ≠ c) :
    ¬ s.Holds i :=
  fun hother => hi (h.exclusive.one i c hother hholds)

theorem Sound.make (h : s.Sound staleMs) (hclient : s.clients[c]? = some client)
    (hphase : client.phase = .creating) (hnone : s.dir = none) :
    (s.move c (some { madeBy := c, owner := none, mtimeMs := s.now })
      { client with phase := .recording, since := s.now }).Sound staleMs := by
  have hunspent : ¬ client.phase.Spent := by
    rw [hphase]
    exact id
  refine h.move hclient rfl (fun hspent => absurd hspent hunspent) ?_ ?_ ?_ ?_ ?_ trivial
  · rintro dir ⟨⟩
    exact .inr ⟨rfl, hunspent⟩
  · rintro dir ⟨⟩
    exact ⟨_, move_self hclient, trivial, Nat.le_refl _, Nat.le_refl _, by simp⟩
  · intro i _ hi
    obtain ⟨dir, hdir, _⟩ := h.held i hi
    rw [hnone] at hdir
    cases hdir
  · exact fun _ _ => ⟨_, rfl, rfl⟩
  · exact fun _ => .inl (Nat.le_add_right _ _)

theorem Sound.own (h : s.Sound staleMs) (hclient : s.clients[c]? = some client)
    (halive : client.pid ∉ s.dead) (hphase : client.phase = .recording) (hdir : s.dir = some dir) :
    (s.move c (some { dir with owner := some { token := c, pid := client.pid }, mtimeMs := s.now })
      { client with phase := .holding }).Sound staleMs := by
  have hheld : client.phase.Held := by
    rw [hphase]
    trivial
  have hmine : dir.madeBy = c := by
    obtain ⟨other, hother, hmade⟩ := h.held c ⟨client, hclient, halive, hheld⟩
    rw [hdir] at hother
    cases hother
    exact hmade
  have hprompt := h.prompt client (List.mem_of_getElem? hclient) halive hheld
  obtain ⟨maker, hmaker, _, hsince, hmtime, _⟩ := h.made dir hdir
  rw [hmine, hclient] at hmaker
  cases hmaker
  subst hmine
  refine h.move hclient rfl (fun _ => ⟨trivial, rfl, fun _ => hheld⟩) ?_ ?_ ?_ ?_ ?_ trivial
  · rintro _ ⟨⟩
    exact .inl ⟨dir, hdir, rfl⟩
  · rintro _ ⟨⟩
    refine ⟨_, move_self hclient, trivial, hsince.trans hmtime, Nat.le_refl _, ?_⟩
    rintro _ ⟨⟩
    exact ⟨rfl, rfl⟩
  · intro i hi hholds
    exact absurd hholds (h.others ⟨client, hclient, halive, hheld⟩ i hi)
  · exact fun _ _ => ⟨_, rfl, rfl⟩
  · exact fun _ => .inl hprompt

theorem Sound.read (h : s.Sound staleMs) {seen : Nat} (hknows : s.Knows (.reading seen mtimeMs)) :
    s.Knows (.judging seen mtimeMs (if fails then none else s.dir.bind (·.owner))) := by
  obtain ⟨pid, since, hseen, hle⟩ := hknows
  refine ⟨pid, since, hseen, hle, ?_⟩
  by_cases habsent : s.Absent seen
  · exact .inl habsent
  · refine .inr fun owner howner => ?_
    simp only [Absent, not_forall, not_not] at habsent
    obtain ⟨dir, hdir, rfl⟩ := habsent
    obtain ⟨maker, hmaker, _, _, _, howned⟩ := h.made dir hdir
    obtain ⟨client, hclient, _, rfl, _⟩ := hseen
    rw [hmaker] at hclient
    cases hclient
    rw [Option.mem_def] at hdir
    split at howner
    · cases howner
    · rw [hdir] at howner
      exact (howned owner howner).2

theorem Sound.judge (h : s.Sound staleMs) {seen : Nat} {owner : Option LockOwner}
    (hknows : s.Knows (.judging seen mtimeMs owner))
    (hstale : owner.any (·.pid ∈ s.dead) ∨ staleMs < s.now - mtimeMs) :
    s.Knows (.moving seen) := by
  obtain ⟨pid, since, hseen, hle, howner⟩ := hknows
  refine ⟨⟨pid, since, hseen⟩, ?_⟩
  rcases hstale with hdead | hold
  · refine howner.imp_right fun howned hholds => ?_
    obtain ⟨o, hmem, hdead⟩ := (Option.any_eq_true _ _).mp hdead
    obtain ⟨held, hheld, halive, _⟩ := hholds
    obtain ⟨maker, hmaker, _, hpid, _⟩ := hseen
    rw [hheld] at hmaker
    cases hmaker
    rw [decide_eq_true_eq, howned o hmem, ← hpid] at hdead
    exact halive hdead
  · refine .inr fun ⟨held, hheld, halive, hphase⟩ => ?_
    have hprompt := h.prompt held (List.mem_of_getElem? hheld) halive hphase
    obtain ⟨maker, hmaker, _, _, hsince⟩ := hseen
    rw [hheld] at hmaker
    cases hmaker
    omega

theorem Sound.free (h : s.Sound staleMs) (hclient : s.clients[c]? = some client)
    (halive : client.pid ∉ s.dead) {seen : Nat} (hphase : client.phase = .moving seen)
    (hsome : s.dir.isSome) (hnot : ∀ t, ¬ s.TakesOther (.call c false) t) (i : Nat) :
    ¬ s.Holds i := by
  intro hholds
  obtain ⟨dir, hdir⟩ := Option.isSome_iff_exists.mp hsome
  obtain ⟨other, hother, hmade⟩ := h.held i hholds
  rw [hdir] at hother
  cases hother
  by_cases hseen : dir.madeBy = seen
  · have hknows := h.knows c client hclient
    rw [hphase] at hknows
    rcases hknows.2 with habsent | hgone
    · exact habsent dir hdir hseen
    · exact hgone (hseen ▸ hmade.symm ▸ hholds)
  · exact hnot s ⟨c, client, seen, rfl, hclient, halive, hphase, dir, hdir, hseen,
      hmade.symm ▸ hholds⟩

/-- The call of a client keeps the state sound, unless it takes over what a live client holds. -/
theorem Sound.call (h : s.Sound staleMs) (hclient : s.clients[c]? = some client)
    (halive : client.pid ∉ s.dead) (hnot : ∀ t, ¬ s.TakesOther (.call c fails) t) :
    (s.move c (s.afterCall staleMs c client fails).1
      (s.afterCall staleMs c client fails).2).Sound staleMs := by
  have hknows := h.knows c client hclient
  have hholds (hheld : client.phase.Held) : s.Holds c := ⟨client, hclient, halive, hheld⟩
  cases hphase : client.phase with
  | creating =>
      have hnotspent : ¬ client.phase.Spent := hphase ▸ id
      simp only [afterCall, hphase]
      split
      · exact h.stay hclient (fun hs => absurd hs hnotspent) False.elim trivial
      · cases hdir : s.dir with
        | none => exact h.make hclient hphase hdir
        | some dir =>
            dsimp only
            rw [← hdir]
            exact h.stay hclient (fun hs => absurd hs hnotspent) False.elim trivial
  | inspecting =>
      have hnotspent : ¬ client.phase.Spent := hphase ▸ id
      simp only [afterCall, hphase]
      cases hdir : s.dir with
      | none =>
          dsimp only
          rw [← hdir]
          exact h.stay hclient (fun hs => absurd hs hnotspent) False.elim trivial
      | some dir =>
          dsimp only
          rw [← hdir]
          split
          · exact h.stay hclient (fun hs => absurd hs hnotspent) False.elim trivial
          · obtain ⟨maker, hmaker, hspent, hsince, _⟩ := h.made dir hdir
            exact h.stay hclient (fun hs => absurd hs hnotspent) False.elim
              ⟨maker.pid, maker.since, ⟨maker, hmaker, hspent, rfl, rfl⟩, hsince⟩
  | reading seen mtimeMs =>
      have hnotspent : ¬ client.phase.Spent := hphase ▸ id
      simp only [afterCall, hphase]
      rw [hphase] at hknows
      exact h.stay hclient (fun hs => absurd hs hnotspent) False.elim (h.read hknows)
  | judging seen mtimeMs owner =>
      have hnotspent : ¬ client.phase.Spent := hphase ▸ id
      simp only [afterCall, hphase]
      rw [hphase] at hknows
      split
      next hstale =>
        exact h.stay hclient (fun hs => absurd hs hnotspent) False.elim (h.judge hknows hstale)
      next => exact h.stay hclient (fun hs => absurd hs hnotspent) False.elim trivial
  | moving seen =>
      have hnotspent : ¬ client.phase.Spent := hphase ▸ id
      simp only [afterCall, hphase]
      split
      next htakes =>
        obtain ⟨hsome, hworks⟩ := htakes
        rw [Bool.not_eq_true] at hworks
        subst hworks
        exact h.take hclient (fun hs => absurd hs hnotspent) id trivial fun i _ =>
          h.free hclient halive hphase hsome hnot i
      next => exact h.stay hclient (fun hs => absurd hs hnotspent) False.elim trivial
  | clearing =>
      have hnotspent : ¬ client.phase.Spent := hphase ▸ id
      simp only [afterCall, hphase]
      exact h.stay hclient (fun hs => absurd hs hnotspent) False.elim trivial
  | waiting =>
      have hnotspent : ¬ client.phase.Spent := hphase ▸ id
      simp only [afterCall, hphase]
      split
      · exact h.stay hclient (fun hs => absurd hs hnotspent) False.elim trivial
      · exact h.stay hclient (fun hs => absurd hs hnotspent) False.elim trivial
  | recording =>
      have hheld : client.phase.Held := by
        rw [hphase]
        trivial
      obtain ⟨dir, hdir, _⟩ := h.held c (hholds hheld)
      rw [Option.mem_def] at hdir
      simp only [afterCall, hphase, hdir]
      split
      · exact h.own hclient halive hphase hdir
      · rw [← hdir]
        exact h.stay hclient (fun _ => trivial) (fun _ => hheld) trivial
  | abandoning =>
      have hheld : client.phase.Held := by
        rw [hphase]
        trivial
      simp only [afterCall, hphase]
      split
      · exact h.stay hclient (fun _ => trivial) False.elim trivial
      · exact h.take hclient (fun _ => trivial) id trivial (h.others (hholds hheld))
  | holding =>
      simp only [afterCall, hphase]
      exact h.stay hclient (fun _ => trivial) (fun _ => hphase ▸ trivial) trivial
  | releasing =>
      have hheld : client.phase.Held := by
        rw [hphase]
        trivial
      simp only [afterCall, hphase]
      by_cases howner : (if fails then none else s.dir.bind (·.owner)).any (·.token ≠ c) = true
      · rw [if_pos howner]
        exact h.stay hclient (fun _ => trivial) False.elim trivial
      · rw [if_neg howner]
        exact h.stay hclient (fun _ => trivial) (fun _ => hheld) trivial
  | removing =>
      have hheld : client.phase.Held := by
        rw [hphase]
        trivial
      simp only [afterCall, hphase]
      split
      · exact h.stay hclient (fun _ => trivial) False.elim trivial
      · exact h.take hclient (fun _ => trivial) id trivial (h.others (hholds hheld))
  | done =>
      simp only [afterCall, hphase]
      exact h.stay hclient (fun _ => trivial) False.elim trivial

end Call

/-! ## Runs -/

section Runs

variable {staleMs : Nat} {s : LockState}

theorem getElem?_concat_client {clients : List LockClient} {new client : LockClient} {c : Nat}
    (h : (clients ++ [new])[c]? = some client) : clients[c]? = some client ∨ client = new := by
  rcases Nat.lt_trichotomy c clients.length with hlt | rfl | hgt
  · rw [List.getElem?_append_left hlt] at h
    exact .inl h
  · rw [List.getElem?_concat_length] at h
    exact .inr (Option.some.inj h).symm
  · rw [List.getElem?_eq_none (by rw [List.length_append]; exact hgt)] at h
    cases h

theorem Sound.acquire (h : s.Sound staleMs) (pid deadline : Nat) :
    ({ s with clients := s.clients ++ [{ pid, deadline }] } : LockState).Sound staleMs := by
  have hgrows : s.Grows { s with clients := s.clients ++ [{ pid, deadline }] } :=
    { now := Nat.le_refl _
      dead := fun _ hdead => hdead
      clients := fun c client hclient => by
        have hlt := (List.getElem?_eq_some_iff.mp hclient).1
        exact ⟨client, (List.getElem?_append_left hlt).trans hclient, rfl,
          fun hspent => ⟨hspent, rfl, id⟩⟩
      dir := fun dir hdir => .inl ⟨dir, hdir, rfl⟩ }
  refine ⟨fun dir hdir => hgrows.made (h.made dir hdir), fun c hholds => ?_,
    fun c client hclient => ?_, fun client hclient halive hheld => ?_⟩
  · obtain ⟨client, hclient, halive, hheld⟩ := hholds
    rcases getElem?_concat_client hclient with hold | rfl
    · exact h.held c ⟨client, hold, halive, hheld⟩
    · exact hheld.elim
  · rcases getElem?_concat_client hclient with hold | rfl
    · exact hgrows.knows (h.knows c client hold)
    · trivial
  · rcases List.mem_append.mp hclient with hold | hnew
    · exact h.prompt client hold halive hheld
    · obtain rfl := List.mem_singleton.mp hnew
      exact hheld.elim

theorem Sound.outlives (h : s.Sound staleMs) {dead : List Nat} {now : Nat}
    (hdead : ∀ pid ∈ s.dead, pid ∈ dead) (hnow : s.now ≤ now) (hprompt : s.Prompt staleMs now) :
    ({ s with dead, now } : LockState).Sound staleMs := by
  have hgrows : s.Grows { s with dead, now } :=
    { now := hnow
      dead := hdead
      clients := fun c client hclient => ⟨client, hclient, rfl, fun hspent => ⟨hspent, rfl, id⟩⟩
      dir := fun dir hdir => .inl ⟨dir, hdir, rfl⟩ }
  refine ⟨fun dir hdir => hgrows.made (h.made dir hdir), fun c hholds => ?_,
    fun c client hclient => hgrows.knows (h.knows c client hclient),
    fun client hclient halive hheld => ?_⟩
  · obtain ⟨client, hclient, halive, hheld⟩ := hholds
    exact h.held c ⟨client, hclient, fun hmem => halive (hdead _ hmem), hheld⟩
  · exact hprompt client hclient (fun hmem => halive (hdead _ hmem)) hheld

theorem Sound.next (h : s.Sound staleMs) (hnot : ¬ s.TakesOther label (s.next staleMs label)) :
    (s.next staleMs label).Sound staleMs := by
  cases label with
  | acquire pid timeoutMs =>
      simp only [next]
      split
      · exact h
      · exact h.acquire pid _
  | call c fails =>
      cases hclient : s.clients[c]? with
      | none => simpa only [next, hclient] using h
      | some client =>
          simp only [next, hclient]
          split
          · exact h
          next halive => exact h.call hclient halive fun _ => hnot
  | release c =>
      cases hclient : s.clients[c]? with
      | none => simpa only [next, hclient] using h
      | some client =>
          simp only [next, hclient]
          split
          next hholding =>
            exact h.stay hclient (fun _ => trivial) (fun _ => hholding.2 ▸ trivial) trivial
          · exact h
  | crash pid =>
      exact h.outlives (fun _ hdead => .tail _ hdead) (Nat.le_refl _) h.prompt
  | elapse ms =>
      simp only [next]
      split
      next hprompt => exact h.outlives (fun _ hdead => hdead) (Nat.le_add_right _ _) hprompt
      · exact h

theorem sound_init : ({} : LockState).Sound staleMs where
  made := by simp
  held c h := by simp [Holds] at h
  knows c client h := by simp at h
  prompt := by simp [Prompt]

theorem TakesOther.breaks (h : s.TakesOther label (s.next staleMs label)) :
    ¬ (s.next staleMs label).Exclusive := by
  obtain ⟨c, client, seen, rfl, hclient, halive, hphase, dir, hdir, _, hholds⟩ := h
  intro hexclusive
  have hnext : s.next staleMs (.call c false) =
      s.move c none { client with phase := .clearing } := by
    rw [Option.mem_def] at hdir
    simp [next, hclient, halive, afterCall, hphase, hdir, move]
  obtain ⟨held, hheld, hheldAlive, hheldPhase⟩ := hholds
  have hother : dir.madeBy ≠ c := by
    rintro rfl
    rw [hclient] at hheld
    cases hheld
    rw [hphase] at hheldPhase
    exact hheldPhase
  rw [hnext] at hexclusive
  obtain ⟨_, hnone, _⟩ := hexclusive.inPlace dir.madeBy
    ⟨held, (move_other hother).trans hheld, hheldAlive, hheldPhase⟩
  cases hnone

/-- In every state of a run the lock is exclusive, and nobody has taken it from a live client,
exactly when no takeover has moved what a live client holds instead of what it had looked at. -/
theorem exclusive_iff (staleMs : Nat) (labels : List LockLabel) :
    (∀ seen, seen <+: labels → (seen.foldl (next staleMs) {}).Exclusive) ↔
      ¬ Happened (next staleMs) {} labels TakesOther := by
  constructor
  · rintro halways ⟨pre, label, post, rfl, htakes⟩
    have hnext := halways (pre ++ [label]) ⟨post, by simp⟩
    rw [List.foldl_append] at hnext
    exact htakes.breaks hnext
  · rintro hnot seen ⟨rest, rfl⟩
    have hseen : ¬ Happened (next staleMs) {} seen TakesOther := fun htakes =>
      hnot (htakes.append rest)
    exact (invariant_of_not_happened (fun _ _ h hgood => h.next hgood) sound_init hseen).exclusive

/-- Two processes find the lock of a third that crashed; one takes it over and acquires it, and
then the other moves that lock away. -/
def staleLock : List LockLabel :=
  [.acquire 1 0, .call 0 false, .call 0 false, .crash 1,
    .acquire 2 0, .call 1 false, .call 1 false, .call 1 false, .call 1 false,
    .acquire 3 0, .call 2 false, .call 2 false, .call 2 false, .call 2 false,
    .call 1 false, .call 1 false, .call 1 false, .call 1 false,
    .call 2 false, .call 2 false, .call 2 false, .call 2 false]

theorem two_holders : ¬ ∀ seen, seen <+: staleLock → (seen.foldl (next 30000) {}).Exclusive := by
  intro halways
  have hexclusive := halways staleLock (List.prefix_refl _)
  have hfirst : (staleLock.foldl (next 30000) {}).Holds 1 := ⟨_, rfl, by decide, trivial⟩
  have hsecond : (staleLock.foldl (next 30000) {}).Holds 2 := ⟨_, rfl, by decide, trivial⟩
  exact absurd (hexclusive.one 1 2 hfirst hsecond) (by decide)

end Runs

end LockState

end Newide.Driver
