import Newide.Memory.BufferRefresh

/-!
# The operations of the buffer repository

An operation that finds no report another one has taken keeps the files in
order: the report it has taken is in one partition when it is done with it,
and after that the meta file is written anew.
-/

namespace Newide.Memory

open Threads Threads.Protocol Safe Local

variable {failure : BufferError} {now : Time} {queue : QueueKey} {α : Type}
  {R : Except BufferError α → BufferWorld → Prop}

section
variable {i seq : Nat} {w u : BufferWorld} {A B : BufferWorld → Prop}
  {queues : List QueueKey} {own : List Nat} {source destination location : BufferLocation}
  {report : StoredReport}

/-! ## What a thread holds -/

/-- The queues a thread is in, that of the meta file apart, and the reports it has taken. -/
structure BufferWorld.Holds (i : Nat) (queues : List QueueKey) (own : List Nat) (w : BufferWorld) :
    Prop where
  queues : ∀ queue, queue ≠ .bufferMeta → ((queue, i) ∈ w.held ↔ queue ∈ queues)
  own : ∀ seq, (i, seq) ∈ w.taken ↔ seq ∈ own

theorem Framed.holds : Framed i (BufferWorld.Holds i queues own) where
  stable _ _ h hrely :=
    { queues := fun queue hne => (hrely.held queue).trans (h.queues queue hne)
      own := fun seq => (hrely.taken seq).trans (h.own seq) }
  elsewhere _ _ h hstep :=
    { queues := fun queue hne => (hstep.held queue hne).trans (h.queues queue hne)
      own := fun seq => hstep.taken ▸ h.own seq }

variable {before : Option FileText}

theorem Beside.holds :
    Beside i seq before (BufferWorld.Holds i queues own) where
  known := Framed.holds.local
  writes _ _ h hstep _ :=
    { queues := fun queue hne => hstep.held ▸ h.queues queue hne
      own := fun seq => hstep.taken ▸ h.own seq }

/-- The thread is not in the queue of the meta file. -/
def BufferWorld.Outside (i : Nat) (w : BufferWorld) : Prop :=
  (.bufferMeta, i) ∉ w.held

theorem Local.outside : Local i (BufferWorld.Outside i) where
  stable _ _ h hrely hin := h ((hrely.held _).mp hin)
  aside _ _ _ h := h

theorem Beside.outside :
    Beside i seq before (BufferWorld.Outside i) where
  known := .outside
  writes _ _ h hstep _ hin := h (hstep.held ▸ hin)

/-- The thread has no meta file to write. -/
def BufferWorld.Clean (i : Nat) (w : BufferWorld) : Prop :=
  i ∉ w.stale

theorem Framed.clean : Framed i (BufferWorld.Clean i) where
  stable _ _ h hrely hin := h (hrely.stale.mp hin)
  elsewhere _ _ h hstep := hstep.clean h

theorem Beside.clean {text : FileText} : Beside i seq (some text) (BufferWorld.Clean i) where
  known := Framed.clean.local
  writes _ _ h _ hstale hin := h (hstale rfl ▸ hin)

theorem Beside.and (hA : Beside i seq before A)
    (hB : Beside i seq before B) : Beside i seq before fun w => A w ∧ B w where
  known := hA.known.and hB.known
  writes _ _ h hstep hstale :=
    ⟨hA.writes _ _ h.1 hstep hstale, hB.writes _ _ h.2 hstep hstale⟩

/-- A thread with nothing in hand but the queues it is in. -/
structure BufferWorld.Free (i : Nat) (queues : List QueueKey) (w : BufferWorld) : Prop where
  holds : w.Holds i queues []
  outside : w.Outside i
  clean : w.Clean i

theorem Local.free : Local i (BufferWorld.Free i queues) where
  stable w u h hrely :=
    { holds := Framed.holds.stable w u h.holds hrely
      outside := outside.stable w u h.outside hrely
      clean := Framed.clean.stable w u h.clean hrely }
  aside w c haside h :=
    { holds := Framed.holds.local.aside w c haside h.holds
      outside := outside.aside w c haside h.outside
      clean := Framed.clean.local.aside w c haside h.clean }

/-! ## Where the report is -/

def only (location : BufferLocation) (report : StoredReport) : BufferLocation → Option FileText :=
  Function.update (fun _ => none) location (some (.report report))

theorem only_self : only location report location = some (.report report) :=
  Function.update_self ..

theorem only_of_ne {other : BufferLocation} (hne : other ≠ location) :
    only location report other = none :=
  Function.update_of_ne hne ..

variable {rewritten : StoredReport}

theorem only_rewritten :
    Function.update (only location report) location (some (.report rewritten)) =
      only location rewritten :=
  Function.update_idem ..

theorem only_moved (hne : source ≠ destination) :
    Function.update (Function.update (only source report) destination
      (some (.report rewritten))) source none = only destination rewritten := by
  funext other
  unfold only
  by_cases hsource : other = source
  · rw [hsource, Function.update_self, Function.update_of_ne hne]
  · rw [Function.update_of_ne hsource]
    by_cases hdestination : other = destination
    · rw [hdestination, Function.update_self, Function.update_self]
    · rw [Function.update_of_ne hdestination, Function.update_of_ne hdestination,
        Function.update_of_ne hsource]

theorem BufferWorld.Owned.lives (h : w.Owned i seq (only location report) (some report)) :
    w.LivesAt seq location report where
  here := (h.files location).trans only_self
  nowhereElse other hne := (h.files other).trans (only_of_ne hne)
  last := h.last

/-! ## Taking a report, and being done with it -/

def BufferWorld.took (i seq : Nat) (w : BufferWorld) : BufferWorld :=
  { w with taken := (i, seq) :: w.taken }

def BufferWorld.settled (i seq : Nat) (w : BufferWorld) : BufferWorld :=
  { w with taken := w.taken.filter (· ≠ (i, seq)) }

theorem BufferWorld.Free.took (h : w.Free i queues) :
    (w.took i seq).Holds i queues [seq] ∧ (w.took i seq).Outside i ∧ (w.took i seq).Clean i := by
  refine ⟨⟨h.holds.queues, fun other => ?_⟩, h.outside, h.clean⟩
  show (i, other) ∈ (i, seq) :: w.taken ↔ other ∈ [seq]
  rw [List.mem_cons, List.mem_singleton, h.holds.own, Prod.mk.injEq, and_iff_right rfl]
  exact or_iff_left List.not_mem_nil

theorem BufferWorld.Holds.settled (h : w.Holds i queues [seq]) :
    (w.settled i seq).Holds i queues [] := by
  refine ⟨h.queues, fun other => ?_⟩
  show (i, other) ∈ w.taken.filter (· ≠ (i, seq)) ↔ other ∈ []
  rw [List.mem_filter, h.own, decide_eq_true_iff]
  constructor
  · rintro ⟨hother, hne⟩
    rw [List.mem_singleton.mp hother] at hne
    exact absurd rfl hne
  · exact fun hin => absurd hin List.not_mem_nil

/-- A report is found where it is, or not at all; who had taken it would not have been clear. -/
theorem safe_takeReport {R : Except BufferError FileText → BufferWorld → Prop}
    (hR : ∀ r, bufferProtocol.Stable i (R r)) (hw : w.Free i queues)
    (hfound : ∀ (t : BufferWorld) report, t.Free i queues →
      (t.took i seq).Owned i seq (only location report) (some report) →
      R (.ok (.report report)) (t.took i seq))
    (hmissing : ∀ (t : BufferWorld) e, t.Free i queues → R (.error e) t) :
    bufferProtocol.Safe i R (takeReport location seq).run w := by
  refine call free.stable hw fun t r u ht hkept hexec => ?_
  obtain ⟨hexec, hclear⟩ := hexec
  simp only [BufferCall.exec] at hexec
  cases hfile : t.disk.lookup (reportPath location seq) with
  | none =>
      rw [hfile] at hexec
      cases hexec
      have hsame : t.Fine i t :=
        ⟨hkept, fun j _ =>
          { reports := fun _ _ => ⟨fun _ _ => rfl, rfl⟩
            taken := fun _ => .rfl
            held := fun _ => .rfl
            stale := .rfl
            allotted := fun _ => .rfl
            saving := fun _ => rfl
            cursor := fun _ h => h
            refreshing := fun _ => ⟨fun _ _ => rfl, fun _ _ h => h, .inl fun _ => rfl⟩ }⟩
      exact ⟨hsame.1, hsame.2, done (hR _) (hmissing t _ ht)⟩
  | some text =>
      rw [hfile] at hexec
      cases hexec
      have hsome : (t.disk.lookup (reportPath location seq)).isSome = true := by rw [hfile]; rfl
      have hallotted := hkept.filed location seq hsome
      have hother := hclear hsome
      have huntaken : ¬ ∃ j, (j, seq) ∈ t.taken := by
        rintro ⟨j, hj⟩
        have hmine : j = i := hother (j, seq) hj rfl
        rw [hmine, ht.holds.own] at hj
        exact List.not_mem_nil hj
      obtain ⟨found, report, hlives⟩ := (hkept.lives seq hallotted).resolve_left huntaken
      have hlocation : location = found := by
        by_contra hne
        rw [hlives.nowhereElse location hne] at hfile
        cases hfile
      subst hlocation
      rw [hlives.here] at hfile
      cases hfile
      obtain ⟨hafter, hothers⟩ := BufferWorld.take_fine hkept hallotted hother
      refine ⟨hafter, hothers, done (hR _) (hfound t report ht ?_)⟩
      exact
        { taken := List.mem_cons_self
          files := fun other => by
            by_cases hsame : other = location
            · rw [hsame, only_self]
              exact hlives.here
            · rw [only_of_ne hsame]
              exact hlives.nowhereElse other hsame
          last := hlives.last }

theorem safe_settling {routine : BufferRoutine α} {L : Except BufferError α → BufferWorld → Prop}
    (hL : ∀ r, bufferProtocol.Stable i (L r)) (hR : ∀ r, bufferProtocol.Stable i (R r))
    (hroutine : bufferProtocol.Safe i L routine.run w)
    (hlives : ∀ r v, L r v → ∃ location report, v.LivesAt seq location report)
    (hdone : ∀ r v, L r v → R r (v.settled i seq)) :
    bufferProtocol.Safe i R (settling seq routine).run w := by
  refine bind (hroutine.mono fun r v hv => call (hL r) hv
    fun t r' u ht hkept hexec => ?_)
  cases hexec.1
  obtain ⟨hafter, hothers⟩ := BufferWorld.settle_fine (i := i) hkept fun _ => hlives r t ht
  exact ⟨hafter, hothers, done (hR r) (hdone r t ht)⟩

/-! ## An operation on a report -/

theorem BufferWorld.Holds.free (h : w.Holds i queues [seq]) (houtside : w.Outside i)
    (hclean : w.Clean i) : (w.settled i seq).Free i queues where
  holds := h.settled
  outside := houtside
  clean := hclean

/-- The report a thread has taken lives in one place. -/
def BufferWorld.Placed (i seq : Nat) (queues : List QueueKey) (location : BufferLocation)
    (report : StoredReport) : BufferWorld → Prop :=
  BufferWorld.Knows i seq (only location report) (some report) fun w =>
    w.Holds i queues [seq] ∧ w.Outside i

theorem Local.placed : Local i (BufferWorld.Placed i seq queues location report) :=
  .knows (Framed.holds.local.and .outside)

theorem BufferWorld.Placed.lives (h : w.Placed i seq queues location report) :
    ∃ location report, w.LivesAt seq location report :=
  ⟨location, report, h.1.lives⟩

theorem safe_taking {f : FileText → BufferRoutine α} (hR : ∀ r, bufferProtocol.Stable i (R r))
    (hw : w.Free i queues)
    (hfound : ∀ t report, BufferWorld.Placed i seq queues location report t → t.Clean i →
      bufferProtocol.Safe i R (f (.report report)).run t)
    (hmissing : ∀ t : BufferWorld, t.Free i queues → R (.error failure) t) :
    bufferProtocol.Safe i R
      (tryCatch (takeReport location seq) (fun _ => throw failure) >>= f).run w := by
  refine chain (fun e => hR (.error e)) (catches (fun a => stable) ?_)
  refine safe_takeReport (fun r => ?_) hw (fun t report ht howned => ?_) fun t e ht => ?_
  · cases r with
    | ok text => exact stable
    | error e => exact stable
  · exact hfound _ report ⟨howned, ht.took.1, ht.took.2.1⟩ ht.took.2.2
  · exact throws (hR (.error failure)) (hmissing t ht)

theorem safe_updateBufferRating {rating : UserRating} (hw : w.Free i queues) :
    bufferProtocol.Safe i (fun _ => BufferWorld.Free i queues)
      (updateBufferRating seq rating).run w := by
  have hfree (r : Except BufferError Unit) :
      bufferProtocol.Stable i (BufferWorld.Free i queues) := free.stable
  refine safe_taking hfree hw (fun t report ht hclean => ?_) fun t ht => ht
  let rated : StoredReport := { snapshot := { report.snapshot with userRating := some rating } }
  have hbeside : Beside i seq (only .pending report .pending) fun w =>
      (w.Holds i queues [seq] ∧ w.Outside i) ∧ w.Clean i :=
    only_self ▸ (Beside.holds.and .outside).and .clean
  have hwrite : bufferProtocol.Safe i
      (fun _ u => u.Placed i seq queues .pending rated ∧ u.Clean i)
      (writeTextAtomic (reportPath .pending seq) (.report rated)).run t := by
    refine (safe_writeReport hbeside ⟨ht.1, ht.2, hclean⟩).mono fun r u ⟨_, hu⟩ => ?_
    rw [only_rewritten] at hu
    exact ⟨⟨hu.1, hu.2.1⟩, hu.2.2⟩
  refine safe_settling (fun r => (placed.and Framed.clean.local).stable) hfree hwrite
    (fun r v hv => hv.1.lives) fun r v hv => hv.1.2.1.free hv.1.2.2 hv.2

/-! ## Moving -/

/-- Where a report is that was to go from one partition to another: it stays where it is when its
context cannot follow. -/
def Relocated (i seq : Nat) (queues : List QueueKey) (source destination : BufferLocation)
    (report rewritten : StoredReport) : Except BufferError Unit → BufferWorld → Prop
  | .ok _ => BufferWorld.Placed i seq queues destination rewritten
  | .error _ => fun w => BufferWorld.Placed i seq queues source report w ∧ w.Clean i

theorem Relocated.stable (r : Except BufferError Unit) :
    bufferProtocol.Stable i (Relocated i seq queues source destination report rewritten r) := by
  cases r with
  | ok a => exact placed.stable
  | error e => exact (placed.and Framed.clean.local).stable

theorem safe_moveBuffer {snapshot : BufferSnapshot} (hne : source ≠ destination)
    (hw : BufferWorld.Placed i seq queues source report w ∧ w.Clean i) :
    bufferProtocol.Safe i (Relocated i seq queues source destination report rewritten)
      (moveBuffer source destination seq snapshot rewritten).run w := by
  have hmove (t : BufferWorld) (ht : t.Placed i seq queues source report) :
      bufferProtocol.Safe i (Relocated i seq queues source destination report rewritten)
        (moveFile (reportPath source seq) (reportPath destination seq)
          (some (.report rewritten))).run t := by
    refine (safe_moveReport (Beside.holds.and .outside) hne only_self ht).mono fun r u hr => ?_
    obtain ⟨rfl, hu⟩ := hr
    rw [only_moved hne] at hu
    exact hu
  unfold moveBuffer
  by_cases hcontext : snapshot.contextSnapshotRef.isSome = true
  · rw [if_pos hcontext]
    refine chain (fun e => Relocated.stable (.error e))
      ((safe_aside (placed.and Framed.clean.local) uses_moveContext hw).mono
        fun r u hu => ?_)
    cases r with
    | ok a => exact hmove u hu.1
    | error e => exact hu
  · rw [if_neg hcontext]
    exact hmove w hw.1

variable {roleId : String}

/-- A report goes from one partition to another, or stays where it is; after it has gone the meta
file is written anew. -/
theorem safe_relocate (rewritten : BufferSnapshot → StoredReport) (hne : source ≠ destination)
    (hw : w.Free i queues) :
    bufferProtocol.Safe i (fun _ => BufferWorld.Free i queues)
      (do
        let raw ← tryCatch (takeReport source seq) fun _ => throw failure
        settling seq do
          let snapshot ← asReport raw
          moveBuffer source destination seq snapshot (rewritten snapshot)
        healBufferMeta roleId 0 : BufferRoutine Unit).run w := by
  have hfree (r : Except BufferError Unit) :
      bufferProtocol.Stable i (BufferWorld.Free i queues) := free.stable
  refine safe_taking hfree hw (fun t report ht hclean => ?_) fun t ht => ht
  have hmove : bufferProtocol.Safe i
      (Relocated i seq queues source destination report (rewritten report.snapshot))
      (moveBuffer source destination seq report.snapshot (rewritten report.snapshot)).run t :=
    safe_moveBuffer hne ⟨ht, hclean⟩
  refine chain (fun e => hfree (.error e)) (safe_settling Relocated.stable (fun r => ?_) hmove
    (fun r v hv => ?_) fun r v hv => ?_)
  · cases r with
    | ok a => exact stable
    | error e => exact hfree (.error e)
  · cases r with
    | ok a => exact hv.lives
    | error e => exact hv.1.lives
  · cases r with
    | ok a =>
        refine (safe_healBufferMeta Framed.holds hv.2.1.settled).mono fun r u hu => ?_
        exact
          { holds := hu.2.1
            outside := hu.2.2.1.2
            clean := hu.2.2.1.1 }
    | error e => exact hv.1.2.1.free hv.1.2.2 hv.2

theorem safe_markBuffer {target : MarkTarget} {reason : Option String} (hw : w.Free i queues) :
    bufferProtocol.Safe i (fun _ => BufferWorld.Free i queues)
      (markBuffer roleId seq target reason now).run w := by
  have hne : BufferLocation.pending ≠ target.location := by
    cases target with
    | processed => exact nofun
    | deadLetter => exact nofun
  exact safe_relocate (fun snapshot => rewrittenReport snapshot target reason now) hne hw

theorem safe_restoreDeadLetter (hw : w.Free i queues) :
    bufferProtocol.Safe i (fun _ => BufferWorld.Free i queues)
      (restoreDeadLetter roleId seq).run w :=
  safe_relocate (fun snapshot => { snapshot := { snapshot with extractionStatus := .pending } })
    nofun hw

/-! ## Archiving -/

theorem BufferWorld.Free.entered (hqueue : queue ≠ .bufferMeta) (h : w.Free i []) :
    (w.entered i queue).Free i [queue] := by
  refine ⟨⟨fun other hother => ?_, h.holds.own⟩, fun hin => ?_, fun hin => h.clean ?_⟩
  · show (other, i) ∈ (queue, i) :: w.held ↔ other ∈ [queue]
    rw [List.mem_cons, List.mem_singleton, h.holds.queues other hother, Prod.mk.injEq,
      and_iff_left rfl]
    exact or_iff_left List.not_mem_nil
  · rcases List.mem_cons.mp hin with hsame | hin
    · cases hsame
      exact hqueue rfl
    · exact h.outside hin
  · have hstale : i ∈ if queue = .bufferMeta then w.stale.filter (· ≠ i) else w.stale := hin
    rwa [if_neg hqueue] at hstale

theorem BufferWorld.Free.left (h : w.Free i [queue]) :
    (w.left i queue).Free i [] := by
  refine ⟨⟨fun other hother => ?_, h.holds.own⟩, fun hin => ?_, h.clean⟩
  · show (other, i) ∈ w.held.filter (· ≠ (queue, i)) ↔ other ∈ []
    rw [List.mem_filter, decide_eq_true_iff]
    constructor
    · rintro ⟨hin, hne⟩
      rw [h.holds.queues other hother, List.mem_singleton] at hin
      exact absurd (by rw [hin]) hne
    · exact fun hin => absurd hin List.not_mem_nil
  · exact h.outside (List.mem_filter.mp hin).1

theorem safe_archiveBuffer (hw : w.Free i []) :
    bufferProtocol.Safe i (fun _ => BufferWorld.Free i []) (archiveBuffer roleId seq now).run w := by
  have hfree {α : Type} (queues : List QueueKey) (_ : Except BufferError α) :
      bufferProtocol.Stable i (BufferWorld.Free i queues) := free.stable
  refine safe_enqueue (B := BufferWorld.Free i [.buffer seq]) free.stable
    (hfree [.buffer seq]) (hfree []) hw (fun t ht _ _ => ht.entered nofun) (fun u hu => ?_)
    (fun hqueue => by cases hqueue) (fun hqueue => by cases hqueue) fun r v hv => hv.left
  refine catches (fun a => hfree _ (.ok a)) (chain (fun e => ?_)
    ((safe_markBuffer hu).mono fun r v hv => ?_))
  · exact stable
  · cases r with
    | ok a => exact returns (hfree _ (.ok a)) hv
    | error e => exact safe_aside free uses_classifyArchiveFailure hv

end

end Newide.Memory
