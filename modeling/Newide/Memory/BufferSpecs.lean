import Newide.Memory.BufferProtocol

/-!
# What the routines of the buffer repository leave

One lemma for each routine.  Those that only read, or that move contexts,
keep whatever is known of reports.  Those that write a report they have
taken say which files of it there are then.  The refresh of the meta file
leaves its counters fitting, unless somebody else is still to refresh it.
-/

namespace Newide.Memory

open Threads Threads.Protocol BufferDisk FileCall

variable {A : BufferWorld → Prop} {destination source : BufferLocation} {disk : BufferDisk}
  {locations : List BufferLocation} {reason roleId : String} {text : FileText}

section
variable {i seq : Nat} {w u : BufferWorld} {c : FileCall}

/-! ## One operation of the file system -/

def FileCall.touches : FileCall → List BufferPath
  | .writeFile path _ => [path]
  | .rename source destination => [source, destination]
  | .unlink path => [path]
  | _ => []

def BufferWorld.afterFile (i : Nat) (c : FileCall) (w : BufferWorld) : BufferWorld :=
  { w with
    disk := (c.exec w.disk).2
    written := w.written ++ (c.written w.disk).toList
    stale := if w.disk.sameSizes (c.exec w.disk).2 then w.stale else i :: w.stale }

variable {path : BufferPath}

theorem FileCall.lookup_exec (h : path ∉ c.touches) :
    (c.exec disk).2.lookup path = disk.lookup path := by
  cases c with
  | readFile found =>
      simp only [exec]
      cases disk.lookup found <;> rfl
  | writeFile found text => exact AList.lookup_insert_ne fun hsame => h (hsame ▸ List.mem_singleton_self _)
  | rename source destination =>
      simp only [exec]
      cases disk.lookup source with
      | none => rfl
      | some text =>
          have hdestination : path ≠ destination := fun hsame =>
            h (hsame ▸ List.mem_cons_of_mem _ (List.mem_singleton_self _))
          have hsource : path ≠ source := fun hsame => h (hsame ▸ List.mem_cons_self)
          exact (AList.lookup_insert_ne hdestination).trans (AList.lookup_erase_ne hsource)
  | unlink found =>
      simp only [exec]
      cases disk.lookup found with
      | none => rfl
      | some text => exact AList.lookup_erase_ne fun hsame => h (hsame ▸ List.mem_singleton_self _)
  | readdir | mkdir => rfl

variable {location : BufferLocation}

theorem FileCall.size_exec (h : ∀ path ∈ c.touches, path.isReport = false) :
    size (c.exec disk).2 location = disk.size location := by
  have hnever {path : BufferPath} (hpath : path ∈ c.touches) (hreport : path.isReport = true) :
      False := by
    rw [h path hpath] at hreport
    cases hreport
  cases c with
  | readFile found =>
      simp only [exec]
      cases disk.lookup found <;> rfl
  | writeFile found text =>
      exact size_insert fun hreport => (hnever (List.mem_singleton_self _) hreport).elim
  | rename source destination =>
      simp only [exec]
      cases disk.lookup source with
      | none => rfl
      | some text =>
          have hdestination : destination.isReport = true → destination ∈ disk.erase source :=
            fun hreport => (hnever (List.mem_cons_of_mem _ (List.mem_singleton_self _)) hreport).elim
          exact (size_insert hdestination).trans
            (size_erase (h source List.mem_cons_self))
  | unlink found =>
      simp only [exec]
      cases disk.lookup found with
      | none => rfl
      | some text => exact size_erase (h found (List.mem_singleton_self _))
  | readdir | mkdir => rfl

theorem BufferDisk.sameSizes_iff {after : BufferDisk} :
    disk.sameSizes after = true ↔ ∀ location, after.size location = disk.size location := by
  unfold sameSizes
  rw [List.all_eq_true]
  constructor
  · intro h location
    have hin : location ∈ BufferLocation.all := by cases location <;> decide
    simpa using h location hin
  · intro h location _
    simpa using h location

theorem FileCall.written_eq_some {entry : Nat × StoredReport} (h : c.written disk = some entry) :
    ∃ path ∈ c.touches, path.name = .report entry.1 ∧ path.isReport = true := by
  cases c with
  | rename source destination =>
      simp only [written] at h
      split at h
      · next seq report hname htemporary _ =>
          cases h
          refine ⟨destination, List.mem_cons_of_mem _ (List.mem_singleton_self _), hname, ?_⟩
          simp [BufferPath.isReport, hname, htemporary]
      · cases h
  | readFile | writeFile | unlink | readdir | mkdir => cases h

theorem BufferWorld.lastWritten_afterFile (h : ∀ entry ∈ c.written w.disk, entry.1 ≠ seq) :
    (w.afterFile i c).lastWritten seq = w.lastWritten seq := by
  unfold lastWritten afterFile
  cases hwritten : c.written w.disk with
  | none => rw [Option.toList_none, List.append_nil]
  | some entry =>
      have hdrop : ([entry].filter fun entry => entry.1 = seq) = [] := by
        simp [h entry hwritten]
      rw [Option.toList_some, List.filter_append, hdrop, List.append_nil]

/-- A context, and not the temporary file beside one. -/
def BufferPath.IsContext (path : BufferPath) : Prop :=
  ∃ seq, path.name = .context seq ∧ path.temporary = false

theorem BufferPath.Belongs.unique {other : Nat} (h : path.Belongs seq)
    (hother : path.Belongs other) : other = seq := by
  rcases h with hname | ⟨hname, _⟩ <;> rcases hother with hname' | ⟨hname', _⟩ <;>
  · rw [hname] at hname'
    cases hname'
    try rfl

theorem BufferPath.IsContext.not_belongs (h : path.IsContext) :
    ¬ path.Belongs seq := by
  obtain ⟨other, hname, htemporary⟩ := h
  rintro (hreport | ⟨_, htemporary'⟩)
  · rw [hname] at hreport
    cases hreport
  · rw [htemporary] at htemporary'
    cases htemporary'

theorem BufferWorld.afterFile_writes {own : Nat → Prop}
    (h : ∀ path ∈ c.touches, (∃ seq, own seq ∧ path.Belongs seq) ∨ path.IsContext) :
    w.Writes i own (w.afterFile i c) where
  reports seq hmine := by
    have hnot (path : BufferPath) (hpath : path ∈ c.touches) : ¬ path.Belongs seq := by
      intro hbelongs
      rcases h path hpath with ⟨other, hown, hother⟩ | hcontext
      · exact hmine (hbelongs.unique hother ▸ hown)
      · exact hcontext.not_belongs hbelongs
    refine ⟨fun path hpath => lookup_exec fun hin => hnot path hin hpath,
      lastWritten_afterFile fun entry hentry hsame => ?_⟩
    obtain ⟨path, hpath, hreport, _⟩ := written_eq_some hentry
    exact hnot path hpath (.inl (hsame ▸ hreport))
  metaFile path hmeta := by
    refine lookup_exec fun hin => ?_
    rcases h path hin with ⟨other, _, hother⟩ | ⟨other, hname, _⟩
    · exact hother.ne_bufferMeta hmeta
    · rw [hname] at hmeta
      cases hmeta
  held := rfl
  taken := rfl
  allotted := rfl
  stale := by
    by_cases hsame : w.disk.sameSizes (c.exec w.disk).2 = true
    · exact .inl ⟨if_pos hsame, sameSizes_iff.mp hsame⟩
    · exact .inr (if_neg hsame)

/-! ## What is known of reports -/

/-- A step that leaves the reports alone; of the queues it may enter or leave that of the meta
file. -/
structure BufferWorld.Elsewhere (i : Nat) (w u : BufferWorld) : Prop where
  reports : ∀ seq, SameReport seq w u
  cursor : ∀ n, w.CursorAtLeast n → u.CursorAtLeast n
  held : ∀ queue, queue ≠ .bufferMeta → ((queue, i) ∈ u.held ↔ (queue, i) ∈ w.held)
  taken : u.taken = w.taken
  allotted : u.allotted = w.allotted
  clean : i ∉ w.stale → i ∉ u.stale

/-- What is known of reports, and not lost by what leaves them alone. -/
structure Framed (i : Nat) (A : BufferWorld → Prop) : Prop where
  stable : bufferProtocol.Stable i A
  elsewhere : ∀ w u, A w → w.Elsewhere i u → A u

theorem Framed.and {B : BufferWorld → Prop} (hA : Framed i A) (hB : Framed i B) :
    Framed i fun w => A w ∧ B w where
  stable _ _ h hrely := ⟨hA.stable _ _ h.1 hrely, hB.stable _ _ h.2 hrely⟩
  elsewhere _ _ h hstep := ⟨hA.elsewhere _ _ h.1 hstep, hB.elsewhere _ _ h.2 hstep⟩

/-- An operation of the file system on contexts only. -/
def FileCall.Aside (c : FileCall) : Prop :=
  ∀ path ∈ c.touches, path.IsContext

def BufferCall.Aside : BufferCall → Prop
  | .file c => c.Aside
  | _ => False

theorem FileCall.Aside.isReport (h : c.Aside) :
    ∀ path ∈ c.touches, path.isReport = false := by
  intro path hpath
  obtain ⟨seq, hname, _⟩ := h path hpath
  simp [BufferPath.isReport, hname]

theorem FileCall.Aside.elsewhere (h : c.Aside) : w.Elsewhere i (w.afterFile i c) := by
  have hwrites : w.Writes i (fun _ => False) (w.afterFile i c) :=
    BufferWorld.afterFile_writes fun path hpath => .inr (h path hpath)
  exact
    { reports := fun seq => hwrites.reports seq not_false
      cursor := fun n => hwrites.cursorAtLeast.mpr
      held := fun queue _ => Iff.rfl
      taken := rfl
      allotted := rfl
      clean := fun hclean => by
        have hsame : w.disk.sameSizes (c.exec w.disk).2 = true :=
          sameSizes_iff.mpr fun location => size_exec h.isReport
        show i ∉ if w.disk.sameSizes (c.exec w.disk).2 then w.stale else i :: w.stale
        rwa [if_pos hsame] }

/-- What is known, and not lost by operations on contexts. -/
structure Local (i : Nat) (B : BufferWorld → Prop) : Prop where
  stable : bufferProtocol.Stable i B
  aside : ∀ w c, FileCall.Aside c → B w → B (w.afterFile i c)

theorem Framed.local (hA : Framed i A) : Local i A where
  stable := hA.stable
  aside w _ haside h := hA.elsewhere w _ h haside.elsewhere

theorem Local.and {B C : BufferWorld → Prop} (hB : Local i B) (hC : Local i C) :
    Local i fun w => B w ∧ C w where
  stable _ _ h hrely := ⟨hB.stable _ _ h.1 hrely, hC.stable _ _ h.2 hrely⟩
  aside w c haside h := ⟨hB.aside w c haside h.1, hC.aside w c haside h.2⟩

theorem safe_aside {α : Type} {p : BufferThread α} (hA : Local i A)
    (huses : p.Uses BufferCall.Aside) (hw : A w) :
    bufferProtocol.Safe i (fun _ => A) p w := by
  refine Safe.of_uses hA.stable (fun c t r u haside ht hkept hexec => ?_) huses hw
  cases c with
  | file c =>
      cases hexec.1
      have hwrites : t.Writes i (fun _ => False) (t.afterFile i c) :=
        BufferWorld.afterFile_writes fun path hpath => .inr (haside path hpath)
      obtain ⟨hafter, hother⟩ := hwrites.fine hkept fun _ => False.elim
      exact ⟨hafter, hother, hA.aside t c haside ht⟩
  | take | settle | allot | enter | leave => exact haside.elim

/-! ## Routines that leave reports alone -/

theorem uses_file (h : c.Aside) : (file c).run.Uses BufferCall.Aside :=
  ⟨h, fun _ => trivial⟩

theorem aside_none (h : c.touches = []) : c.Aside := by
  intro path hpath
  rw [h] at hpath
  cases hpath

theorem uses_read : (file (.readFile path)).run.Uses BufferCall.Aside :=
  uses_file (aside_none rfl)

theorem uses_mkdir {dir : Option BufferLocation} :
    (file (.mkdir dir)).run.Uses BufferCall.Aside :=
  uses_file (aside_none rfl)

theorem uses_unlink : (file (.unlink (contextPath location seq))).run.Uses BufferCall.Aside := by
  refine uses_file fun path hpath => ⟨seq, ?_⟩
  rw [List.mem_singleton.mp hpath]
  exact ⟨rfl, rfl⟩

theorem uses_rename :
    (file (.rename (contextPath source seq) (contextPath destination seq))).run.Uses
      BufferCall.Aside := by
  refine uses_file fun path hpath => ⟨seq, ?_⟩
  rcases List.mem_cons.mp hpath with rfl | hpath
  · exact ⟨rfl, rfl⟩
  · rw [List.mem_singleton.mp hpath]
    exact ⟨rfl, rfl⟩

theorem uses_asReport : (asReport text).run.Uses BufferCall.Aside := by
  cases text <;> exact trivial

theorem uses_asContext : (asContext text).run.Uses BufferCall.Aside := by
  cases text <;> exact trivial

theorem uses_fileExists : (fileExists path).run.Uses BufferCall.Aside :=
  uses_catches (uses_chain uses_read fun _ => uses_returns _) fun _ => uses_returns _

theorem uses_isReadableAgentContext : (isReadableAgentContext path).run.Uses BufferCall.Aside :=
  uses_catches (uses_chain uses_read fun _ => uses_chain uses_asContext fun _ => uses_returns _)
    fun _ => uses_returns _

theorem uses_readEntriesIfPresent : (readEntriesIfPresent location).run.Uses BufferCall.Aside :=
  uses_catches (uses_file (aside_none rfl)) fun _ => uses_returns _

theorem uses_moveContext :
    (moveFileIdempotent (contextPath source seq) (contextPath destination seq)).run.Uses
      BufferCall.Aside := by
  refine uses_chain uses_mkdir fun _ => uses_catches uses_rename fun e => ?_
  refine uses_chain ?_ fun moved => ?_
  · unfold alreadyMoved
    by_cases hentry : e.isNoEntry = true
    · rw [if_pos hentry]
      exact uses_fileExists
    · rw [if_neg hentry]
      exact uses_returns _
  · by_cases hmoved : moved = true
    · rw [if_pos hmoved]
      exact uses_returns _
    · rw [if_neg hmoved]
      exact uses_chain (uses_catches uses_unlink fun _ => uses_returns _) fun _ => uses_rename

theorem uses_readSnapshotIfPresent : (readSnapshotIfPresent path).run.Uses BufferCall.Aside := by
  refine uses_chain (uses_catches (uses_chain uses_read fun _ => uses_returns _) fun e => ?_)
    fun raw => ?_
  · by_cases hentry : e.isNoEntry = true
    · rw [if_pos hentry]
      exact uses_returns _
    · rw [if_neg hentry]
      exact uses_throws _
  · cases raw with
    | none => exact uses_returns _
    | some raw =>
        exact uses_catches (uses_chain uses_asReport fun _ => uses_returns _) fun _ => uses_throws _

theorem uses_readAgentContextIfPresent {snapshot : BufferSnapshot} :
    (readAgentContextIfPresent snapshot seq path).run.Uses BufferCall.Aside := by
  unfold readAgentContextIfPresent
  cases snapshot.contextSnapshotRef with
  | none => exact uses_returns _
  | some declaredRef =>
      by_cases hsame : declaredRef ≠ toString seq
      · simp only [if_pos hsame]
        exact uses_returns _
      · simp only [if_neg hsame]
        refine uses_chain (uses_catches (uses_chain uses_read fun _ => uses_returns _) fun _ =>
          uses_returns _) fun raw => ?_
        cases raw with
        | error message => exact uses_returns _
        | ok raw =>
            exact uses_catches (uses_chain uses_asContext fun _ => uses_returns _) fun _ =>
              uses_returns _

theorem uses_findStoredBuffer :
    (findStoredBuffer seq locations).run.Uses BufferCall.Aside := by
  induction locations with
  | nil => exact uses_returns _
  | cons location rest ih =>
      refine uses_chain uses_readSnapshotIfPresent fun found => ?_
      cases found with
      | none => exact ih
      | some snapshot => exact uses_chain uses_readAgentContextIfPresent fun _ => uses_returns _

theorem uses_repairFrom :
    (repairFrom seq locations).run.Uses BufferCall.Aside := by
  induction locations with
  | nil => exact uses_returns _
  | cons location rest ih =>
      refine uses_chain uses_fileExists fun present => ?_
      by_cases hpresent : present = true
      · rw [if_pos hpresent]
        refine uses_chain uses_moveContext fun _ =>
          uses_chain uses_isReadableAgentContext fun readable => ?_
        by_cases hreadable : readable = true
        · rw [if_pos hreadable]
          exact uses_returns _
        · rw [if_neg hreadable]
          exact ih
      · rw [if_neg hpresent]
        exact ih

theorem uses_repairStrandedContext : (repairStrandedContext seq).run.Uses BufferCall.Aside := by
  refine uses_chain uses_isReadableAgentContext fun readable => ?_
  by_cases hreadable : readable = true
  · rw [if_pos hreadable]
    exact uses_returns _
  · rw [if_neg hreadable]
    exact uses_repairFrom

theorem uses_classifyStrandedContext {declaredRef : String} :
    (classifyStrandedContext roleId seq declaredRef reason).run.Uses BufferCall.Aside := by
  refine uses_chain (uses_catches uses_repairStrandedContext fun _ => uses_returns _)
    fun repaired => ?_
  by_cases hrepaired : repaired = true
  · rw [if_pos hrepaired]
    exact uses_returns _
  · rw [if_neg hrepaired]
    exact uses_returns _

theorem uses_classifyProcessedArchive {stored : StoredBuffer} :
    (classifyProcessedArchive roleId seq stored reason).run.Uses BufferCall.Aside := by
  unfold classifyProcessedArchive
  cases stored.snapshot.contextSnapshotRef with
  | none => exact uses_returns _
  | some declaredRef =>
      cases stored.agentContext with
      | present context => exact uses_returns _
      | absent | unreadable => exact uses_classifyStrandedContext

theorem uses_classifyLocated {located : Except BufferError (Option StoredBuffer)} :
    (classifyLocated roleId seq reason located).run.Uses BufferCall.Aside := by
  rcases located with e | _ | ⟨snapshot, agentContext, location⟩
  · exact uses_returns _
  · exact uses_returns _
  · cases location with
    | pending | deadLetter => exact uses_returns _
    | processed => exact uses_classifyProcessedArchive

theorem uses_classifyArchiveFailure {e : BufferError} :
    (classifyArchiveFailure roleId seq e).run.Uses BufferCall.Aside := by
  have hlocate : (locateBuffer seq).run.Uses BufferCall.Aside :=
    uses_catches (uses_chain uses_findStoredBuffer fun _ => uses_returns _) fun _ =>
      uses_returns _
  cases e with
  | partialMove message => exact uses_returns _
  | errno | plain => exact uses_chain hlocate fun _ => uses_classifyLocated

end

end Newide.Memory
