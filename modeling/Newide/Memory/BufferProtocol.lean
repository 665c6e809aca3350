import Newide.Memory.BufferRuns

/-!
# What operations on a buffer may rely on

The invariant of the files of a buffer, and what an operation may rely on
while others run: a report it has taken, and the queue it is in, are left
to it.  One lemma for each kind of call says that the call keeps the
invariant and leaves the others what they rely on.
-/

namespace Newide.Memory

open Threads

/-! ## Sizes of partitions -/

section
variable {disk : BufferDisk} {path : BufferPath} {text : FileText} {location : BufferLocation}

def reportsIn (location : BufferLocation) (names : List BufferPath) : List BufferPath :=
  (names.filter fun path => path.dir = some location).filter BufferPath.isReport

theorem reportsIn_cons_of_not (h : path.isReport = false) (names : List BufferPath) :
    reportsIn location (path :: names) = reportsIn location names := by
  unfold reportsIn
  by_cases hdir : path.dir = some location
  · rw [List.filter_cons_of_pos (by simpa using hdir),
      List.filter_cons_of_neg (Bool.eq_false_iff.mp h)]
  · rw [List.filter_cons_of_neg (by simpa using hdir)]

theorem reportsIn_perm {names others : List BufferPath} (h : names.Perm others) :
    (reportsIn location names).length = (reportsIn location others).length :=
  ((h.filter _).filter _).length_eq

theorem reportsIn_erase (h : path.isReport = false) (names : List BufferPath) :
    (reportsIn location (names.erase path)).length = (reportsIn location names).length := by
  by_cases hin : path ∈ names
  · rw [reportsIn_perm (List.perm_cons_erase hin), reportsIn_cons_of_not h]
  · rw [List.erase_of_not_mem hin]

theorem BufferDisk.size_eq : disk.size location = (reportsIn location disk.keys).length := rfl

theorem BufferDisk.size_insert (h : path.isReport = true → path ∈ disk) :
    BufferDisk.size (disk.insert path text) location = disk.size location := by
  rw [size_eq, size_eq, AList.keys_insert]
  by_cases hreport : path.isReport = true
  · exact (reportsIn_perm (List.perm_cons_erase (h hreport))).symm
  · have hnot : path.isReport = false := Bool.eq_false_iff.mpr hreport
    rw [reportsIn_cons_of_not hnot, reportsIn_erase hnot]

theorem BufferDisk.size_erase (h : path.isReport = false) :
    BufferDisk.size (disk.erase path) location = disk.size location := by
  rw [size_eq, size_eq, AList.keys_erase]
  exact reportsIn_erase h disk.keys

end

/-! ## The invariant -/

/-- The files of a sequence number that are left to who has taken its report. -/
def BufferPath.Belongs (seq : Nat) (path : BufferPath) : Prop :=
  path.name = .report seq ∨ path.name = .context seq ∧ path.temporary = true

theorem BufferPath.Belongs.ne_bufferMeta {seq : Nat} {path : BufferPath} (h : path.Belongs seq) :
    path.name ≠ .bufferMeta := by
  intro hmeta
  rcases h with hname | ⟨hname, _⟩ <;>
  · rw [hmeta] at hname
    cases hname

namespace BufferWorld

/-- The report of a sequence number is as it was. -/
def SameReport (seq : Nat) (w u : BufferWorld) : Prop :=
  (∀ path : BufferPath, path.Belongs seq → u.disk.lookup path = w.disk.lookup path) ∧
    u.lastWritten seq = w.lastWritten seq

def Allotted (w : BufferWorld) (seq : Nat) : Prop :=
  ∃ i, (i, seq) ∈ w.allotted

def CursorAtLeast (w : BufferWorld) (n : Nat) : Prop :=
  ∃ found, w.disk.lookup metaPath = some (.bufferMeta found) ∧ n ≤ found.cursor

/-- The counters of the meta file fit, or somebody has yet to write it. -/
def Counted (w : BufferWorld) : Prop :=
  (∃ i, i ∈ w.stale) ∨
    ∃ found, w.disk.lookup metaPath = some (.bufferMeta found) ∧ found.Fits w.disk

/-- What holds between any two calls of operations that do not clash. -/
structure Kept (w : BufferWorld) : Prop where
  held : ∀ queue i j, (queue, i) ∈ w.held → (queue, j) ∈ w.held → i = j
  taken : ∀ i j seq, (i, seq) ∈ w.taken → (j, seq) ∈ w.taken → i = j
  distinct : (w.allotted.map (·.2)).Nodup
  takenAllotted : ∀ i seq, (i, seq) ∈ w.taken → w.Allotted seq
  filed : ∀ location seq, (w.disk.lookup (reportPath location seq)).isSome → w.Allotted seq
  lives : ∀ seq, w.Allotted seq → (∃ i, (i, seq) ∈ w.taken) ∨
    ∃ location report, w.LivesAt seq location report
  present : w.CursorAtLeast 0
  cursor : (∀ i, (.save, i) ∉ w.held) → ∀ seq, w.Allotted seq → w.CursorAtLeast seq
  counted : (∀ i, (.bufferMeta, i) ∉ w.held) → w.Counted

/-- What the others leave to the thread `i`. -/
structure Undisturbed (i : Nat) (w u : BufferWorld) : Prop where
  reports : ∀ seq, (i, seq) ∈ w.taken → SameReport seq w u
  taken : ∀ seq, (i, seq) ∈ u.taken ↔ (i, seq) ∈ w.taken
  held : ∀ queue, (queue, i) ∈ u.held ↔ (queue, i) ∈ w.held
  stale : i ∈ u.stale ↔ i ∈ w.stale
  allotted : ∀ seq, (i, seq) ∈ u.allotted ↔ (i, seq) ∈ w.allotted
  saving : (.save, i) ∈ w.held → u.allotted = w.allotted
  cursor : ∀ n, w.CursorAtLeast n → u.CursorAtLeast n
  refreshing : (.bufferMeta, i) ∈ w.held →
    (∀ path : BufferPath, path.name = .bufferMeta → u.disk.lookup path = w.disk.lookup path) ∧
      (∀ j, j ≠ i → j ∈ w.stale → j ∈ u.stale) ∧
      ((∀ location, u.disk.size location = w.disk.size location) ∨ ∃ j, j ≠ i ∧ j ∈ u.stale)

/-- A step of the thread `i` that keeps the invariant and what the others rely on. -/
def Fine (i : Nat) (w u : BufferWorld) : Prop :=
  u.Kept ∧ ∀ j, j ≠ i → Undisturbed j w u

end BufferWorld

/-- The call does not find a report that another thread has taken. -/
def BufferCall.Clear (i : Nat) (w : BufferWorld) : BufferCall → Prop
  | .take location seq => (w.disk.lookup (reportPath location seq)).isSome = true →
      ∀ other ∈ w.taken, other.2 = seq → other.1 = i
  | _ => True

/-- Operations on a buffer as threads that rely on one another. -/
def bufferProtocol : Protocol BufferCall BufferCall.Reply BufferWorld where
  exec i c w r u := c.exec i w = some (r, u) ∧ c.Clear i w
  inv := BufferWorld.Kept
  rely := BufferWorld.Undisturbed

/-! ## Steps of a thread -/

variable {own : Nat → Prop} {queue : QueueKey}

section
variable {i : Nat} {seq : Nat} {w u : BufferWorld}

theorem BufferWorld.LivesAt.same {location : BufferLocation} {report : StoredReport}
    (h : w.LivesAt seq location report) (hsame : w.SameReport seq u) :
    u.LivesAt seq location report where
  here := (hsame.1 _ (.inl rfl)).trans h.here
  nowhereElse other hne := (hsame.1 _ (.inl rfl)).trans (h.nowhereElse other hne)
  last := hsame.2.trans h.last

theorem BufferWorld.lives_of_files (hdisk : u.disk = w.disk) (hwritten : u.written = w.written)
    (h : ∃ location report, w.LivesAt seq location report) :
    ∃ location report, u.LivesAt seq location report := by
  obtain ⟨location, report, hat⟩ := h
  refine ⟨location, report, hat.same ⟨fun path _ => by rw [hdisk], ?_⟩⟩
  unfold lastWritten
  rw [hwritten]

/-- A step that writes no meta file, and of the reports only some that are the thread's own. -/
structure BufferWorld.Writes (i : Nat) (own : Nat → Prop) (w u : BufferWorld) : Prop where
  reports : ∀ seq, ¬ own seq → SameReport seq w u
  metaFile : ∀ path : BufferPath, path.name = .bufferMeta →
    u.disk.lookup path = w.disk.lookup path
  held : u.held = w.held
  taken : u.taken = w.taken
  allotted : u.allotted = w.allotted
  stale : u.stale = w.stale ∧ (∀ location, u.disk.size location = w.disk.size location) ∨
    u.stale = i :: w.stale

theorem BufferWorld.Writes.cursorAtLeast (h : w.Writes i own u) {n : Nat} :
    u.CursorAtLeast n ↔ w.CursorAtLeast n := by
  unfold CursorAtLeast
  rw [h.metaFile metaPath rfl]

theorem BufferWorld.Writes.fine (h : w.Writes i own u) (hkept : w.Kept)
    (hown : ∀ seq, own seq → (i, seq) ∈ w.taken) : w.Fine i u := by
  have hallotted (seq : Nat) : u.Allotted seq ↔ w.Allotted seq := by
    unfold Allotted
    rw [h.allotted]
  refine ⟨?_, fun j hj => ?_⟩
  · refine
      { held := h.held ▸ hkept.held
        taken := h.taken ▸ hkept.taken
        distinct := h.allotted ▸ hkept.distinct
        takenAllotted := fun j seq hin =>
          (hallotted seq).mpr (hkept.takenAllotted j seq (h.taken ▸ hin))
        filed := fun location seq hfile => (hallotted seq).mpr ?_
        lives := fun seq hin => ?_
        present := h.cursorAtLeast.mpr hkept.present
        cursor := fun hfree seq hin => h.cursorAtLeast.mpr
          (hkept.cursor (h.held ▸ hfree) seq ((hallotted seq).mp hin))
        counted := fun hfree => ?_ }
    · by_cases hmine : own seq
      · exact hkept.takenAllotted i seq (hown seq hmine)
      · rw [(h.reports seq hmine).1 _ (.inl rfl)] at hfile
        exact hkept.filed location seq hfile
    · by_cases hmine : own seq
      · exact .inl ⟨i, h.taken ▸ hown seq hmine⟩
      · rcases hkept.lives seq ((hallotted seq).mp hin) with htaken | ⟨location, report, hat⟩
        · exact .inl (h.taken ▸ htaken)
        · exact .inr ⟨location, report, hat.same (h.reports seq hmine)⟩
    · rcases h.stale with ⟨hstale, hsize⟩ | hstale
      · rcases hkept.counted (h.held ▸ hfree) with hstale' | ⟨found, hfound, hfits⟩
        · exact .inl (hstale ▸ hstale')
        · refine .inr ⟨found, (h.metaFile metaPath rfl).trans hfound, ?_⟩
          unfold BufferMeta.Fits at hfits ⊢
          rwa [hsize, hsize, hsize]
      · exact .inl ⟨i, hstale ▸ List.mem_cons_self⟩
  · refine
      { reports := fun seq hin => h.reports seq fun hmine => ?_
        taken := fun seq => by rw [h.taken]
        held := fun queue => by rw [h.held]
        stale := ?_
        allotted := fun seq => by rw [h.allotted]
        saving := fun _ => h.allotted
        cursor := fun n => h.cursorAtLeast.mpr
        refreshing := fun _ => ⟨h.metaFile, fun k _ hk => ?_, ?_⟩ }
    · exact hj (hkept.taken j i seq hin (hown seq hmine))
    · rcases h.stale with ⟨hstale, _⟩ | hstale
      · rw [hstale]
      · rw [hstale, List.mem_cons, or_iff_right hj]
    · rcases h.stale with ⟨hstale, _⟩ | hstale
      · exact hstale ▸ hk
      · exact hstale ▸ List.mem_cons_of_mem _ hk
    · rcases h.stale with ⟨_, hsize⟩ | hstale
      · exact .inl hsize
      · exact .inr ⟨i, hj.symm, hstale ▸ List.mem_cons_self⟩

/-- A step of the thread that is in the queue of the meta file; it writes that file only. -/
structure BufferWorld.Refreshes (w u : BufferWorld) : Prop where
  disk : ∀ path : BufferPath, path.name ≠ .bufferMeta →
    u.disk.lookup path = w.disk.lookup path
  size : ∀ location, u.disk.size location = w.disk.size location
  cursor : ∀ n, w.CursorAtLeast n → u.CursorAtLeast n
  written : u.written = w.written
  held : u.held = w.held
  taken : u.taken = w.taken
  allotted : u.allotted = w.allotted
  stale : u.stale = w.stale

theorem BufferWorld.Refreshes.sameReport (h : w.Refreshes u) (seq : Nat) : w.SameReport seq u := by
  refine ⟨fun path hpath => h.disk path hpath.ne_bufferMeta, ?_⟩
  unfold lastWritten
  rw [h.written]

theorem BufferWorld.Refreshes.fine (h : w.Refreshes u) (hkept : w.Kept)
    (hin : (.bufferMeta, i) ∈ w.held) : w.Fine i u := by
  have hallotted (seq : Nat) : u.Allotted seq ↔ w.Allotted seq := by
    unfold Allotted
    rw [h.allotted]
  refine ⟨?_, fun j hj => ?_⟩
  · refine
      { held := h.held ▸ hkept.held
        taken := h.taken ▸ hkept.taken
        distinct := h.allotted ▸ hkept.distinct
        takenAllotted := fun j seq hin =>
          (hallotted seq).mpr (hkept.takenAllotted j seq (h.taken ▸ hin))
        filed := fun location seq hfile => ?_
        lives := fun seq hin => ?_
        present := h.cursor 0 hkept.present
        cursor := fun hfree seq hin => h.cursor seq
          (hkept.cursor (h.held ▸ hfree) seq ((hallotted seq).mp hin))
        counted := fun hfree => absurd (h.held ▸ hin) (hfree i) }
    · rw [(h.sameReport seq).1 _ (.inl rfl)] at hfile
      exact (hallotted seq).mpr (hkept.filed location seq hfile)
    · rcases hkept.lives seq ((hallotted seq).mp hin) with htaken | ⟨location, report, hat⟩
      · exact .inl (h.taken ▸ htaken)
      · exact .inr ⟨location, report, hat.same (h.sameReport seq)⟩
  · exact
      { reports := fun seq _ => h.sameReport seq
        taken := fun seq => by rw [h.taken]
        held := fun queue => by rw [h.held]
        stale := by rw [h.stale]
        allotted := fun seq => by rw [h.allotted]
        saving := fun _ => h.allotted
        cursor := h.cursor
        refreshing := fun hmine => absurd (hkept.held .bufferMeta j i hmine hin) hj }

/-! ## Steps that write no file -/

/-- A thread enters a queue nobody is in; with the queue of the meta file it begins to write it. -/
theorem BufferWorld.enter_fine (hkept : w.Kept) (hfree : ∀ j, (queue, j) ∉ w.held) :
    w.Fine i
      { w with
        held := (queue, i) :: w.held
        stale := if queue = .bufferMeta then w.stale.filter (· ≠ i) else w.stale } := by
  have hstale (j : Nat) (hj : j ≠ i) :
      (j ∈ if queue = .bufferMeta then w.stale.filter (· ≠ i) else w.stale) ↔ j ∈ w.stale := by
    by_cases hqueue : queue = .bufferMeta
    · rw [if_pos hqueue, List.mem_filter]
      exact and_iff_left (by simpa using hj)
    · rw [if_neg hqueue]
  refine ⟨?_, fun j hj => ?_⟩
  · refine
      { held := fun other j k hj hk => ?_
        taken := hkept.taken
        distinct := hkept.distinct
        takenAllotted := hkept.takenAllotted
        filed := hkept.filed
        lives := fun seq hin => (hkept.lives seq hin).imp_right (lives_of_files (w := w) rfl rfl)
        present := hkept.present
        cursor := fun hout => hkept.cursor fun j hin => hout j (List.mem_cons_of_mem _ hin)
        counted := fun hout => ?_ }
    · rcases List.mem_cons.mp hj with hj | hj
      · cases hj
        rcases List.mem_cons.mp hk with hk | hk
        · cases hk
          rfl
        · exact absurd hk (hfree k)
      · rcases List.mem_cons.mp hk with hk | hk
        · cases hk
          exact absurd hj (hfree j)
        · exact hkept.held other j k hj hk
    · by_cases hqueue : queue = .bufferMeta
      · exact absurd (hqueue ▸ List.mem_cons_self) (hout i)
      · have hcounted := hkept.counted fun j hin => hout j (List.mem_cons_of_mem _ hin)
        unfold Counted at hcounted ⊢
        simpa only [if_neg hqueue] using hcounted
  · exact
      { reports := fun seq _ => ⟨fun path _ => rfl, rfl⟩
        taken := fun seq => Iff.rfl
        held := fun other => by
          rw [List.mem_cons, or_iff_right]
          intro hsame
          cases hsame
          exact hj rfl
        stale := hstale j hj
        allotted := fun seq => Iff.rfl
        saving := fun _ => rfl
        cursor := fun n h => h
        refreshing := fun hmine => ⟨fun path _ => rfl, fun k hk hin => by
          have hqueue : queue ≠ .bufferMeta := by
            rintro rfl
            exact hfree j hmine
          rwa [if_neg hqueue], .inl fun location => rfl⟩ }

theorem BufferWorld.leave_fine (hkept : w.Kept)
    (hsave : queue = .save → ∀ seq, w.Allotted seq → w.CursorAtLeast seq)
    (hmeta : queue = .bufferMeta → w.Counted) :
    w.Fine i { w with held := w.held.filter (· ≠ (queue, i)) } := by
  have hheld (other : QueueKey) (j : Nat) :
      (other, j) ∈ w.held.filter (· ≠ (queue, i)) ↔ (other, j) ∈ w.held ∧ (other, j) ≠ (queue, i) := by
    rw [List.mem_filter, decide_eq_true_iff]
  have hfree (other : QueueKey) (hne : other ≠ queue)
      (hout : ∀ j, (other, j) ∉ w.held.filter (· ≠ (queue, i))) (j : Nat) : (other, j) ∉ w.held := by
    intro hj
    refine hout j ((hheld other j).mpr ⟨hj, fun hsame => ?_⟩)
    cases hsame
    exact hne rfl
  refine ⟨?_, fun j hj => ?_⟩
  · refine
      { held := fun other j k hj hk =>
          hkept.held other j k ((hheld other j).mp hj).1 ((hheld other k).mp hk).1
        taken := hkept.taken
        distinct := hkept.distinct
        takenAllotted := hkept.takenAllotted
        filed := hkept.filed
        lives := fun seq hin => (hkept.lives seq hin).imp_right (lives_of_files (w := w) rfl rfl)
        present := hkept.present
        cursor := fun hout => ?_
        counted := fun hout => ?_ }
    · by_cases hqueue : queue = .save
      · exact hsave hqueue
      · exact hkept.cursor (hfree .save (Ne.symm hqueue) hout)
    · by_cases hqueue : queue = .bufferMeta
      · exact hmeta hqueue
      · exact hkept.counted (hfree .bufferMeta (Ne.symm hqueue) hout)
  · exact
      { reports := fun seq _ => ⟨fun path _ => rfl, rfl⟩
        taken := fun seq => Iff.rfl
        held := fun other => by
          rw [hheld, and_iff_left]
          intro hsame
          cases hsame
          exact hj rfl
        stale := Iff.rfl
        allotted := fun seq => Iff.rfl
        saving := fun _ => rfl
        cursor := fun n h => h
        refreshing := fun _ => ⟨fun path _ => rfl, fun k _ hk => hk, .inl fun location => rfl⟩ }

theorem BufferWorld.take_fine (hkept : w.Kept) (hallotted : w.Allotted seq)
    (hclear : ∀ other ∈ w.taken, other.2 = seq → other.1 = i) :
    w.Fine i { w with taken := (i, seq) :: w.taken } := by
  refine ⟨?_, fun j hj => ?_⟩
  · refine
      { held := hkept.held
        taken := fun j k other hj hk => ?_
        distinct := hkept.distinct
        takenAllotted := fun j other hin => ?_
        filed := hkept.filed
        lives := fun other hin => ?_
        present := hkept.present
        cursor := hkept.cursor
        counted := hkept.counted }
    · rcases List.mem_cons.mp hj with hj | hj
      · cases hj
        rcases List.mem_cons.mp hk with hk | hk
        · cases hk
          rfl
        · exact (hclear _ hk rfl).symm
      · rcases List.mem_cons.mp hk with hk | hk
        · cases hk
          exact hclear _ hj rfl
        · exact hkept.taken j k other hj hk
    · rcases List.mem_cons.mp hin with hin | hin
      · cases hin
        exact hallotted
      · exact hkept.takenAllotted j other hin
    · rcases hkept.lives other hin with ⟨j, hj⟩ | hat
      · exact .inl ⟨j, List.mem_cons_of_mem _ hj⟩
      · exact .inr (lives_of_files (w := w) rfl rfl hat)
  · exact
      { reports := fun seq _ => ⟨fun path _ => rfl, rfl⟩
        taken := fun other => by
          rw [List.mem_cons, or_iff_right]
          intro hsame
          cases hsame
          exact hj rfl
        held := fun queue => Iff.rfl
        stale := Iff.rfl
        allotted := fun other => Iff.rfl
        saving := fun _ => rfl
        cursor := fun n h => h
        refreshing := fun _ => ⟨fun path _ => rfl, fun k _ hk => hk, .inl fun location => rfl⟩ }

theorem BufferWorld.settle_fine (hkept : w.Kept)
    (hlives : (i, seq) ∈ w.taken → ∃ location report, w.LivesAt seq location report) :
    w.Fine i { w with taken := w.taken.filter (· ≠ (i, seq)) } := by
  have htaken (j other : Nat) :
      (j, other) ∈ w.taken.filter (· ≠ (i, seq)) ↔ (j, other) ∈ w.taken ∧ (j, other) ≠ (i, seq) := by
    rw [List.mem_filter, decide_eq_true_iff]
  refine ⟨?_, fun j hj => ?_⟩
  · refine
      { held := hkept.held
        taken := fun j k other hj hk =>
          hkept.taken j k other ((htaken j other).mp hj).1 ((htaken k other).mp hk).1
        distinct := hkept.distinct
        takenAllotted := fun j other hin => hkept.takenAllotted j other ((htaken j other).mp hin).1
        filed := hkept.filed
        lives := fun other hin => ?_
        present := hkept.present
        cursor := hkept.cursor
        counted := hkept.counted }
    rcases hkept.lives other hin with ⟨j, hj⟩ | hat
    · by_cases hsame : (j, other) = (i, seq)
      · cases hsame
        obtain ⟨location, report, hat⟩ := hlives hj
        exact .inr (lives_of_files (w := w) rfl rfl ⟨location, report, hat⟩)
      · exact .inl ⟨j, (htaken j other).mpr ⟨hj, hsame⟩⟩
    · exact .inr (lives_of_files (w := w) rfl rfl hat)
  · exact
      { reports := fun seq _ => ⟨fun path _ => rfl, rfl⟩
        taken := fun other => by
          rw [htaken, and_iff_left]
          intro hsame
          cases hsame
          exact hj rfl
        held := fun queue => Iff.rfl
        stale := Iff.rfl
        allotted := fun other => Iff.rfl
        saving := fun _ => rfl
        cursor := fun n h => h
        refreshing := fun _ => ⟨fun path _ => rfl, fun k _ hk => hk, .inl fun location => rfl⟩ }

theorem BufferWorld.allot_fine (hkept : w.Kept) (hin : (.save, i) ∈ w.held)
    (hnew : ¬ w.Allotted seq) :
    w.Fine i
      { w with allotted := (i, seq) :: w.allotted, taken := (i, seq) :: w.taken } := by
  have huntaken (j : Nat) : (j, seq) ∉ w.taken := fun hj => hnew (hkept.takenAllotted j seq hj)
  refine ⟨?_, fun j hj => ?_⟩
  · refine
      { held := hkept.held
        taken := fun j k other hj hk => ?_
        distinct := ?_
        takenAllotted := fun j other hin => ?_
        filed := fun location other hfile => ?_
        lives := fun other hother => ?_
        present := hkept.present
        cursor := fun hout => absurd hin (hout i)
        counted := hkept.counted }
    · rcases List.mem_cons.mp hj with hj | hj
      · cases hj
        rcases List.mem_cons.mp hk with hk | hk
        · cases hk
          rfl
        · exact absurd hk (huntaken k)
      · rcases List.mem_cons.mp hk with hk | hk
        · cases hk
          exact absurd hj (huntaken j)
        · exact hkept.taken j k other hj hk
    · rw [List.map_cons, List.nodup_cons]
      refine ⟨fun hmem => hnew ?_, hkept.distinct⟩
      obtain ⟨⟨j, other⟩, hj, rfl⟩ := List.mem_map.mp hmem
      exact ⟨j, hj⟩
    · rcases List.mem_cons.mp hin with hin | hin
      · cases hin
        exact ⟨i, List.mem_cons_self⟩
      · exact (hkept.takenAllotted j other hin).imp fun k hk => List.mem_cons_of_mem _ hk
    · exact (hkept.filed location other hfile).imp fun k hk => List.mem_cons_of_mem _ hk
    · obtain ⟨j, hj⟩ := hother
      rcases List.mem_cons.mp hj with hj | hj
      · cases hj
        exact .inl ⟨i, List.mem_cons_self⟩
      · rcases hkept.lives other ⟨j, hj⟩ with ⟨k, hk⟩ | hat
        · exact .inl ⟨k, List.mem_cons_of_mem _ hk⟩
        · exact .inr (lives_of_files (w := w) rfl rfl hat)
  · have hother (seq other : Nat) (entries : List (Nat × Nat)) :
        (j, other) ∈ (i, seq) :: entries ↔ (j, other) ∈ entries := by
      rw [List.mem_cons, or_iff_right]
      intro hsame
      cases hsame
      exact hj rfl
    exact
      { reports := fun seq _ => ⟨fun path _ => rfl, rfl⟩
        taken := fun other => hother seq other w.taken
        held := fun queue => Iff.rfl
        stale := Iff.rfl
        allotted := fun other => hother seq other w.allotted
        saving := fun hmine => absurd (hkept.held .save j i hmine hin) hj
        cursor := fun n h => h
        refreshing := fun _ => ⟨fun path _ => rfl, fun k _ hk => hk, .inl fun location => rfl⟩ }

end

end Newide.Memory
