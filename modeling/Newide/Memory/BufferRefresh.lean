import Newide.Memory.BufferMoves

/-!
# The meta file is refreshed

A thread that is in the queue of the meta file reads it, counts the
reports of each partition and writes it anew.  A count may be overtaken
by another thread; that one has yet to refresh the file itself.
-/

namespace Newide.Memory

open Threads Threads.Protocol BufferWorld Safe Answers BufferMeta

variable {count n : Nat} {roleId : String} {α : Type} {K : α → BufferWorld → Prop}

section
variable {i : Nat} {w u : BufferWorld} {c : FileCall} {A : BufferWorld → Prop}
  {location : BufferLocation} {found : BufferMeta}

/-! ## In a queue -/

def BufferWorld.entered (i : Nat) (queue : QueueKey) (w : BufferWorld) : BufferWorld :=
  { w with
    held := (queue, i) :: w.held
    stale := if queue = .bufferMeta then w.stale.filter (· ≠ i) else w.stale }

def BufferWorld.left (i : Nat) (queue : QueueKey) (w : BufferWorld) : BufferWorld :=
  { w with held := w.held.filter (· ≠ (queue, i)) }

theorem safe_enqueue {queue : QueueKey} {operation : BufferRoutine α} {B : BufferWorld → Prop}
    {L R : Except BufferError α → BufferWorld → Prop} (hA : bufferProtocol.Stable i A)
    (hL : ∀ r, bufferProtocol.Stable i (L r)) (hR : ∀ r, bufferProtocol.Stable i (R r)) (hw : A w)
    (henter : ∀ t, A t → t.Kept → (∀ j, (queue, j) ∉ t.held) → B (t.entered i queue))
    (hoperation : ∀ u, B u → bufferProtocol.Safe i L operation.run u)
    (hsave : queue = .save → ∀ r v, L r v → ∀ seq, v.Allotted seq → v.CursorAtLeast seq)
    (hmeta : queue = .bufferMeta → ∀ r v, L r v → v.Counted)
    (hleave : ∀ r v, L r v → R r (v.left i queue)) :
    bufferProtocol.Safe i R (enqueue queue operation).run w := by
  refine call hA hw fun t r u ht hkept hexec => ?_
  obtain ⟨hexec, _⟩ := hexec
  simp only [BufferCall.exec] at hexec
  split at hexec
  · cases hexec
  · next hbusy =>
      cases hexec
      have hfree (j : Nat) : (queue, j) ∉ t.held := by
        intro hin
        exact hbusy (List.any_eq_true.mpr ⟨_, hin, by simp⟩)
      obtain ⟨hentered, hother⟩ := enter_fine (i := i) hkept hfree
      refine ⟨hentered, hother, bind ((hoperation _ (henter t ht hkept hfree)).mono
        fun r v hv => call (hL r) hv fun v r' v' hv hkept' hexec' => ?_)⟩
      cases hexec'.1
      obtain ⟨hleft, hothers⟩ := leave_fine (i := i) hkept'
        (fun hqueue => hsave hqueue r v hv) (fun hqueue => hmeta hqueue r v hv)
      exact ⟨hleft, hothers, done (hR r) (hleave r v hv)⟩

/-! ## What a thread knows in the queue of the meta file -/

structure BufferWorld.Inside (i : Nat) (A : BufferWorld → Prop) (found : BufferMeta)
    (w : BufferWorld) : Prop where
  held : (.bufferMeta, i) ∈ w.held
  clean : i ∉ w.stale
  known : w.disk.lookup metaPath = some (.bufferMeta found)
  frame : A w

theorem BufferWorld.Inside.stable (hA : Framed i A) :
    bufferProtocol.Stable i (Inside i A found) :=
  fun w u h hrely =>
    { held := (hrely.held .bufferMeta).mpr h.held
      clean := fun hin => h.clean (hrely.stale.mp hin)
      known := ((hrely.refreshing h.held).1 metaPath rfl).trans h.known
      frame := hA.stable w u h.frame hrely }

/-- A count is right, or overtaken by somebody who has yet to refresh the meta file. -/
def BufferWorld.CountOf (i : Nat) (location : BufferLocation) (count : Nat) (w : BufferWorld) :
    Prop :=
  (.bufferMeta, i) ∈ w.held ∧
    (count = w.disk.size location ∨ ∃ j, j ≠ i ∧ j ∈ w.stale)

theorem BufferWorld.CountOf.stable :
    bufferProtocol.Stable i (CountOf i location count) := by
  intro w u ⟨hheld, hcount⟩ hrely
  obtain ⟨_, hstale, hsize⟩ := hrely.refreshing hheld
  refine ⟨(hrely.held .bufferMeta).mpr hheld, ?_⟩
  rcases hcount with hcount | ⟨j, hj, hin⟩
  · rcases hsize with hsize | hsome
    · exact .inl (hcount.trans (hsize location).symm)
    · exact .inr hsome
  · exact .inr ⟨j, hj, hstale j hj hin⟩

theorem Local.inside (hA : Framed i A) : Local i (BufferWorld.Inside i A found) where
  stable := BufferWorld.Inside.stable hA
  aside w c haside h := by
    have hstep : w.Elsewhere i (w.afterFile i c) := haside.elsewhere
    have hwrites : w.Writes i (fun _ => False) (w.afterFile i c) :=
      afterFile_writes fun path hpath => .inr (haside path hpath)
    exact
      { held := h.held
        clean := hstep.clean h.clean
        known := (hwrites.metaFile metaPath rfl).trans h.known
        frame := hA.elsewhere w _ h.frame hstep }

theorem Local.countOf : Local i (BufferWorld.CountOf i location count) where
  stable := BufferWorld.CountOf.stable
  aside w c haside h := by
    have hsize (other : BufferLocation) :
        BufferDisk.size (c.exec w.disk).2 other = w.disk.size other :=
      FileCall.size_exec haside.isReport
    have hstale : (w.afterFile i c).stale = w.stale := stale_afterFile hsize
    refine ⟨h.1, ?_⟩
    rw [hstale]
    exact h.2.imp_left fun hcount => hcount.trans (hsize location).symm

variable {B : BufferWorld → Prop}

theorem safe_look {R : Except BufferError c.Answer → BufferWorld → Prop} (hB : Local i B)
    (haside : c.Aside) (hR : ∀ r, bufferProtocol.Stable i (R r)) (hw : B w)
    (h : ∀ t, B (t.afterFile i c) → B t → R (thrown (c.exec t.disk).1) (t.afterFile i c)) :
    bufferProtocol.Safe i R (file c).run w := by
  refine safe_file hB.stable hR hw fun t ht hkept => ⟨?_, h t (hB.aside t c haside ht) ht⟩
  exact (afterFile_writes fun path hpath => .inr (haside path hpath)).fine hkept
    fun _ => False.elim

/-- The result of a routine, and what is known then. -/
def Yields {α : Type} (K : α → BufferWorld → Prop) : Except BufferError α → BufferWorld → Prop :=
  fun r w => ∃ a, r = .ok a ∧ K a w

theorem Yields.stable (hK : ∀ a, bufferProtocol.Stable i (K a)) (r : Except BufferError α) :
    bufferProtocol.Stable i (Yields K r) := by
  rintro w u ⟨a, hr, ha⟩ hrely
  exact ⟨a, hr, hK a w u ha hrely⟩

theorem safe_yields {β : Type} {x : BufferRoutine α} {f : α → BufferRoutine β}
    {R : Except BufferError β → BufferWorld → Prop} (hx : bufferProtocol.Safe i (Yields K) x.run w)
    (hf : ∀ a u, K a u → bufferProtocol.Safe i R (f a).run u) :
    bufferProtocol.Safe i R (x >>= f).run w := by
  refine chain_of_ok (hx.mono fun r u hr => ?_)
  obtain ⟨a, rfl, hu⟩ := hr
  exact ⟨a, rfl, hf a u hu⟩

theorem safe_readEntries (hB : Local i B) (hheld : ∀ w, B w → (.bufferMeta, i) ∈ w.held)
    (hw : B w) :
    bufferProtocol.Safe i
      (Yields fun entries u => B u ∧ u.CountOf i location (reportCount entries))
      (readEntriesIfPresent location).run w := by
  have haside : FileCall.Aside (.readdir location) := aside_none rfl
  have hstable (entries : List BufferPath) : bufferProtocol.Stable i
      fun u => B u ∧ u.CountOf i location (reportCount entries) :=
    (hB.and .countOf).stable
  refine catches_of_ok (fun a => Yields.stable hstable _) ?_
  refine (safe_look hB haside (Yields.stable hstable) hw fun t hafter ht => ?_).mono
    fun r u ⟨entries, hr, hu⟩ => ⟨entries, hr, entries, rfl, hu⟩
  exact ⟨_, rfl, hafter, hheld _ hafter, .inl rfl⟩

/-- The counts of a scan, each right or overtaken. -/
def BufferWorld.Scanned (i : Nat) (scan : BufferStoreScan) (w : BufferWorld) : Prop :=
  w.CountOf i .pending scan.pendingCount ∧ w.CountOf i .processed scan.totalProcessed ∧
    w.CountOf i .deadLetter scan.totalDeadLetters

theorem Local.scanned {scan : BufferStoreScan} : Local i (BufferWorld.Scanned i scan) :=
  Local.countOf.and (Local.countOf.and .countOf)

theorem safe_scanStore (hB : Local i B) (hheld : ∀ w, B w → (.bufferMeta, i) ∈ w.held)
    (hw : B w) :
    bufferProtocol.Safe i (Yields fun scan u => B u ∧ u.Scanned i scan) scanStore.run w := by
  refine safe_yields (safe_readEntries hB hheld hw) fun pending t ht => ?_
  refine safe_yields (safe_readEntries (hB.and .countOf) (fun w h => hheld w h.1) ht)
    fun processed u hu => ?_
  refine safe_yields (safe_readEntries ((hB.and .countOf).and .countOf)
    (fun w h => hheld w h.1.1) hu) fun deadLetter v hv => ?_
  refine returns (Yields.stable (fun scan => (hB.and .scanned).stable) _) ?_
  exact ⟨_, rfl, hv.1.1.1, hv.1.1.2, hv.1.2, hv.2⟩

theorem safe_readMeta {C : BufferMeta → BufferWorld → Prop} (hB : Local i B)
    (hC : ∀ found, Local i (C found)) (hknown : ∀ t, B t → t.Kept →
      ∃ found, t.disk.lookup metaPath = some (.bufferMeta found) ∧ C found t) (hw : B w) :
    bufferProtocol.Safe i (Yields C) (readBufferMeta roleId).run w := by
  have hstable := Yields.stable fun found => (hC found).stable
  have haside : FileCall.Aside (.readFile metaPath) := aside_none rfl
  have hread : bufferProtocol.Safe i
      (Yields fun text u => ∃ found, text = .bufferMeta found ∧ C found u)
      (file (.readFile metaPath)).run w := by
    refine safe_file hB.stable (Yields.stable fun text w u h hrely => ?_) hw
      fun t ht hkept => ⟨?_, ?_⟩
    · obtain ⟨found, htext, hfound⟩ := h
      exact ⟨found, htext, (hC found).stable w u hfound hrely⟩
    · exact (afterFile_writes fun path hpath => .inr (haside path hpath)).fine hkept
        fun _ => False.elim
    · obtain ⟨found, hfile, hfound⟩ := hknown t ht hkept
      refine ⟨.bufferMeta found, ?_, found, rfl, (hC found).aside t _ haside hfound⟩
      simp only [FileCall.exec, hfile]
      rfl
  refine catches_of_ok (fun a => hstable _) ?_
  refine safe_yields hread fun text t hyields => ?_
  obtain ⟨found, rfl, hfound⟩ := hyields
  refine returns ?_ ⟨found, rfl, found, rfl, hfound⟩
  exact Yields.stable (fun a => hstable (.ok a)) _

theorem safe_readMetaOrUndefined (hB : Local i B)
    (hknown : ∀ w, B w → w.disk.lookup metaPath = some (.bufferMeta found)) (hw : B w) :
    bufferProtocol.Safe i (Answers (some found) B) (readBufferMetaOrUndefined roleId).run w := by
  have hstable := fun r => stable (i := i) (a := some found) hB.stable r
  have hsame (other : BufferMeta) : Local i fun w => other = found ∧ B w :=
    { stable := fun w u h hrely => ⟨h.1, hB.stable w u h.2 hrely⟩
      aside := fun w c haside h => ⟨h.1, hB.aside w c haside h.2⟩ }
  refine catches_of_ok (fun a => hstable _) ?_
  refine safe_yields (safe_readMeta hB hsame (fun t ht _ => ⟨found, hknown t ht, rfl, ht⟩) hw)
    fun other t ⟨hother, ht⟩ => ?_
  cases hother
  exact returns (Yields.stable (fun _ => hstable _) _) ⟨some found, rfl, rfl, ht⟩

/-! ## The meta file is written -/

theorem BufferWorld.afterFile_refreshes (h : ∀ path ∈ c.touches, path.name = .bufferMeta)
    (hcursor : ∀ n, w.CursorAtLeast n → (w.afterFile i c).CursorAtLeast n) :
    w.Refreshes (w.afterFile i c) := by
  have hsize (location : BufferLocation) :
      BufferDisk.size (c.exec w.disk).2 location = w.disk.size location := by
    refine FileCall.size_exec fun path hpath => ?_
    simp [BufferPath.isReport, h path hpath]
  refine
    { disk := fun path hname => FileCall.lookup_exec fun hin => hname (h path hin)
      size := hsize
      cursor := hcursor
      written := ?_
      held := rfl
      taken := rfl
      allotted := rfl
      stale := stale_afterFile hsize }
  show w.written ++ (c.written w.disk).toList = w.written
  cases hwritten : c.written w.disk with
  | none => exact List.append_nil _
  | some entry =>
      obtain ⟨path, hpath, hname, _⟩ := FileCall.written_eq_some hwritten
      rw [h path hpath] at hname
      cases hname

theorem BufferWorld.Refreshes.elsewhere (h : w.Refreshes u) : w.Elsewhere i u where
  reports := h.sameReport
  cursor := h.cursor
  held queue _ := by rw [h.held]
  taken := h.taken
  allotted := h.allotted
  clean hclean := h.stale ▸ hclean

theorem BufferWorld.Scanned.refreshes {scan : BufferStoreScan} (h : w.Scanned i scan)
    (hstep : w.Refreshes u) : u.Scanned i scan := by
  have hcount (location : BufferLocation) (count : Nat) (hcount : w.CountOf i location count) :
      u.CountOf i location count := by
    unfold CountOf at hcount ⊢
    rwa [hstep.held, hstep.size, hstep.stale]
  exact ⟨hcount _ _ h.1, hcount _ _ h.2.1, hcount _ _ h.2.2⟩

/-- The temporary file beside the meta file. -/
def BufferWorld.MetaDrafted (i : Nat) (next : BufferMeta) (w : BufferWorld) : Prop :=
  (.bufferMeta, i) ∈ w.held ∧ w.disk.lookup metaPath.tmp = some (.bufferMeta next)

theorem BufferWorld.MetaDrafted.stable {next : BufferMeta} :
    bufferProtocol.Stable i (MetaDrafted i next) :=
  fun _ _ h hrely => ⟨(hrely.held .bufferMeta).mpr h.1,
    ((hrely.refreshing h.1).1 _ rfl).trans h.2⟩

variable {scan : BufferStoreScan} {next : BufferMeta}

theorem safe_draftMeta (hA : Framed i A)
    (hw : w.Inside i A found ∧ w.Scanned i scan) :
    bufferProtocol.Safe i
      (Answers () fun u => (u.Inside i A found ∧ u.Scanned i scan) ∧ u.MetaDrafted i next)
      (file (.writeFile metaPath.tmp (.bufferMeta next))).run w := by
  have hbefore : Local i fun u => u.Inside i A found ∧ u.Scanned i scan :=
    (Local.inside hA).and .scanned
  have hstable : bufferProtocol.Stable i fun u =>
      (BufferWorld.Inside i A found u ∧ u.Scanned i scan) ∧ u.MetaDrafted i next :=
    fun w u h hrely => ⟨hbefore.stable w u h.1 hrely, BufferWorld.MetaDrafted.stable w u h.2 hrely⟩
  refine safe_file hbefore.stable (stable hstable) hw fun t ht hkept => ?_
  have hsame : (t.afterFile i (.writeFile metaPath.tmp (.bufferMeta next))).disk.lookup metaPath =
      t.disk.lookup metaPath := AList.lookup_insert_ne nofun
  have hstep : t.Refreshes (t.afterFile i (.writeFile metaPath.tmp (.bufferMeta next))) := by
    refine afterFile_refreshes (fun path hpath => ?_) fun n hn => ?_
    · rw [List.mem_singleton.mp hpath]
      rfl
    · unfold BufferWorld.CursorAtLeast
      rwa [hsame]
  refine ⟨hstep.fine hkept ht.1.held, rfl, ⟨?_, ht.2.refreshes hstep⟩, ht.1.held,
    AList.lookup_insert t.disk⟩
  exact
    { held := ht.1.held
      clean := hstep.stale ▸ ht.1.clean
      known := hsame.trans ht.1.known
      frame := hA.elsewhere t _ ht.1.frame hstep.elsewhere }

theorem safe_placeMeta (hA : Framed i A) (hcursor : found.cursor ≤ next.cursor)
    (hw : (w.Inside i A found ∧ w.Scanned i scan) ∧ w.MetaDrafted i next) :
    bufferProtocol.Safe i
      (Answers () fun u => u.Inside i A next ∧ u.Scanned i scan)
      (file (.rename metaPath.tmp metaPath)).run w := by
  have hbefore : Local i fun u => u.Inside i A found ∧ u.Scanned i scan :=
    (Local.inside hA).and .scanned
  have hafter : Local i fun u => u.Inside i A next ∧ u.Scanned i scan :=
    (Local.inside hA).and .scanned
  have hstable : bufferProtocol.Stable i fun u =>
      (BufferWorld.Inside i A found u ∧ u.Scanned i scan) ∧ u.MetaDrafted i next :=
    fun w u h hrely => ⟨hbefore.stable w u h.1 hrely, BufferWorld.MetaDrafted.stable w u h.2 hrely⟩
  refine safe_file hstable (stable hafter.stable) hw fun t ht hkept => ?_
  obtain ⟨⟨hinside, hscanned⟩, _, hdraft⟩ := ht
  have hexec : FileCall.exec (.rename metaPath.tmp metaPath) t.disk =
      (.ok (), (t.disk.erase metaPath.tmp).insert metaPath (.bufferMeta next)) := by
    simp only [FileCall.exec, hdraft]
  have hknown : (t.afterFile i (.rename metaPath.tmp metaPath)).disk.lookup metaPath =
      some (.bufferMeta next) := by
    show (FileCall.exec _ t.disk).2.lookup metaPath = _
    rw [hexec]
    exact AList.lookup_insert _
  have hstep : t.Refreshes (t.afterFile i (.rename metaPath.tmp metaPath)) := by
    refine afterFile_refreshes (fun path hpath => ?_) fun n hn => ?_
    · rcases List.mem_cons.mp hpath with rfl | hpath
      · rfl
      · rw [List.mem_singleton.mp hpath]
        rfl
    · obtain ⟨old, hold, hle⟩ := hn
      rw [hinside.known] at hold
      cases hold
      exact ⟨next, hknown, hle.trans hcursor⟩
  refine ⟨hstep.fine hkept hinside.held, ?_, ?_, hscanned.refreshes hstep⟩
  · rw [hexec]
    rfl
  · exact
      { held := hinside.held
        clean := hstep.stale ▸ hinside.clean
        known := hknown
        frame := hA.elsewhere t _ hinside.frame hstep.elsewhere }

theorem BufferWorld.Scanned.counted (h : w.Scanned i scan) (hknown : w.disk.lookup metaPath =
      some (.bufferMeta found)) (hpending : found.pendingCount = scan.pendingCount)
    (hprocessed : found.totalProcessed = scan.totalProcessed)
    (hdeadLetter : found.totalDeadLetters = scan.totalDeadLetters) : w.Counted := by
  obtain ⟨⟨_, h1⟩, ⟨_, h2⟩, ⟨_, h3⟩⟩ := h
  rcases h1 with h1 | ⟨j, _, hj⟩
  · rcases h2 with h2 | ⟨j, _, hj⟩
    · rcases h3 with h3 | ⟨j, _, hj⟩
      · exact .inr ⟨found, hknown, hpending.trans h1, hprocessed.trans h2, hdeadLetter.trans h3⟩
      · exact .inl ⟨j, hj⟩
    · exact .inl ⟨j, hj⟩
  · exact .inl ⟨j, hj⟩

theorem safe_writeMeta (hA : Framed i A) (hcursor : found.cursor ≤ next.cursor)
    (hw : w.Inside i A found ∧ w.Scanned i scan) :
    bufferProtocol.Safe i (Answers () fun u => u.Inside i A next ∧ u.Scanned i scan)
      (writeTextAtomic metaPath (.bufferMeta next)).run w := by
  have hbefore : Local i fun u => u.Inside i A found ∧ u.Scanned i scan :=
    (Local.inside hA).and .scanned
  have hafter : Local i fun u => u.Inside i A next ∧ u.Scanned i scan :=
    (Local.inside hA).and .scanned
  have hmkdir : bufferProtocol.Safe i
      (Answers () fun u => u.Inside i A found ∧ u.Scanned i scan)
      (file (.mkdir metaPath.dir)).run w :=
    safe_look hbefore (aside_none rfl) (stable hbefore.stable) hw
      fun t hkept _ => ⟨rfl, hkept⟩
  refine safe_then hmkdir fun t ht => safe_then (safe_draftMeta hA ht) fun u hu => ?_
  refine catches_of_ok (fun a => stable hafter.stable _) ?_
  exact (safe_placeMeta hA hcursor hu).mono fun r v hr => ⟨(), hr.1, rfl, hr.2⟩

/-- The meta file is that of a scan whose counts are right or overtaken. -/
structure BufferWorld.Refreshed (i : Nat) (A : BufferWorld → Prop) (n : Nat) (w : BufferWorld) :
    Prop where
  inside : ∃ found scan, (w.Inside i A found ∧ w.Scanned i scan) ∧ n ≤ found.cursor ∧
    found.pendingCount = scan.pendingCount ∧ found.totalProcessed = scan.totalProcessed ∧
      found.totalDeadLetters = scan.totalDeadLetters

theorem BufferWorld.Refreshed.stable (hA : Framed i A) :
    bufferProtocol.Stable i (Refreshed i A n) := by
  rintro w u ⟨found, scan, hinside, hfound⟩ hrely
  exact ⟨found, scan, ((Local.inside hA).and .scanned).stable w u hinside hrely, hfound⟩

theorem BufferWorld.Refreshed.counted (h : w.Refreshed i A n) : w.Counted := by
  obtain ⟨found, scan, ⟨hinside, hscanned⟩, _, hpending, hprocessed, hdeadLetter⟩ := h
  exact hscanned.counted hinside.known hpending hprocessed hdeadLetter

theorem deriveBufferMeta_cursor :
    found.cursor ≤ (deriveBufferMeta (some found) scan n).cursor ∧
      n ≤ (deriveBufferMeta (some found) scan n).cursor := by
  constructor
  · exact Nat.le_max_left _ _
  · exact (Nat.le_max_left _ _).trans (Nat.le_max_right _ _)

theorem safe_writeDerivedBufferMeta (hA : Framed i A) (hw : w.Inside i A found) :
    bufferProtocol.Safe i (Answers () (BufferWorld.Refreshed i A n))
      (writeDerivedBufferMeta roleId n).run w := by
  have hstable := fun r =>
    stable (i := i) (a := ()) (BufferWorld.Refreshed.stable hA (n := n)) r
  refine safe_then (safe_readMetaOrUndefined (Local.inside hA) (fun w hw => hw.known) hw)
    fun t ht => ?_
  refine safe_yields (safe_scanStore (Local.inside hA) (fun w hw => hw.held) ht)
    fun scan u hu => ?_
  obtain ⟨hforward, hatLeast⟩ : found.cursor ≤ (deriveBufferMeta (some found) scan n).cursor ∧
      n ≤ (deriveBufferMeta (some found) scan n).cursor := deriveBufferMeta_cursor
  by_cases hsame : some found = some (deriveBufferMeta (some found) scan n)
  · simp only [if_pos hsame]
    have hfound := Option.some.inj hsame
    refine returns (hstable _) ⟨rfl, found, scan, hu, ?_, ?_⟩
    · exact hatLeast.trans_eq (congrArg cursor hfound).symm
    · exact ⟨congrArg pendingCount hfound, congrArg totalProcessed hfound,
        congrArg totalDeadLetters hfound⟩
  · simp only [if_neg hsame]
    refine (safe_writeMeta hA hforward hu).mono fun r v hv => ⟨hv.1, ?_⟩
    exact ⟨_, scan, hv.2, hatLeast, rfl, rfl, rfl⟩

/-! ## A thread heals the meta file -/

/-- The thread has refreshed the meta file since it last touched a report. -/
def BufferWorld.Healed (i : Nat) (A : BufferWorld → Prop) (n : Nat) (w : BufferWorld) : Prop :=
  A w ∧ (i ∉ w.stale ∧ (.bufferMeta, i) ∉ w.held) ∧ w.CursorAtLeast n

theorem BufferWorld.Healed.stable (hA : bufferProtocol.Stable i A) :
    bufferProtocol.Stable i (Healed i A n) :=
  fun w u h hrely => ⟨hA w u h.1 hrely, ⟨fun hin => h.2.1.1 (hrely.stale.mp hin),
    fun hin => h.2.1.2 ((hrely.held _).mp hin)⟩, hrely.cursor n h.2.2⟩

theorem BufferWorld.elsewhere_entered : w.Elsewhere i (w.entered i .bufferMeta) where
  reports _ := ⟨fun _ _ => rfl, rfl⟩
  cursor _ h := h
  held queue hqueue := by
    show (queue, i) ∈ (.bufferMeta, i) :: w.held ↔ _
    rw [List.mem_cons, or_iff_right]
    intro hsame
    cases hsame
    exact hqueue rfl
  taken := rfl
  allotted := rfl
  clean h hin := h (List.mem_filter.mp hin).1

theorem BufferWorld.elsewhere_left : w.Elsewhere i (w.left i .bufferMeta) where
  reports _ := ⟨fun _ _ => rfl, rfl⟩
  cursor _ h := h
  held queue hqueue := by
    show (queue, i) ∈ w.held.filter (· ≠ (.bufferMeta, i)) ↔ _
    rw [List.mem_filter, and_iff_left]
    rw [decide_eq_true_iff]
    intro hsame
    cases hsame
    exact hqueue rfl
  taken := rfl
  allotted := rfl
  clean h := h

theorem safe_healBufferMeta (hA : Framed i A) (hw : A w) :
    bufferProtocol.Safe i (Answers () (BufferWorld.Healed i A n)) (healBufferMeta roleId n).run w := by
  have hstable := fun r => stable (i := i) (a := ())
    (BufferWorld.Healed.stable hA.stable (n := n)) r
  refine catches_of_ok (fun a => hstable _) ?_
  have hqueue : bufferProtocol.Safe i (Answers () (BufferWorld.Healed i A n))
      (enqueue .bufferMeta (writeDerivedBufferMeta roleId n)).run w := by
    refine safe_enqueue (B := fun w => ∃ found, w.Inside i A found)
      (L := Answers () (BufferWorld.Refreshed i A n)) hA.stable
      (stable (BufferWorld.Refreshed.stable hA)) hstable hw ?_ ?_
      (fun hqueue => by cases hqueue) (fun _ r v hv => hv.2.counted) ?_
    · intro t ht hkept _
      obtain ⟨found, hknown, _⟩ := hkept.present
      exact ⟨found,
        { held := List.mem_cons_self
          clean := fun hin => by simpa using (List.mem_filter.mp hin).2
          known := hknown
          frame := hA.elsewhere t _ ht elsewhere_entered }⟩
    · rintro u ⟨found, hinside⟩
      exact safe_writeDerivedBufferMeta hA hinside
    · rintro r v ⟨hr, found, scan, ⟨hinside, _⟩, hatLeast, _⟩
      refine ⟨hr, hA.elsewhere v _ hinside.frame elsewhere_left,
        ⟨hinside.clean, fun hin => ?_⟩, found, hinside.known, hatLeast⟩
      simpa using (List.mem_filter.mp hin).2
  exact hqueue.mono fun r v hr => ⟨(), hr.1, rfl, hr.2⟩

end

end Newide.Memory
