import Newide.Memory.BufferSpecs

/-!
# Writing reports and the meta file

What is known of the report a thread has taken, as it writes it in one
partition and removes it from another, and of the meta file as a thread
writes it anew.
-/

namespace Newide.Memory

open Threads Threads.Protocol BufferWorld BufferDisk Safe

variable {before : Option FileText} {other : BufferLocation} {path : BufferPath} {α : Type} {a : α}

section
variable {i seq : Nat} {w u : BufferWorld} {c : FileCall} {A B : BufferWorld → Prop}

theorem safe_file {R : Except BufferError c.Answer → BufferWorld → Prop}
    (hA : bufferProtocol.Stable i A) (hR : ∀ r, bufferProtocol.Stable i (R r)) (hw : A w)
    (h : ∀ t, A t → t.Kept →
      t.Fine i (t.afterFile i c) ∧ R (thrown (c.exec t.disk).1) (t.afterFile i c)) :
    bufferProtocol.Safe i R (file c).run w := by
  refine call hA hw fun t r u ht hkept hexec => ?_
  cases hexec.1
  obtain ⟨⟨hafter, hother⟩, hdone⟩ := h t ht hkept
  exact ⟨hafter, hother, done (hR _) hdone⟩

/-- The routine answers `a`, and what is known then. -/
def Answers {α : Type} (a : α) (A : BufferWorld → Prop) : Except BufferError α → BufferWorld → Prop :=
  fun r w => r = .ok a ∧ A w

theorem Answers.stable (hA : bufferProtocol.Stable i A) (r : Except BufferError α) :
    bufferProtocol.Stable i (Answers a A r) :=
  fun _ _ h hrely => ⟨h.1, hA _ _ h.2 hrely⟩

theorem safe_then {β : Type} {x : BufferRoutine α} {f : α → BufferRoutine β}
    {R : Except BufferError β → BufferWorld → Prop}
    (hx : bufferProtocol.Safe i (Answers a A) x.run w)
    (hf : ∀ u, A u → bufferProtocol.Safe i R (f a).run u) :
    bufferProtocol.Safe i R (x >>= f).run w := by
  refine chain_of_ok (hx.mono fun r u hr => ?_)
  obtain ⟨rfl, hu⟩ := hr
  exact ⟨a, rfl, hf u hu⟩

theorem safe_mkdir {dir : Option BufferLocation} (hA : Local i A) (hw : A w) :
    bufferProtocol.Safe i (Answers () A) (file (.mkdir dir)).run w := by
  have haside : FileCall.Aside (.mkdir dir) := aside_none rfl
  refine safe_file hA.stable (Answers.stable hA.stable) hw fun t ht hkept => ⟨?_, rfl, ?_⟩
  · exact (afterFile_writes fun path hpath => .inr (haside path hpath)).fine hkept
      fun _ => False.elim
  · exact hA.aside t _ haside ht

/-! ## The report a thread has taken -/

/-- A thread knows where the report it has taken is. -/
structure BufferWorld.Owned (i seq : Nat) (files : BufferLocation → Option FileText)
    (last : Option StoredReport) (w : BufferWorld) : Prop where
  taken : (i, seq) ∈ w.taken
  files : ∀ location, w.disk.lookup (reportPath location seq) = files location
  last : w.lastWritten seq = last

variable {files : BufferLocation → Option FileText} {last : Option StoredReport}
  {location : BufferLocation} {report : StoredReport} {text : FileText}

theorem Framed.owned : Framed i (BufferWorld.Owned i seq files last) where
  stable w u h hrely := by
    have hsame := hrely.reports seq h.taken
    exact
      { taken := (hrely.taken seq).mpr h.taken
        files := fun location => (hsame.1 _ (.inl rfl)).trans (h.files location)
        last := hsame.2.trans h.last }
  elsewhere w u h hstep := by
    have hsame := hstep.reports seq
    exact
      { taken := hstep.taken ▸ h.taken
        files := fun location => (hsame.1 _ (.inl rfl)).trans (h.files location)
        last := hsame.2.trans h.last }

def BufferWorld.Drafted (i seq : Nat) (path : BufferPath) (text : FileText)
    (w : BufferWorld) : Prop :=
  (i, seq) ∈ w.taken ∧ w.disk.lookup path = some text

theorem Framed.drafted (hpath : path.Belongs seq) :
    Framed i (BufferWorld.Drafted i seq path text) where
  stable _ _ h hrely :=
    ⟨(hrely.taken seq).mpr h.1, ((hrely.reports seq h.1).1 path hpath).trans h.2⟩
  elsewhere _ _ h hstep :=
    ⟨hstep.taken ▸ h.1, ((hstep.reports seq).1 path hpath).trans h.2⟩

/-- What is known besides the report itself, while it is written; where one was before, nothing
appears or disappears. -/
structure Beside (i seq : Nat) (before : Option FileText) (B : BufferWorld → Prop) : Prop where
  known : Local i B
  writes : ∀ w u, B w → w.Writes i (· = seq) u →
    (before.isSome = true → u.stale = w.stale) → B u

theorem touches_place : ∀ path ∈
      FileCall.touches (.rename (reportPath location seq).tmp (reportPath location seq)),
    (∃ other, other = seq ∧ path.Belongs other) ∨ path.IsContext := by
  intro path hpath
  rcases List.mem_cons.mp hpath with rfl | hpath
  · exact .inl ⟨seq, rfl, .inl rfl⟩
  · rw [List.mem_singleton.mp hpath]
    exact .inl ⟨seq, rfl, .inl rfl⟩

theorem touches_remove : ∀ path ∈ FileCall.touches (.unlink (reportPath location seq)),
    (∃ other, other = seq ∧ path.Belongs other) ∨ path.IsContext := by
  intro path hpath
  rw [List.mem_singleton.mp hpath]
  exact .inl ⟨seq, rfl, .inl rfl⟩

theorem reportPath_ne_tmp :
    reportPath location seq ≠ (reportPath other seq).tmp := by
  intro hsame
  cases hsame

theorem reportPath_inj :
    reportPath location seq = reportPath other seq ↔ location = other := by
  constructor
  · intro hsame
    cases hsame
    rfl
  · rintro rfl
    rfl

/-- What a thread knows of its report, and besides. -/
def BufferWorld.Knows (i seq : Nat) (files : BufferLocation → Option FileText)
    (last : Option StoredReport) (B : BufferWorld → Prop) (w : BufferWorld) : Prop :=
  w.Owned i seq files last ∧ B w

theorem Local.knows (hB : Local i B) : Local i (BufferWorld.Knows i seq files last B) :=
  Framed.owned.local.and hB

theorem Beside.of_none (h : Beside i seq none B) :
    Beside i seq before B where
  known := h.known
  writes w u hw hwrites _ := h.writes w u hw hwrites nofun

theorem stale_afterFile (h : ∀ location, size (c.exec w.disk).2 location =
    w.disk.size location) : (w.afterFile i c).stale = w.stale :=
  if_pos (sameSizes_iff.mpr h)

theorem isReport_tmp : (reportPath location seq).tmp.isReport = false := rfl

theorem safe_draft (hpath : path.Belongs seq) (htemporary : path.temporary = true)
    (hB : Beside i seq before B) (hw : w.Knows i seq files last B) :
    bufferProtocol.Safe i
      (Answers () fun u => u.Knows i seq files last B ∧ u.Drafted i seq path text)
      (file (.writeFile path text)).run w := by
  have hknows : Local i (BufferWorld.Knows i seq files last B) := .knows hB.known
  refine safe_file hknows.stable (Answers.stable (hknows.and (Framed.drafted hpath).local).stable) hw
    fun t ht hkept => ?_
  have hwrites : t.Writes i (· = seq) (t.afterFile i (.writeFile path text)) := by
    refine afterFile_writes fun found hfound => .inl ⟨seq, rfl, ?_⟩
    rwa [List.mem_singleton.mp hfound]
  have hne (other : BufferLocation) : reportPath other seq ≠ path := by
    rintro rfl
    cases htemporary
  refine ⟨hwrites.fine hkept fun other hother => hother ▸ ht.1.taken, rfl, ⟨?_, ?_⟩, ?_⟩
  · exact
      { taken := ht.1.taken
        files := fun other => (AList.lookup_insert_ne (hne other)).trans (ht.1.files other)
        last := (lastWritten_afterFile fun entry hentry => (by cases hentry)).trans
          ht.1.last }
  · refine hB.writes t _ ht.2 hwrites fun _ => stale_afterFile fun other =>
      FileCall.size_exec fun found hfound => ?_
    rw [List.mem_singleton.mp hfound]
    simp [BufferPath.isReport, htemporary]
  · exact ⟨ht.1.taken, AList.lookup_insert t.disk⟩

theorem safe_place (hB : Beside i seq (files location) B)
    (hw : w.Knows i seq files last B ∧ w.Drafted i seq (reportPath location seq).tmp (.report report)) :
    bufferProtocol.Safe i
      (Answers () (BufferWorld.Knows i seq
        (Function.update files location (some (.report report))) (some report) B))
      (file (.rename (reportPath location seq).tmp (reportPath location seq))).run w := by
  have hknows : Local i (BufferWorld.Knows i seq files last B) := .knows hB.known
  have hafter : Local i (BufferWorld.Knows i seq
      (Function.update files location (some (.report report))) (some report) B) := .knows hB.known
  refine safe_file (hknows.and (Framed.drafted (.inl rfl)).local).stable
    (Answers.stable hafter.stable) hw fun t ht hkept => ?_
  obtain ⟨⟨howned, hBt⟩, _, hdraft⟩ := ht
  have hwrites : t.Writes i (· = seq)
      (t.afterFile i (.rename (reportPath location seq).tmp (reportPath location seq))) :=
    afterFile_writes touches_place
  have hexec : FileCall.exec (.rename (reportPath location seq).tmp (reportPath location seq)) t.disk =
      (.ok (), (t.disk.erase (reportPath location seq).tmp).insert (reportPath location seq)
        (.report report)) := by
    simp only [FileCall.exec, hdraft]
  have hwritten : FileCall.written t.disk
      (.rename (reportPath location seq).tmp (reportPath location seq)) = some (seq, report) := by
    simp only [FileCall.written, hdraft]
    rfl
  refine ⟨hwrites.fine hkept fun other hother => hother ▸ howned.taken, ?_, ?_, ?_⟩
  · rw [hexec]
    rfl
  · refine
      { taken := howned.taken
        files := fun other => ?_
        last := ?_ }
    · show (FileCall.exec _ t.disk).2.lookup (reportPath other seq) = _
      rw [hexec]
      by_cases hother : other = location
      · rw [hother, Function.update_self]
        exact AList.lookup_insert _
      · rw [Function.update_of_ne hother, ← howned.files other]
        exact (AList.lookup_insert_ne (mt reportPath_inj.mp hother)).trans
          (AList.lookup_erase_ne reportPath_ne_tmp)
    · unfold lastWritten afterFile
      simp [hwritten]
  · refine hB.writes t _ hBt hwrites fun hbefore => stale_afterFile fun other => ?_
    rw [hexec]
    have hin : reportPath location seq ∈ t.disk.erase (reportPath location seq).tmp := by
      rw [← AList.lookup_isSome, AList.lookup_erase_ne reportPath_ne_tmp, howned.files]
      exact hbefore
    exact (size_insert fun _ => hin).trans (size_erase isReport_tmp)

theorem safe_remove (hB : Beside i seq none B) (hfile : files location = some text)
    (hw : w.Knows i seq files last B) :
    bufferProtocol.Safe i
      (Answers () (BufferWorld.Knows i seq (Function.update files location none) last B))
      (file (.unlink (reportPath location seq))).run w := by
  have hknows : Local i (BufferWorld.Knows i seq files last B) := .knows hB.known
  have hafter : Local i (BufferWorld.Knows i seq (Function.update files location none) last B) :=
    .knows hB.known
  refine safe_file hknows.stable (Answers.stable hafter.stable) hw fun t ht hkept => ?_
  have hwrites : t.Writes i (· = seq) (t.afterFile i (.unlink (reportPath location seq))) :=
    afterFile_writes touches_remove
  have hexec : FileCall.exec (.unlink (reportPath location seq)) t.disk =
      (.ok (), t.disk.erase (reportPath location seq)) := by
    simp only [FileCall.exec, ht.1.files location, hfile]
  refine ⟨hwrites.fine hkept fun other hother => hother ▸ ht.1.taken, ?_, ?_, ?_⟩
  · rw [hexec]
    rfl
  · refine
      { taken := ht.1.taken
        files := fun other => ?_
        last := (lastWritten_afterFile fun entry hentry => (by cases hentry)).trans
          ht.1.last }
    show (FileCall.exec _ t.disk).2.lookup (reportPath other seq) = _
    rw [hexec]
    by_cases hother : other = location
    · rw [hother, Function.update_self]
      exact AList.lookup_erase _ _
    · rw [Function.update_of_ne hother, ← ht.1.files other]
      exact AList.lookup_erase_ne (mt reportPath_inj.mp hother)
  · exact hB.writes t _ ht.2 hwrites fun h => (by cases h)

/-! ### A whole write, and a whole move -/

theorem safe_writeReport (hB : Beside i seq (files location) B)
    (hw : w.Knows i seq files last B) :
    bufferProtocol.Safe i
      (Answers () (BufferWorld.Knows i seq
        (Function.update files location (some (.report report))) (some report) B))
      (writeTextAtomic (reportPath location seq) (.report report)).run w := by
  have hknows : Local i (BufferWorld.Knows i seq files last B) := .knows hB.known
  have hafter : Local i (BufferWorld.Knows i seq
      (Function.update files location (some (.report report))) (some report) B) := .knows hB.known
  refine safe_then (safe_mkdir hknows hw) fun t ht => safe_then (safe_draft (.inl rfl) rfl hB ht)
    fun u hu => ?_
  refine catches_of_ok (fun a => Answers.stable hafter.stable _) ?_
  exact (safe_place hB hu).mono fun r v hr => ⟨(), hr.1, rfl, hr.2⟩

theorem safe_moveReport {destination : BufferLocation} (hB : Beside i seq none B)
    (hne : location ≠ destination) (hfile : files location = some text)
    (hw : w.Knows i seq files last B) :
    bufferProtocol.Safe i
      (Answers () (BufferWorld.Knows i seq
        (Function.update (Function.update files destination (some (.report report))) location none)
        (some report) B))
      (moveFile (reportPath location seq) (reportPath destination seq)
        (some (.report report))).run w := by
  have hknows : Local i (BufferWorld.Knows i seq files last B) := .knows hB.known
  refine safe_then (safe_mkdir hknows hw) fun t ht =>
    safe_then (safe_writeReport hB.of_none ht) fun u hu => ?_
  have hthere : Function.update files destination (some (.report report)) location = some text := by
    rw [Function.update_of_ne hne, hfile]
  refine catches_of_ok (fun a => Answers.stable (Local.knows hB.known).stable _) ?_
  exact (safe_remove hB hthere hu).mono fun r v hr => ⟨(), hr.1, rfl, hr.2⟩

theorem safe_writeContext (hB : Beside i seq none B) (hw : w.Knows i seq files last B) :
    bufferProtocol.Safe i (Answers () (BufferWorld.Knows i seq files last B))
      (writeTextAtomic (contextPath location seq) text).run w := by
  have hknows : Local i (BufferWorld.Knows i seq files last B) := .knows hB.known
  refine safe_then (safe_mkdir hknows hw) fun t ht =>
    safe_then (safe_draft (.inr ⟨rfl, rfl⟩) rfl hB ht) fun u hu => ?_
  refine catches_of_ok (fun a => Answers.stable hknows.stable _) ?_
  refine (safe_file (R := Answers () (BufferWorld.Knows i seq files last B))
    (hknows.and (Framed.drafted (.inr ⟨rfl, rfl⟩)).local).stable (Answers.stable hknows.stable) hu
    fun v hv hkept => ?_).mono fun r v hr => ⟨(), hr.1, rfl, hr.2⟩
  obtain ⟨⟨howned, hBv⟩, _, hdraft⟩ := hv
  have hwrites : v.Writes i (· = seq)
      (v.afterFile i (.rename (contextPath location seq).tmp (contextPath location seq))) := by
    refine afterFile_writes fun path hpath => ?_
    rcases List.mem_cons.mp hpath with rfl | hpath
    · exact .inl ⟨seq, rfl, .inr ⟨rfl, rfl⟩⟩
    · rw [List.mem_singleton.mp hpath]
      exact .inr ⟨seq, rfl, rfl⟩
  have hexec : FileCall.exec (.rename (contextPath location seq).tmp (contextPath location seq))
      v.disk = (.ok (), (v.disk.erase (contextPath location seq).tmp).insert
        (contextPath location seq) text) := by
    simp only [FileCall.exec, hdraft]
  have hnot (path : BufferPath) (hpath : path ∈ FileCall.touches
      (.rename (contextPath location seq).tmp (contextPath location seq))) (n : Nat) :
      path.name ≠ .report n := by
    intro hname
    rcases List.mem_cons.mp hpath with rfl | hpath
    · cases hname
    · rw [List.mem_singleton.mp hpath] at hname
      cases hname
  refine ⟨hwrites.fine hkept fun other hother => hother ▸ howned.taken, ?_, ?_,
    hB.writes v _ hBv hwrites fun h => (by cases h)⟩
  · rw [hexec]
    rfl
  · refine
      { taken := howned.taken
        files := fun other => (FileCall.lookup_exec fun hin => hnot _ hin seq rfl).trans
          (howned.files other)
        last := (lastWritten_afterFile fun entry hentry _ => ?_).trans howned.last }
    obtain ⟨path, hpath, hname, _⟩ := FileCall.written_eq_some hentry
    exact hnot path hpath entry.1 hname

end

end Newide.Memory
