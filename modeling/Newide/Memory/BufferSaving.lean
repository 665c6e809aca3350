import Newide.Memory.BufferOperations

/-!
# Saving a report

Saves run one after the other.  The number a save gives out is above all
that were given out before it, and the cursor is not below it when the next
save begins.
-/

namespace Newide.Memory

open Threads Threads.Protocol Framed Local Safe Answers

section
variable {i seq n : Nat} {w u : BufferWorld}

/-! ## What a save knows of the numbers given out -/

/-- The cursor is above all of them. -/
def BufferWorld.Leads (i : Nat) (w : BufferWorld) : Prop :=
  (.save, i) ∈ w.held ∧ ∀ seq, w.Allotted seq → w.CursorAtLeast seq

/-- They are at most `n`. -/
def BufferWorld.Topped (i n : Nat) (w : BufferWorld) : Prop :=
  (.save, i) ∈ w.held ∧ ∀ seq, w.Allotted seq → seq ≤ n

/-- This one was given out to the thread. -/
def BufferWorld.Given (i seq : Nat) (w : BufferWorld) : Prop :=
  (i, seq) ∈ w.allotted

theorem BufferWorld.Allotted.of_eq (h : u.allotted = w.allotted) (hin : u.Allotted seq) :
    w.Allotted seq := by
  unfold Allotted at hin ⊢
  rwa [h] at hin

theorem Framed.leads : Framed i (BufferWorld.Leads i) where
  stable _ _ h hrely :=
    ⟨(hrely.held _).mpr h.1, fun seq hin =>
      hrely.cursor seq (h.2 seq (hin.of_eq (hrely.saving h.1)))⟩
  elsewhere _ _ h hstep :=
    ⟨(hstep.held .save nofun).mpr h.1, fun seq hin =>
      hstep.cursor seq (h.2 seq (hin.of_eq hstep.allotted))⟩

theorem Framed.topped : Framed i (BufferWorld.Topped i n) where
  stable _ _ h hrely :=
    ⟨(hrely.held _).mpr h.1, fun seq hin => h.2 seq (hin.of_eq (hrely.saving h.1))⟩
  elsewhere _ _ h hstep :=
    ⟨(hstep.held .save nofun).mpr h.1, fun seq hin => h.2 seq (hin.of_eq hstep.allotted)⟩

theorem Framed.given : Framed i (BufferWorld.Given i seq) where
  stable _ _ h hrely := (hrely.allotted seq).mpr h
  elsewhere _ _ h hstep := show (i, seq) ∈ _ from hstep.allotted ▸ h

variable {before : Option FileText}

theorem Beside.topped {own : Nat} :
    Beside i own before (BufferWorld.Topped i n) where
  known := Framed.topped.local
  writes _ _ h hstep _ :=
    ⟨hstep.held ▸ h.1, fun seq hin => h.2 seq (hin.of_eq hstep.allotted)⟩

theorem Beside.given {own : Nat} :
    Beside i own before (BufferWorld.Given i seq) where
  known := Framed.given.local
  writes _ _ h hstep _ := show (i, seq) ∈ _ from hstep.allotted ▸ h

/-! ## Giving out a number -/

theorem uses_scanStore : scanStore.run.Uses BufferCall.Aside :=
  uses_chain uses_readEntriesIfPresent fun _ => uses_chain uses_readEntriesIfPresent fun _ =>
    uses_chain uses_readEntriesIfPresent fun _ => uses_returns _

/-- What a save knows besides its report once it has a number. -/
def BufferWorld.Numbered (i seq : Nat) (own : List Nat) (w : BufferWorld) : Prop :=
  w.Holds i [.save] own ∧ w.Topped i seq ∧ w.Given i seq

theorem Framed.numbered {own : List Nat} : Framed i (BufferWorld.Numbered i seq own) :=
  holds.and (Framed.topped.and .given)

theorem Beside.numbered {own : List Nat} :
    Beside i seq before (BufferWorld.Numbered i seq own) :=
  Beside.holds.and (Beside.topped.and .given)

/-- The report that is to be saved, and nothing there yet. -/
def BufferWorld.Empty (i seq : Nat) (w : BufferWorld) : Prop :=
  ∃ last, w.Knows i seq (fun _ => none) last fun w =>
    w.Numbered i seq [seq] ∧ w.Outside i

theorem safe_allot (hnew : n < seq) (hw : w.Free i [.save] ∧ w.Topped i n) :
    bufferProtocol.Safe i (Answers () (BufferWorld.Empty i seq)) (allot seq).run w := by
  have hstable : bufferProtocol.Stable i (BufferWorld.Empty i seq) := by
    rintro w u ⟨last, hw⟩ hrely
    exact ⟨last, (knows (numbered.local.and .outside)).stable w u hw hrely⟩
  refine call (free.and Framed.topped.local).stable hw fun t r u ht hkept hexec => ?_
  obtain ⟨hfree, hsaving, htop⟩ := ht
  have hunused : ¬ t.Allotted seq := fun hin => absurd (htop seq hin) (Nat.not_le.mpr hnew)
  cases hexec.1
  obtain ⟨hafter, hothers⟩ := BufferWorld.allot_fine hkept hsaving hunused
  refine ⟨hafter, hothers, done (stable hstable _) ⟨rfl, t.lastWritten seq, ?_, ?_⟩⟩
  · exact
      { taken := List.mem_cons_self
        files := fun location => by
          by_contra hfile
          exact hunused (hkept.filed location seq (Option.isSome_iff_ne_none.mpr hfile))
        last := rfl }
  · have htook : (t.took i seq).Holds i [.save] [seq] := hfree.took.1
    refine ⟨⟨⟨htook.queues, htook.own⟩, ⟨hsaving, fun other hin => ?_⟩, List.mem_cons_self⟩,
      hfree.outside⟩
    obtain ⟨j, hj⟩ := hin
    rcases List.mem_cons.mp hj with hj | hj
    · cases hj
      exact Nat.le_refl _
    · exact (htop other ⟨j, hj⟩).trans (Nat.le_of_lt hnew)

/-! ## The report is written -/

def BufferWorld.Saved (i : Nat) (r : Except BufferError SaveBufferResult) (w : BufferWorld) :
    Prop :=
  (w.Free i [.save] ∧ w.Leads i) ∧ ∀ result, r = .ok result → w.Given i result.seq

theorem BufferWorld.Saved.stable (r : Except BufferError SaveBufferResult) :
    bufferProtocol.Stable i (BufferWorld.Saved i r) :=
  fun w u h hrely => ⟨(free.and leads.local).stable w u h.1 hrely,
    fun result hr => Framed.given.stable w u (h.2 result hr) hrely⟩

variable {roleId : String}

theorem safe_numbered {result : SaveBufferResult} (hseq : result.seq = seq)
    (hw : w.Numbered i seq []) :
    bufferProtocol.Safe i (BufferWorld.Saved i)
      (do
        healBufferMeta roleId seq
        pure result : BufferRoutine SaveBufferResult).run w := by
  refine safe_then (safe_healBufferMeta numbered hw) fun u hu => ?_
  obtain ⟨⟨hholds, ⟨hsaving, htop⟩, hgiven⟩, ⟨hclean, houtside⟩, found, hknown, hcursor⟩ := hu
  refine returns (BufferWorld.Saved.stable _) ⟨⟨⟨hholds, houtside, hclean⟩, hsaving, ?_⟩, ?_⟩
  · exact fun other hin => ⟨found, hknown, (htop other hin).trans hcursor⟩
  · intro other hother
    cases hother
    exact hseq ▸ hgiven

def BufferWorld.Filed (i seq : Nat) (report : StoredReport) : BufferWorld → Prop :=
  BufferWorld.Knows i seq (only .pending report) (some report) (BufferWorld.Numbered i seq [seq])

variable {agentContext : Option AgentContextSnapshot} {snapshot : BufferSnapshot}

theorem safe_writeSavedFiles (hw : w.Empty i seq) :
    bufferProtocol.Safe i (Answers () (BufferWorld.Filed i seq { snapshot }))
      (writeSavedFiles roleId seq snapshot agentContext).run w := by
  obtain ⟨last, howned, hnumbered, _⟩ := hw
  have hstable := fun r => stable (i := i) (a := ())
    (knows numbered.local :
      Local i (BufferWorld.Filed i seq { snapshot })).stable r
  have hreport (t : BufferWorld)
      (ht : t.Knows i seq (fun _ => none) last (BufferWorld.Numbered i seq [seq])) :
      bufferProtocol.Safe i (Answers () (BufferWorld.Filed i seq { snapshot }))
        (writeTextAtomic (reportPath .pending seq) (.report { snapshot })).run t :=
    safe_writeReport Beside.numbered ht
  unfold writeSavedFiles
  cases agentContext with
  | none =>
      refine catches_of_ok (fun a => hstable _) ?_
      exact (hreport w ⟨howned, hnumbered⟩).mono fun r u hr => ⟨(), hr.1, rfl, hr.2⟩
  | some context =>
      refine safe_then (safe_writeContext Beside.numbered ⟨howned, hnumbered⟩) fun t ht => ?_
      refine safe_then (safe_healBufferMeta (owned.and numbered) ht) fun u hu => ?_
      refine catches_of_ok (fun a => hstable _) ?_
      exact (hreport u hu.1).mono fun r u hr => ⟨(), hr.1, rfl, hr.2⟩

theorem safe_settledFiles (hw : w.Empty i seq) :
    bufferProtocol.Safe i (Answers () (BufferWorld.Numbered i seq []))
      (settling seq (writeSavedFiles roleId seq snapshot agentContext)).run w := by
  refine safe_settling (stable (knows numbered.local).stable)
    (stable numbered.stable) (safe_writeSavedFiles hw) (fun r v hv => ?_)
    fun r v hv => ?_
  · exact ⟨.pending, { snapshot }, hv.2.1.lives⟩
  · exact ⟨hv.1, hv.2.2.1.settled, hv.2.2.2⟩

theorem safe_writeBufferSnapshot (hw : w.Free i [.save] ∧ w.Leads i) :
    bufferProtocol.Safe i (BufferWorld.Saved i)
      (writeBufferSnapshot roleId snapshot agentContext).run w := by
  have hbefore : Local i fun w => w.Free i [.save] ∧ w.Leads i := free.and leads.local
  have htopped (found : BufferMeta) : Local i fun w =>
      (w.Free i [.save] ∧ w.Leads i) ∧ w.Topped i found.cursor := hbefore.and Framed.topped.local
  refine safe_yields (safe_readMeta hbefore htopped (fun t ht hkept => ?_) hw)
    fun found t ht => ?_
  · obtain ⟨found, hknown, _⟩ := hkept.present
    refine ⟨found, hknown, ht, ht.2.1, fun seq hin => ?_⟩
    obtain ⟨other, hother, hle⟩ := ht.2.2 seq hin
    rw [hknown] at hother
    cases hother
    exact hle
  · refine chain (fun e => BufferWorld.Saved.stable _)
      ((safe_aside (htopped found) uses_scanStore ht).mono fun r u hu => ?_)
    cases r with
    | error e => exact ⟨hu.1, nofun⟩
    | ok scan =>
        have hnew : found.cursor < max found.cursor scan.highestSeq + 1 :=
          Nat.lt_succ_of_le (Nat.le_max_left _ _)
        refine safe_then (safe_allot hnew ⟨hu.1.1, hu.2⟩) fun v hv => ?_
        exact safe_then (safe_settledFiles hv) fun x hx => safe_numbered rfl hx

theorem safe_saveBufferSnapshot (hw : w.Free i []) :
    bufferProtocol.Safe i
      (fun r u => u.Free i [] ∧ ∀ result, r = .ok result → u.Given i result.seq)
      (saveBufferSnapshot roleId snapshot agentContext).run w := by
  refine safe_enqueue (B := fun w => w.Free i [.save] ∧ w.Leads i) free.stable
    BufferWorld.Saved.stable (fun r w u h hrely => ?_) hw (fun t ht hkept hfree => ?_)
    (fun u hu => safe_writeBufferSnapshot hu) (fun _ r v hv => hv.1.2.2)
    (fun hqueue => by cases hqueue) fun r v hv => ⟨hv.1.1.left, hv.2⟩
  · exact ⟨free.stable w u h.1 hrely,
      fun result hr => Framed.given.stable w u (h.2 result hr) hrely⟩
  · exact ⟨ht.entered nofun, List.mem_cons_self, hkept.cursor hfree⟩

end

end Newide.Memory
