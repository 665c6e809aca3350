import Newide.ChangesetBinding

/-!
# Delivered changesets

A caller makes calls and asks for resume contexts, and passes the cursor
input of a context on when it resumes.  Along every run of both in which
no deliver input is made up, what is delivered was gated.
-/

namespace Newide

open Fallible

variable {π : Type}

/-! ## Runs of calls and resumes -/

structure DeliveryState (π : Type) where
  world : World π
  gated : List GatedChangeset := []
  offered : List (String × TaskCursorInput) := []

/-- A caller makes a call, or asks for the context of a resume. -/
inductive DeliveryLabel where
  | call (call : Call)
  | resumeContext (env : Env) (taskId : String)

inductive DeliveryStep (bridges : Bridges π) (s : DeliveryState π) :
    DeliveryLabel → DeliveryState π → Prop where
  | call {call : Call} {w' : World π} (h : Cut bridges s.world call w') :
      DeliveryStep bridges s (.call call)
        { world := w'
          gated := s.gated ++ gatedBy call s.world.store w'.store
          offered := s.offered }
  | resumeContext {env : Env} {taskId : String} {context : TaskResumeContext}
      (h : getTaskResumeContext env s.world.store taskId = .ok context) :
      DeliveryStep bridges s (.resumeContext env taskId)
        { s with offered := s.offered ++ [(taskId, context.cursorInput)] }

/-- Resumes from a checkpoint pass on what they were offered. -/
def PassesOnOffers (s : DeliveryState π) : DeliveryLabel → Prop
  | .call call => PassesOn s.offered call.op
  | .resumeContext .. => True

/-- No deliver input is made up, neither for a safepoint nor for a resume. -/
def KeepsBound (s : DeliveryState π) : DeliveryLabel → Prop
  | .call call => SavesBound call s.world.store
  | .resumeContext _ taskId => ResumesBound taskId s.world.store

/-- Everything stored or offered for `deliver` has been gated. -/
structure DeliveryInvariant (s : DeliveryState π) : Prop where
  kept : Everywhere WellKept s.world.store
  bound : Everywhere (BoundRecord s.gated) s.world.store
  offered : ∀ offer ∈ s.offered, Bound s.gated offer.1 offer.2

variable {bridges : Bridges π}

theorem Cut.advance {w w' : World π} {env : Env} {input : AdvanceTaskStageInput}
    (h : Cut bridges w ⟨env, .advanceStage input⟩ w') :
    w' = w ∨ ∃ record run nextInput event, Advances w.store record run input nextInput event ∧
      Moved w.store record input nextInput w'.store := by
  rcases h with rfl | hmem
  · exact .inl rfl
  · exact .inr ((advanceStage_commits 3).moved hmem)

theorem DeliveryInvariant.step {s s' : DeliveryState π} {label : DeliveryLabel}
    (h : DeliveryStep bridges s label s') (hpass : PassesOnOffers s label)
    (hkeeps : KeepsBound s label) (hI : DeliveryInvariant s) : DeliveryInvariant s' := by
  cases h with
  | @call call w' hcut =>
      have hkept : Everywhere WellKept w'.store :=
        hcut.invariant (fun _ _ hs hst => wellKept_step hst hs) hI.kept
      refine ⟨hkept, ?_, fun offer hoffer => (hI.offered offer hoffer).append⟩
      by_cases hop : ∃ input, call.op = .advanceStage input
      · obtain ⟨env, op⟩ := call
        obtain ⟨input, hop⟩ := hop
        cases hop
        rcases hcut.advance with rfl | ⟨record, run, nextInput, event, hadv, hmoved⟩
        · exact fun record hmem => (hI.bound record hmem).append
        · exact hmoved.bound hadv rfl hI.bound
      · have hop : ∀ input, call.op ≠ .advanceStage input := fun input heq => hop ⟨input, heq⟩
        have hnone : gatedBy call s.world.store w'.store = [] := by
          unfold gatedBy
          split
          · next heq => exact absurd heq (hop _)
          · rfl
        simp only [hnone, List.append_nil]
        exact (hcut.invariant
          (I := fun store => Everywhere WellKept store ∧ SavesBound call store ∧
            Everywhere (BoundRecord s.gated) store)
          (fun _ _ hs hst => ⟨wellKept_step hst hs.1, savesBound_step hst hs.2.1,
            bound_step hst hop hpass hI.offered hs.1 hs.2.1 hs.2.2⟩)
          ⟨hI.kept, hkeeps, hI.bound⟩).2.2
  | resumeContext hcontext =>
      refine ⟨hI.kept, hI.bound, fun offer hoffer => ?_⟩
      rcases List.mem_append.mp hoffer with hoffer | hoffer
      · exact hI.offered offer hoffer
      · rw [List.mem_singleton.mp hoffer]
        exact getTaskResumeContext_bound hI.kept hI.bound hkeeps hcontext

/-- A Task went from `deliver` to `done`. -/
structure Delivers (before after : CoordinationStore) (record delivered : TaskRecord) : Prop where
  record_mem : record ∈ before.tables.records
  stored : after.record? record.taskId = some delivered
  deliver : record.runtimeState.resumeCursor = .deliver
  done : delivered.runtimeState.resumeCursor = .done

/-- The steps of calls, cut or not, and resumes that pass offers on and make nothing up. -/
abbrev DeliverySteps (bridges : Bridges π) : DeliveryState π → DeliveryLabel → DeliveryState π →
    Prop :=
  Runs.Guarded (fun s label => PassesOnOffers s label ∧ KeepsBound s label) (DeliveryStep bridges)

/-- In every run of calls and resumes that make no deliver input up, the output of each
advance from `deliver` to `done` is a changeset an earlier advance of that Task took from
`gate` to `deliver`. -/
theorem delivered_is_gated (bridges : Bridges π) {w w' : World π} {s : DeliveryState π}
    {labels : List DeliveryLabel} (hw : Initial w)
    (h : Runs.Steps (DeliverySteps bridges) { world := w } labels s) {env : Env}
    {input : AdvanceTaskStageInput} (hcut : Cut bridges s.world ⟨env, .advanceStage input⟩ w')
    {record delivered : TaskRecord} (hdone : Delivers s.world.store w'.store record delivered) :
    ∃ output, delivered.task.finalOutput = some output ∧
      ⟨record.taskId, output.artifactRef, output.sha256⟩ ∈ s.gated := by
  have hinit : DeliveryInvariant ({ world := w } : DeliveryState π) := by
    refine ⟨?_, ?_, fun _ hm => (by cases hm)⟩
    · rw [hw]
      exact fun _ hm => (by cases hm)
    · rw [hw]
      exact fun _ hm => (by cases hm)
  have hI : DeliveryInvariant s :=
    h.invariant hinit fun _ _ _ hI hstep => hI.step hstep.2 hstep.1.1 hstep.1.2
  have hsame : w'.store.record? record.taskId = s.world.store.record? record.taskId → False := by
    intro heq
    rw [hdone.stored, CoordinationStore.record?_of_mem hdone.record_mem] at heq
    cases heq
    have hcontra := hdone.deliver.symm.trans hdone.done
    cases hcontra
  rcases hcut.advance with rfl | ⟨moved, run, nextInput, event, hadv, hmoved⟩
  · exact absurd rfl hsame
  · have hid : record.taskId = moved.taskId := by
      by_contra hne
      exact hsame (hmoved.others _ hne)
    have heq : record = moved := s.world.store.constraints.tasks_distinct.eq_of_key
      hdone.record_mem hadv.at_stage.record_mem hid
    subst heq
    obtain ⟨final, hfinal, hcursor, _, hout, _⟩ := hmoved.moved
    rw [hdone.stored] at hfinal
    cases hfinal
    -- the advance stands at the bound deliver input and moves to `done`
    have hnext : nextInput = .done := by
      have hcursor := hcursor.symm.trans hdone.done
      cases nextInput with
      | done => rfl
      | selectAgent | executeAgent | council | gate | deliver | mailboxWait => cases hcursor
    obtain ⟨current, hcurrent, hat⟩ := Option.map_eq_some_iff.mp hadv.at_stage.input_cursor
    have hat : current.cursor = .deliver :=
      hat.trans (hadv.at_stage.cursor_eq.symm.trans hdone.deliver)
    cases current with
    | deliver changesetRef expectedSha256 =>
        have hidentity := hadv.identity
        rw [hcurrent, hnext] at hidentity
        simp only [assertChangesetIdentity, ensure_eq_ok] at hidentity
        obtain ⟨output, houtput, rfl, rfl⟩ := hidentity
        refine ⟨output, (hout (by rw [hnext]; rfl)).trans houtput, ?_⟩
        exact (hI.bound record hdone.record_mem).stored _ hcurrent
    | selectAgent | executeAgent | council | gate | mailboxWait | done => cases hat

/-! ## Runs on fixed calls -/

def nextDelivery (guard : DeliveryState π → DeliveryLabel → Prop) [∀ s l, Decidable (guard s l)]
    (bridges : Bridges π) (s : DeliveryState π) (label : DeliveryLabel) :
    Option (DeliveryState π) :=
  if guard s label then
    match label with
    | .call call =>
        (nextWorld (fun _ _ => True) bridges s.world call).map fun w' =>
          { world := w'
            gated := s.gated ++ gatedBy call s.world.store w'.store
            offered := s.offered }
    | .resumeContext env taskId =>
        (swallow (getTaskResumeContext env s.world.store taskId)).map fun context =>
          { s with offered := s.offered ++ [(taskId, context.cursorInput)] }
  else none

theorem nextDelivery_step (guard : DeliveryState π → DeliveryLabel → Prop)
    [∀ s l, Decidable (guard s l)] {s s' : DeliveryState π} {label : DeliveryLabel}
    (h : nextDelivery guard bridges s label = some s') :
    Runs.Guarded guard (DeliveryStep bridges) s label s' := by
  unfold nextDelivery at h
  split at h
  · next hguard =>
      refine ⟨hguard, ?_⟩
      cases label with
      | call call =>
          obtain ⟨w', hw, rfl⟩ := Option.map_eq_some_iff.mp h
          exact .call (nextWorld_step _ hw).2.cut
      | resumeContext env taskId =>
          obtain ⟨context, hcontext, rfl⟩ := Option.map_eq_some_iff.mp h
          exact .resumeContext (swallow_eq_some.mp hcontext)
  · cases h

theorem exists_delivery (guard : DeliveryState π → DeliveryLabel → Prop)
    [∀ s l, Decidable (guard s l)] (bridges : Bridges π) (w : World π)
    (labels : List DeliveryLabel) {P : DeliveryState π → Prop} [DecidablePred P]
    (h : (Runs.exec (nextDelivery guard bridges) { world := w } labels).any (fun s => P s) = true) :
    ∃ s, Runs.Steps (Runs.Guarded guard (DeliveryStep bridges)) { world := w } labels s ∧ P s :=
  Runs.exists_steps (nextDelivery guard bridges) (fun _ _ _ hab => nextDelivery_step guard hab)
    { world := w } labels h

instance (s : DeliveryState π) (label : DeliveryLabel) : Decidable (PassesOnOffers s label) := by
  cases label with
  | call call => exact inferInstanceAs (Decidable (PassesOn s.offered call.op))
  | resumeContext => exact inferInstanceAs (Decidable True)

instance (s : DeliveryState π) (label : DeliveryLabel) : Decidable (KeepsBound s label) := by
  cases label with
  | call call => exact inferInstanceAs (Decidable (SavesBound call s.world.store))
  | resumeContext env taskId => exact inferInstanceAs (Decidable (ResumesBound taskId s.world.store))

/-- The resume of Task `t` at `deliver` by its second Run. -/
def resumeAtDeliver (checkpointId changesetRef expectedSha256 : String) : BeginTaskRunInput :=
  { createRequest with
    runId := "r2"
    restartedFromRunId := some "r"
    resumeCheckpointId := some checkpointId
    requestedResumeCursor := some .deliver
    cursorInput := some (.deliver changesetRef expectedSha256)
    runIntent := some (.checkpointResume .fromCheckpoint) }

/-- The output that delivers `x`. -/
def deliveredOutput : PersistedTaskFinalOutput where
  artifactRef := "x"
  sha256 := zeroSha256
  workspacePath := "/w"

/-- The delivery of `x` by a Run. -/
def deliverCall (runId : String) : Call :=
  advanceCall 'B' runId .deliver .done (some deliveredOutput)

/-- The call delivers the Task, with this property of what it gated before and its output. -/
def DeliversWith (P : List GatedChangeset → TaskRecord → Prop) (runId : String)
    (s : DeliveryState Unit) : Prop :=
  ∃ record ∈ s.world.store.tables.records, record.runtimeState.resumeCursor = .deliver ∧
    ∃ w' ∈ nextWorld (fun _ _ => True) {} s.world (deliverCall runId),
      ∃ delivered ∈ w'.store.record? record.taskId,
        delivered.runtimeState.resumeCursor = .done ∧ P s.gated delivered

instance (P : List GatedChangeset → TaskRecord → Prop) [∀ g r, Decidable (P g r)]
    (runId : String) (s : DeliveryState Unit) : Decidable (DeliversWith P runId s) :=
  inferInstanceAs (Decidable (∃ record ∈ s.world.store.tables.records, _ ∧ ∃ w' ∈
    nextWorld (fun _ _ => True) {} s.world (deliverCall runId), ∃ delivered ∈ _, _))

theorem DeliversWith.delivers {P : List GatedChangeset → TaskRecord → Prop} {runId : String}
    {s : DeliveryState Unit} (h : DeliversWith P runId s) :
    ∃ w' record delivered, Cut {} s.world (deliverCall runId) w' ∧
      Delivers s.world.store w'.store record delivered ∧ P s.gated delivered := by
  obtain ⟨record, hmem, hfrom, w', hw, delivered, hstored, hto, hP⟩ := h
  exact ⟨w', record, delivered, (nextWorld_step _ hw).2.cut, ⟨hmem, hstored, hfrom, hto⟩, hP⟩

/-- A changeset is gated, interrupted before its delivery, resumed and delivered. -/
theorem delivered_is_gated_resumed : ∃ (s : DeliveryState Unit) (record delivered : TaskRecord),
    ∃ output, delivered.task.finalOutput = some output ∧
      ⟨record.taskId, output.artifactRef, output.sha256⟩ ∈ s.gated := by
  obtain ⟨s, hrun, hdelivers⟩ := exists_delivery
    (fun s label => PassesOnOffers s label ∧ KeepsBound s label) {} emptyWorld
    [.call ⟨stoppedEnv '1', .beginRun createRequest⟩,
     .call (startCall '2' "r" .selectAgent),
     .call (advanceCall '3' "r" .selectAgent (.executeAgent "a" none none) none),
     .call (startCall '4' "r" .executeAgent),
     .call (advanceCall '5' "r" .executeAgent (.gate "x" "p" "x" zeroSha256) none),
     .call (startCall '6' "r" .gate),
     .call (advanceCall '7' "r" .gate (.deliver "x" zeroSha256) none),
     .call ⟨stoppedEnv '8', .interruptRun "r" { reason := "stop", source := .user }⟩,
     .resumeContext (stoppedEnv '9') "t",
     .call ⟨stoppedEnv '9', .beginRun (resumeAtDeliver "8c" "x" zeroSha256)⟩,
     .call (startCall 'A' "r2" .deliver)]
    (P := DeliversWith (fun _ _ => True) "r2") (by decide)
  obtain ⟨w', record, delivered, hcut, hdone, _⟩ := hdelivers.delivers
  exact ⟨s, record, delivered, delivered_is_gated {} (w := emptyWorld) rfl hrun hcut hdone⟩

/-- A driver event moves a Run to `deliver` without an input, and a safepoint makes one up
from the artifact the event names. -/
def madeUpDelivery : List DeliveryLabel :=
  [.call ⟨stoppedEnv '1', .beginRun createRequest⟩,
   .call ⟨stoppedEnv '2', .recordRunEvent "r"
    { eventId := "selected"
      eventType := "artifact.selected"
      subjectId := "x"
      runId := some "r"
      taskId := some "t"
      payload := [("artifact_refs", .arr [.str "x"])]
      createdAt := "2" }⟩,
   .call ⟨stoppedEnv '3', .saveShutdownSafepoints⟩,
   .call (startCall '4' "r" .deliver)]

/-- After that the Run delivers what no gate has seen. -/
theorem delivered_not_gated :
    ∃ s : DeliveryState Unit, Runs.Steps (Runs.Guarded PassesOnOffers (DeliveryStep {}))
        { world := emptyWorld } madeUpDelivery s ∧
      ∃ w' record delivered, Cut {} s.world (deliverCall "r") w' ∧
        Delivers s.world.store w'.store record delivered ∧
        ¬ ∃ output, delivered.task.finalOutput = some output ∧
          ⟨record.taskId, output.artifactRef, output.sha256⟩ ∈ s.gated := by
  obtain ⟨s, hrun, hdelivers⟩ := exists_delivery PassesOnOffers {} emptyWorld madeUpDelivery
    (P := DeliversWith (fun gated _ => gated = []) "r") (by decide)
  obtain ⟨w', record, delivered, hcut, hdone, hgated⟩ := hdelivers.delivers
  refine ⟨s, hrun, w', record, delivered, hcut, hdone, ?_⟩
  rintro ⟨output, _, hmem⟩
  rw [hgated] at hmem
  cases hmem

end Newide
