import Newide.RunLife

/-!
# The active stage

`active_stage` is written when a stage starts and read by the front end
as "a stage is executing".  The exits of a stage clear it; the exits of
a Run that copy the diagnostics whole do not.  So it marks a running
stage in every run in which none of those exits is taken inside a stage.
-/

namespace Newide

open Fallible CoordinationStore Tables

def handlerEvents (events : List PersistedCoordinationEvent) (runId : String) :
    List PersistedCoordinationEvent :=
  events.filter fun event => hasPrefix event.eventType "handler." ∧ event.runId = some runId

structure MarksStage (record : TaskRecord) (stage : ActiveStage) (run : PersistedRunState) :
    Prop where
  run_mem : run ∈ record.runs
  active : isActiveRun run = true
  current : record.runtimeState.currentRunId = some run.runId
  cursor : stage.cursor = record.runtimeState.resumeCursor
  started : ∃ event, (handlerEvents record.events run.runId).getLast? = some event ∧
    event.eventType = "handler.started" ∧ event.eventId = stage.startedEventId

/-- A stored active stage marks a running stage. -/
def StageMarked (record : TaskRecord) : Prop :=
  ∀ stage ∈ record.runtimeState.diagnostics.activeStage, ∃ run, MarksStage record stage run

/-! ## What a commit does to the stage -/

/-- The operation takes this Task out of its stage without clearing it, or reports a handler
event the processor did not make. -/
def Operation.leavesStage (op : Operation) (record : TaskRecord) : Prop :=
  match op with
  | .interruptRun runId _ => ∃ run ∈ record.activeRuns, run.runId = runId
  | .recoverInterruptedTasks => record.activeRuns ≠ []
  | .completeRunForMailboxWait runId => ∃ run ∈ record.activeRuns, run.runId = runId
  | .expireMailboxWait taskId _ => record.taskId = taskId
  | .recordRunEvent runId event =>
      hasPrefix event.eventType "handler." = true ∧ ∃ run ∈ record.activeRuns, run.runId = runId
  | _ => False

instance (op : Operation) (record : TaskRecord) : Decidable (op.leavesStage record) :=
  match op with
  | .interruptRun runId _ | .completeRunForMailboxWait runId =>
      inferInstanceAs (Decidable (∃ run ∈ record.activeRuns, run.runId = runId))
  | .recoverInterruptedTasks => inferInstanceAs (Decidable (record.activeRuns ≠ []))
  | .expireMailboxWait taskId _ => inferInstanceAs (Decidable (record.taskId = taskId))
  | .recordRunEvent _ _ => inferInstanceAs (Decidable (_ ∧ _))
  | .beginRun _ | .startStage _ | .recordCouncilSapDispatch _ _ | .recordCouncilSapResult ..
  | .advanceStage _ | .failStage _ | .blockMailboxDeadlock .. | .setCouncilOverride _
  | .finishRun _ | .recordWorkspaceRestore .. | .saveShutdownSafepoints | .deleteTask _ =>
      inferInstanceAs (Decidable False)

/-- The call leaves no Task in the middle of a stage. -/
def KeepsStages (call : Call) (store : CoordinationStore) : Prop :=
  ∀ record ∈ store.tables.records, record.runtimeState.diagnostics.activeStage.isSome = true →
    ¬ call.op.leavesStage record

instance (call : Call) (store : CoordinationStore) : Decidable (KeepsStages call store) :=
  inferInstanceAs (Decidable (∀ record ∈ store.tables.records, _ → ¬ _))

/-- What a commit does to the stage of its Task. -/
inductive StageEffect (store : CoordinationStore) :
    Option TaskRecord → CoordinationStateCommit → Prop where
  | clears {old : Option TaskRecord} {input : CoordinationStateCommit}
      (h : input.runtimeState.diagnostics.activeStage = none) : StageEffect store old input
  /-- The owned Run starts a stage. -/
  | starts {record : TaskRecord} {input : CoordinationStateCommit} {run w : PersistedRunState}
      {stage : ActiveStage} {event : Event} {runId : String}
      (howns : Owns store record run runId)
      (hstage : input.runtimeState.diagnostics.activeStage = some stage)
      (hcursor : stage.cursor = input.runtimeState.resumeCursor)
      (hcurrent : input.runtimeState.currentRunId = record.runtimeState.currentRunId)
      (hrun : input.run = some w) (hid : w.runId = run.runId) (hactive : isActiveRun w = true)
      (hevents : input.events = [event]) (hevent : HandlerEvent event "handler.started" runId)
      (hstarted : event.eventId = stage.startedEventId) : StageEffect store (some record) input
  /-- A stage goes on. -/
  | keeps {record : TaskRecord} {input : CoordinationStateCommit} {stage stage' : ActiveStage}
      (hold : record.runtimeState.diagnostics.activeStage = some stage)
      (hstage : input.runtimeState.diagnostics.activeStage = some stage')
      (hsame : SameInvocation stage stage')
      (hcursor : input.runtimeState.resumeCursor = record.runtimeState.resumeCursor)
      (hcurrent : input.runtimeState.currentRunId = record.runtimeState.currentRunId)
      (hrun : ∀ w ∈ input.run, ∃ run ∈ record.runs,
        run.runId = w.runId ∧ isActiveRun w = isActiveRun run)
      (hevents : ∀ event ∈ input.events, hasPrefix event.eventType "handler." = false) :
      StageEffect store (some record) input

variable {call : Call} {events : List PersistedCoordinationEvent} {record : TaskRecord}
  {runId : String}

section
variable {store after : CoordinationStore} {env : Env} {op : Operation}
  {old : Option TaskRecord} {input : CoordinationStateCommit} {last : Nat}

theorem StageEffect.carried (hsame : input.runtimeState.diagnostics.activeStage =
      record.runtimeState.diagnostics.activeStage)
    (hcursor : record.runtimeState.diagnostics.activeStage.isSome = true →
      input.runtimeState.resumeCursor = record.runtimeState.resumeCursor)
    (hcurrent : record.runtimeState.diagnostics.activeStage.isSome = true →
      input.runtimeState.currentRunId = record.runtimeState.currentRunId)
    (hrun : record.runtimeState.diagnostics.activeStage.isSome = true →
      ∀ w ∈ input.run, ∃ run ∈ record.runs, run.runId = w.runId ∧ isActiveRun w = isActiveRun run)
    (hevents : record.runtimeState.diagnostics.activeStage.isSome = true →
      ∀ event ∈ input.events, hasPrefix event.eventType "handler." = false) :
    StageEffect store (some record) input := by
  cases hold : record.runtimeState.diagnostics.activeStage with
  | none => exact .clears (hsame.trans hold)
  | some stage =>
      have hsome : record.runtimeState.diagnostics.activeStage.isSome = true := by
        rw [hold]
        rfl
      exact .keeps hold (hsame.trans hold) ⟨rfl, rfl, rfl⟩ (hcursor hsome) (hcurrent hsome)
        (hrun hsome) (hevents hsome)

theorem TaskCommit.stageEffect (h : TaskCommit store env op old input)
    (hguard : ∀ record ∈ old, record.runtimeState.diagnostics.activeStage.isSome = true →
      ¬ op.leavesStage record) : StageEffect store old input := by
  have touch : ∀ {record : TaskRecord} {run w : PersistedRunState},
      run ∈ record.runs → w.runId = run.runId → w.status = run.status →
      ∀ w' ∈ some w, ∃ run ∈ record.runs, run.runId = w'.runId ∧ isActiveRun w' = isActiveRun run := by
    intro record run w hmem hid hstatus w' hw'
    cases hw'
    exact ⟨run, hmem, hid.symm, by simp [isActiveRun, hstatus]⟩
  have own_event : ∀ {eventType subjectId taskId runId : String} {payload : Payload},
      hasPrefix eventType "handler." = false → hasPrefix
        (createEvent env 0 eventType subjectId taskId runId payload).eventType "handler." = false :=
    fun h => h
  cases h with
  | beginNew | beginExisting | advance | fail | finish => exact .clears rfl
  | startStage hat hidle hevent =>
      exact .starts hat.toOwns rfl hat.cursor_eq.symm rfl rfl rfl
        (by simpa [isActiveRun] using hat.active) rfl hevent rfl
  | councilReceipt hop hacts hin hsame hevent =>
      refine .keeps hin.stored rfl hsame rfl rfl (touch hacts.run_mem rfl rfl) ?_
      intro event he
      rw [List.mem_singleton.mp he]
      exact hevent
  | override howns =>
      refine .carried rfl (fun _ => rfl) (fun _ => rfl)
        (fun _ => touch howns.run_mem rfl rfl) (fun _ event he => ?_)
      cases List.mem_singleton.mp he
      exact own_event (by decide)
  | @runEvent runId event record run hacts hactive htask hrun =>
      refine .carried rfl (fun hsome => ?_) (fun _ => rfl)
        (fun _ => touch hacts.run_mem rfl rfl) (fun hsome e he => ?_)
      · simp [recordRunEventCommit, hsome]
      · rw [List.mem_singleton.mp he]
        have hleaves := hguard record rfl hsome
        by_contra hhandler
        exact hleaves ⟨by simpa using hhandler, run,
          mem_activeRuns.mpr ⟨hacts.run_mem, hactive⟩, hacts.run_id⟩
  | @mailboxWait runId reason deliveryIds record run howns hwait =>
      have hnone : record.runtimeState.diagnostics.activeStage = none := by
        by_contra hsome
        exact hguard record rfl (Option.isSome_iff_ne_none.mpr hsome)
          ⟨run, mem_activeRuns.mpr ⟨howns.run_mem, howns.active⟩, howns.run_id⟩
      exact .clears hnone
  | @block taskId reason runId record hrec =>
      refine .carried rfl (fun _ => rfl) (fun _ => rfl) (fun _ w hw => ?_) (fun _ event he => ?_)
      · cases hw
      · cases List.mem_singleton.mp he
        exact own_event (by decide)
  | @expire taskId reason runId record hrec =>
      have hnone : record.runtimeState.diagnostics.activeStage = none := by
        by_contra hsome
        exact hguard record rfl (Option.isSome_iff_ne_none.mpr hsome)
          (record?_taskId hrec)
      exact .clears hnone
  | @interrupt _ record run request hop hacts hactive =>
      have hmem := mem_activeRuns.mpr ⟨hacts.run_mem, hactive⟩
      have hnone : record.runtimeState.diagnostics.activeStage = none := by
        by_contra hsome
        refine hguard record rfl (Option.isSome_iff_ne_none.mpr hsome) ?_
        rcases hop with ⟨_, rfl, _⟩ | ⟨rfl, _⟩
        · exact ⟨run, hmem, rfl⟩
        · exact List.ne_nil_of_mem hmem
      exact .clears hnone
  | safepoint hop hacts =>
      refine .carried rfl (fun _ => rfl) (fun _ => rfl)
        (fun _ => touch hacts.run_mem rfl rfl) (fun _ event he => ?_)
      cases List.mem_singleton.mp he
      exact own_event (by decide)
  | restore hrec =>
      refine .carried rfl (fun _ => rfl) (fun _ => rfl) (fun _ w hw => ?_) (fun _ event he => ?_)
      · cases hw
      · cases List.mem_singleton.mp he
        exact own_event (by decide)

theorem handlerEvents_append {new : List Event}
    (h : ∀ event ∈ new, hasPrefix event.eventType "handler." = false) :
    handlerEvents (events ++ numberEvents last new) runId = handlerEvents events runId := by
  have hnone : handlerEvents (numberEvents last new) runId = [] := by
    refine List.filter_eq_nil_iff.mpr fun event he => ?_
    obtain ⟨raw, hraw, n, rfl⟩ := mem_numberEvents he
    simp [readEvent, h raw hraw]
  rw [handlerEvents, List.filter_append]
  show handlerEvents events runId ++ handlerEvents (numberEvents last new) runId = _
  rw [hnone, List.append_nil]

theorem handlerEvents_started {event : Event} (h : HandlerEvent event "handler.started" runId)
    (hne : runId ≠ "") :
    (handlerEvents (events ++ numberEvents last [event]) runId).getLast? =
      some (readEvent event (last + 1)) := by
  have hread : (readEvent event (last + 1)).runId = some runId := by
    show truthy event.runId = some runId
    rw [h.run_eq, truthy_of_ne hne]
  have hhandler : hasPrefix (readEvent event (last + 1)).eventType "handler." = true := by
    rw [show (readEvent event (last + 1)).eventType = event.eventType from rfl, h.type_eq]
    decide
  simp [handlerEvents, List.filter_append, numberEvents, hread, hhandler]

theorem StageMarked.of_effect (heff : StageEffect store old input)
    (hold : store.record? input.task.taskId = old) (hkept : ∀ record ∈ old, WellKept record)
    (hI : ∀ record ∈ old, StageMarked record) : StageMarked (recordAfter old input last) := by
  intro marked hmarked
  rw [recordAfter_runtimeState] at hmarked
  have hmarked : input.runtimeState.diagnostics.activeStage = some marked := hmarked
  cases heff with
  | clears hnone =>
      rw [hnone] at hmarked
      cases hmarked
  | @starts record _ run w stage event runId howns hstage hcursor hcurrent hrun hid hactive
      hevents hevent hstarted =>
      rw [hstage] at hmarked
      cases hmarked
      have hne : run.runId ≠ "" := fun he => (hkept record rfl).current_ne (he ▸ howns.current)
      refine ⟨readRun w, (mem_recordAfter_runs hold).mpr (.inl ⟨w, hrun, rfl⟩), hactive, ?_, ?_, ?_⟩
      · rw [recordAfter_runtimeState]
        show truthy input.runtimeState.currentRunId = some w.runId
        rw [hcurrent, howns.current, hid, truthy_of_ne hne]
      · rw [recordAfter_runtimeState]
        exact hcursor
      · have hid : (readRun w).runId = runId := hid.trans howns.run_id
        rw [recordAfter_events, hevents, hid]
        exact ⟨_, handlerEvents_started hevent (howns.run_id ▸ hne), hevent.type_eq, hstarted⟩
  | @keeps record _ stage stage' hstored hstage hsame hcursor hcurrent hrun hevents =>
      rw [hstage] at hmarked
      cases hmarked
      obtain ⟨run, hmark⟩ := hI record rfl stage hstored
      have hne : run.runId ≠ "" := fun he => (hkept record rfl).current_ne (he ▸ hmark.current)
      -- the Run of the stage is still there, and still active
      have hstill : ∃ x ∈ (recordAfter (some record) input last).runs,
          x.runId = run.runId ∧ isActiveRun x = true := by
        by_cases hwritten : ∃ w ∈ input.run, w.runId = run.runId
        · obtain ⟨w, hw, hid⟩ := hwritten
          obtain ⟨run', hmem', hid', heq⟩ := hrun w hw
          have hrec := record?_mem hold
          have : run' = run := (store.constraints.record_runs_distinct hrec).eq_of_key hmem'
            hmark.run_mem (hid'.trans hid)
          exact ⟨readRun w, (mem_recordAfter_runs hold).mpr (.inl ⟨w, hw, rfl⟩), hid,
            heq.trans (this ▸ hmark.active)⟩
        · refine ⟨run, (mem_recordAfter_runs hold).mpr (.inr ⟨hmark.run_mem, ?_⟩), rfl,
            hmark.active⟩
          intro w hw heq
          exact hwritten ⟨w, hw, heq.symm⟩
      obtain ⟨x, hx, hxid, hxact⟩ := hstill
      obtain ⟨event, hlast, htype, hid⟩ := hmark.started
      refine ⟨x, hx, hxact, ?_, ?_, event, ?_, htype, ?_⟩
      · rw [recordAfter_runtimeState]
        show truthy input.runtimeState.currentRunId = some x.runId
        rw [hcurrent, hmark.current, hxid, truthy_of_ne hne]
      · rw [recordAfter_runtimeState, hsame.cursor_eq, hmark.cursor]
        exact hcursor.symm
      · rw [recordAfter_events, hxid, handlerEvents_append hevents]
        exact hlast
      · rw [hid, hsame.event]

/-- A Run of the Task ended, or the handler of its stage did. -/
def LeftStage (record record' : TaskRecord) : Prop :=
  (∃ run ∈ record.activeRuns, ∀ run' ∈ record'.activeRuns, run'.runId ≠ run.runId) ∨
    ∃ event ∈ record'.events, event ∉ record.events ∧
      event.eventType ∈ ["handler.completed", "handler.failed"]

/-- A transaction that takes a Task out of a stage clears its active stage. -/
def ClearsStages (store after : CoordinationStore) : Prop :=
  ∀ record ∈ store.tables.records, ∀ record' ∈ after.tables.records,
    record'.taskId = record.taskId → LeftStage record record' →
      record'.runtimeState.diagnostics.activeStage = none

theorem StageEffect.left (heff : StageEffect store (some record) input)
    (hold : store.record? input.task.taskId = some record)
    (h : LeftStage record (recordAfter (some record) input last)) :
    input.runtimeState.diagnostics.activeStage = none := by
  have hrec := record?_mem hold
  -- a Run that is written back as it was is still active
  have stays : (∀ w ∈ input.run, ∃ run ∈ record.runs,
      run.runId = w.runId ∧ isActiveRun w = isActiveRun run) → ∀ run ∈ record.activeRuns,
        ∃ run' ∈ (recordAfter (some record) input last).activeRuns, run'.runId = run.runId := by
    intro hrun run hmem
    obtain ⟨hmem, hactive⟩ := mem_activeRuns.mp hmem
    by_cases hwritten : ∃ w ∈ input.run, w.runId = run.runId
    · obtain ⟨w, hw, hid⟩ := hwritten
      obtain ⟨run', hmem', hid', heq⟩ := hrun w hw
      have : run' = run := (store.constraints.record_runs_distinct hrec).eq_of_key hmem' hmem
        (hid'.trans hid)
      exact ⟨readRun w, mem_activeRuns.mpr ⟨(mem_recordAfter_runs hold).mpr
        (.inl ⟨w, hw, rfl⟩), heq.trans (this ▸ hactive)⟩, hid⟩
    · refine ⟨run, mem_activeRuns.mpr ⟨(mem_recordAfter_runs hold).mpr (.inr ⟨hmem, ?_⟩),
        hactive⟩, rfl⟩
      intro w hw heq
      exact hwritten ⟨w, hw, heq.symm⟩
  -- the events a commit adds are those it lists
  have added : ∀ event ∈ (recordAfter (some record) input last).events, event ∉ record.events →
      ∃ raw ∈ input.events, event.eventType = raw.eventType := by
    intro event he hnew
    rw [recordAfter_events, List.mem_append] at he
    rcases he with he | he
    · exact absurd he hnew
    · obtain ⟨raw, hraw, n, rfl⟩ := mem_numberEvents he
      exact ⟨raw, hraw, rfl⟩
  cases heff with
  | clears hnone => exact hnone
  | @starts _ _ run w stage event runId howns hstage hcursor hcurrent hrun hid hactive hevents
      hevent hstarted =>
      exfalso
      rcases h with ⟨x, hx, hgone⟩ | ⟨e, he, hnew, htype⟩
      · have htouch : ∀ w' ∈ input.run, ∃ run ∈ record.runs,
            run.runId = w'.runId ∧ isActiveRun w' = isActiveRun run := by
          intro w' hw'
          rw [hrun] at hw'
          cases hw'
          exact ⟨run, howns.run_mem, hid.symm, hactive.trans howns.active.symm⟩
        obtain ⟨run', hmem, hid⟩ := stays htouch x hx
        exact hgone run' hmem hid
      · obtain ⟨raw, hraw, heq⟩ := added e he hnew
        rw [hevents, List.mem_singleton] at hraw
        rw [heq, hraw, hevent.type_eq] at htype
        exact absurd htype (by decide)
  | keeps hstored hstage hsame hcursor hcurrent hrun hevents =>
      exfalso
      rcases h with ⟨x, hx, hgone⟩ | ⟨e, he, hnew, htype⟩
      · obtain ⟨run', hmem, hid⟩ := stays hrun x hx
        exact hgone run' hmem hid
      · obtain ⟨raw, hraw, heq⟩ := added e he hnew
        have hother := hevents raw hraw
        rw [← heq] at hother
        simp only [List.mem_cons, List.not_mem_nil, or_false] at htype
        rcases htype with htype | htype <;> rw [htype] at hother <;> exact absurd hother (by decide)

/-! ## Runs of calls -/

theorem leavesStage_before (hc : TaskCommit store env op old input)
    (h : op.leavesStage (recordAfter old input last)) :
    ∃ record ∈ old, op.leavesStage record := by
  have hbegin : ∀ request, op ≠ .beginRun request := by
    rintro request rfl
    exact h
  cases old with
  | none =>
      cases hc.effect with
      | begins hop => exact absurd hop (hbegin _)
  | some record =>
      refine ⟨record, rfl, ?_⟩
      have before : ∀ x ∈ (recordAfter (some record) input last).activeRuns,
          ∃ run ∈ record.activeRuns, run.runId = x.runId := by
        intro x hx
        obtain ⟨hx, hactive⟩ := mem_activeRuns.mp hx
        obtain ⟨run, hrun, hid, hact⟩ := active_before hc.effect hc.old_eq hbegin hx hactive
        exact ⟨run, mem_activeRuns.mpr ⟨hrun, hact⟩, hid⟩
      have one : ∀ {runId : String}, (∃ run ∈ (recordAfter (some record) input last).activeRuns,
          run.runId = runId) → ∃ run ∈ record.activeRuns, run.runId = runId := by
        rintro runId ⟨x, hx, rfl⟩
        exact before x hx
      cases op with
      | interruptRun | completeRunForMailboxWait => exact one h
      | recordRunEvent => exact ⟨h.1, one h.2⟩
      | recoverInterruptedTasks =>
          obtain ⟨x, hx⟩ := List.exists_mem_of_ne_nil _ h
          obtain ⟨run, hrun, _⟩ := before x hx
          exact List.ne_nil_of_mem hrun
      | expireMailboxWait taskId =>
          refine Eq.trans ?_ h
          rw [recordAfter_taskId]
          exact record?_taskId hc.old_eq
      | _ => exact h

theorem leavesStage_carried (hc : TaskCommit store env op (some record) input)
    (h : op.leavesStage record) :
    input.runtimeState.diagnostics.activeStage =
      record.runtimeState.diagnostics.activeStage := by
  cases hc with
  | runEvent | mailboxWait | expire | interrupt => rfl
  | beginExisting | startStage | advance | fail | override | block | finish | restore =>
      exact absurd h id
  | councilReceipt hop => cases op <;> first | exact absurd hop id | exact absurd h id
  | safepoint hop =>
      rcases hop with ⟨rfl, _⟩ | ⟨⟨_, rfl, _⟩, _⟩
      · exact absurd h id
      · exact absurd h id

/-- The stages a call keeps it keeps from each of its transactions to the next. -/
theorem keepsStages_step (h : StoreStep call.op call.env store after)
    (hguard : KeepsStages call store) : KeepsStages call after := by
  intro record' hmem' hsome hleaves
  cases h with
  | commit hc hstore =>
      rcases mem_records_after hc.old_eq hstore hmem' with rfl | ⟨hold, _⟩
      · obtain ⟨record, rfl, hbefore⟩ := leavesStage_before hc hleaves
        rw [recordAfter_runtimeState] at hsome
        refine hguard record hc.record_mem ?_ hbefore
        rw [← leavesStage_carried hc hbefore]
        exact hsome
      · exact hguard record' hold hsome hleaves
  | delete hop hstore =>
      rw [hop] at hleaves
      exact hleaves
  | protocol => exact hguard record' hmem' hsome hleaves

theorem stageMarked_step (h : StoreStep call.op call.env store after)
    (hguard : KeepsStages call store) (hkept : Everywhere WellKept store)
    (hI : Everywhere StageMarked store) : Everywhere StageMarked after := by
  refine hI.step h (fun k old input hc _ => ?_) (fun record gone hr hgone => ?_)
  · have hmem : ∀ record ∈ old, record ∈ store.tables.records := fun record hr =>
      record?_mem (hr ▸ hc.old_eq)
    exact .of_effect (hc.stageEffect fun r hr => hguard r (hmem r hr)) hc.old_eq
      (fun r hr => hkept r (hmem r hr)) fun r hr => hI r (hmem r hr)
  · intro stage hstage
    obtain ⟨run, hmark⟩ := hr stage hstage
    refine ⟨run, hmark.run_mem, hmark.active, ?_, hmark.cursor, hmark.started⟩
    show record.runtimeState.currentRunId.filter _ = _
    rw [hmark.current]
    simpa [Option.filter] using hgone run hmark.run_mem

theorem clearsStages_step (h : StoreStep call.op call.env store after)
    (hguard : KeepsStages call store) : ClearsStages store after := by
  have same : ∀ {record : TaskRecord}, ¬ LeftStage record record := by
    rintro record (⟨run, hrun, hgone⟩ | ⟨event, he, hnew, _⟩)
    · exact hgone run hrun rfl
    · exact hnew he
  intro record hmem record' hmem' hid hleft
  cases h with
  | commit hc hstore =>
      rcases mem_records_after hc.old_eq hstore hmem' with rfl | ⟨hold, _⟩
      · have hrec := record?_of_mem hmem
        rw [← hid, recordAfter_taskId] at hrec
        have hold := hc.old_eq.symm.trans hrec
        subst hold
        rw [recordAfter_runtimeState]
        exact (hc.stageEffect fun r hr => by
          cases hr
          exact hguard record hmem).left hc.old_eq hleft
      · have hsame := record?_of_mem hold
        rw [hid, record?_of_mem hmem] at hsame
        cases hsame
        exact absurd hleft same
  | delete hop hstore =>
      obtain ⟨kept, hkept, _, rfl⟩ := (mem_records_deleted hstore).mp hmem'
      have hsame := record?_of_mem hkept
      have hid : kept.taskId = record.taskId := hid
      rw [hid, record?_of_mem hmem] at hsame
      cases hsame
      exact absurd hleft same
  | protocol =>
      have hsame := record?_of_mem hmem'
      rw [hid, record?_of_mem hmem] at hsame
      cases hsame
      exact absurd hleft same

end

section
variable {π : Type}

/-- In every state of every run of calls, each cut anywhere, in which no Run is interrupted
or parked inside a stage and no handler event is reported by hand, a stored active stage is
the one the current Run is executing; and the transactions that end, interrupt or advance a
Run clear it. -/
theorem active_stage_marks (bridges : Bridges π) {w w' : World π} {calls : List Call}
    (hw : Initial w)
    (h : Runs.Steps (Runs.Guarded (fun a c => KeepsStages c a.store) (Cut bridges)) w calls w') :
    (∀ record ∈ w'.store.tables.records, StageMarked record) ∧
      ∀ call, KeepsStages call w'.store → List.IsChain ClearsStages
        (w'.store :: (exec bridges call.env w' call.op).commits.map (·.store)) := by
  have hinv := invariant_of_steps KeepsStages
    (I := fun s => Everywhere WellKept s ∧ Everywhere StageMarked s) (fun _ _ _ hab => hab)
    ⟨fun _ hm => (by cases hm), fun _ hm => (by cases hm)⟩
    (fun c a b hI hguard hstep => ⟨⟨wellKept_step hstep hI.1,
      stageMarked_step hstep hguard hI.1 hI.2⟩, keepsStages_step hstep hguard⟩) hw h
  refine ⟨hinv.2, fun call hguard => ?_⟩
  have hchain := Runs.chain_strengthen (I := KeepsStages call)
    (fun a b ha hab => keepsStages_step hab ha) hguard
    (exec_chain bridges call.env w' call.op)
  exact hchain.imp fun a b hab => clearsStages_step hab.2 hab.1

/-- A stage of a Run that goes on after another was completed is marked. -/
theorem active_stage_marks_second : ∃ w : World Unit, ∃ record ∈ w.store.tables.records,
    record.runtimeState.diagnostics.activeStage.isSome = true ∧ StageMarked record := by
  obtain ⟨w, hrun, record, hmem, hsome⟩ := exists_guarded_run KeepsStages {} emptyWorld
    [⟨stoppedEnv '1', .beginRun createRequest⟩, startCall '2' "r" .selectAgent,
     advanceCall '3' "r" .selectAgent (.executeAgent "a" none none) none,
     startCall '4' "r" .executeAgent]
    (P := fun w => ∃ record ∈ w.store.tables.records,
      record.runtimeState.diagnostics.activeStage.isSome = true) (by decide)
  have hmarks := active_stage_marks {} (w := emptyWorld) rfl
    (hrun.mono fun _ _ _ hab => ⟨hab.1, hab.2.cut⟩)
  exact ⟨w, record, hmem, hsome, hmarks.1 record hmem⟩

/-- A Run that is interrupted inside a stage leaves the mark of a stage no Run executes. -/
theorem active_stage_left : ∃ w : World Unit, Runs.Steps (Returns {}) emptyWorld
    [⟨stoppedEnv '1', .beginRun createRequest⟩, startCall '2' "r" .selectAgent,
     ⟨stoppedEnv '3', .interruptRun "r" { reason := "stop", source := .user }⟩] w ∧
    ∃ record ∈ w.store.tables.records, ¬ StageMarked record := by
  obtain ⟨w, hrun, record, hmem, hsome, hidle⟩ := exists_run {} emptyWorld
    [⟨stoppedEnv '1', .beginRun createRequest⟩, startCall '2' "r" .selectAgent,
     ⟨stoppedEnv '3', .interruptRun "r" { reason := "stop", source := .user }⟩]
    (P := fun w => ∃ record ∈ w.store.tables.records,
      record.runtimeState.diagnostics.activeStage.isSome = true ∧
        record.runtimeState.currentRunId = none) (by decide)
  refine ⟨w, hrun, record, hmem, fun hmarked => ?_⟩
  obtain ⟨stage, hstage⟩ := Option.isSome_iff_exists.mp hsome
  obtain ⟨run, hmark⟩ := hmarked stage hstage
  have hcurrent := hmark.current
  rw [hidle] at hcurrent
  cases hcurrent

end

end Newide
