import Newide.Interruption

/-!
# Changesets bound by a gate

Gate binds a changeset to its hash, delivery keeps the pair, and the
final output must be the pair.  It travels in the cursor input alone, so
what has to be shown is where a deliver input can come from: an advance
from gate, a resume that was offered one, or a reconstruction from the
artifact references, which no gate has seen.  Calls that reconstruct
none keep every stored deliver input bound.
-/

namespace Newide

open Fallible CoordinationStore TaskCursorInput

/-! ## What has been gated -/

/-- A changeset that a Task has moved from `gate` to `deliver` with. -/
structure GatedChangeset where
  taskId : String
  changesetRef : String
  expectedSha256 : String

def CoordinationStore.cursor? (store : CoordinationStore) (taskId : String) :
    Option TaskResumeCursor :=
  (store.record? taskId).map (·.runtimeState.resumeCursor)

/-- The changeset of a Task that stood at `gate` and stands at `deliver` afterwards. -/
def TaskRecord.gatedChangeset? (record : TaskRecord) (after : CoordinationStore) :
    Option GatedChangeset :=
  match record.runtimeState.resumeCursor, record.runtimeState.cursorInput,
      after.cursor? record.taskId with
  | .gate, some (.gate _ _ changesetRef expectedSha256), some .deliver =>
      some { taskId := record.taskId, changesetRef, expectedSha256 }
  | _, _, _ => none

/-- The changesets a call has gated: only `advanceStage` gates. -/
def gatedBy (call : Call) (before after : CoordinationStore) : List GatedChangeset :=
  match call.op with
  | .advanceStage _ => before.tables.records.filterMap fun record => record.gatedChangeset? after
  | _ => []

def Bound (gated : List GatedChangeset) (taskId : String) : TaskCursorInput → Prop
  | .deliver changesetRef expectedSha256 => ⟨taskId, changesetRef, expectedSha256⟩ ∈ gated
  | _ => True

/-- Every deliver input a Task has stored is bound. -/
structure BoundRecord (gated : List GatedChangeset) (record : TaskRecord) : Prop where
  stored : ∀ i ∈ record.runtimeState.cursorInput, Bound gated record.taskId i
  saved : ∀ c ∈ record.checkpoints, ∀ i ∈ c.cursorInput, Bound gated record.taskId i

section
variable {gated more : List GatedChangeset} {taskId : String} {i : TaskCursorInput}

theorem Bound.of_cursor (h : i.cursor ≠ .deliver) : Bound gated taskId i := by
  cases i with
  | deliver => exact absurd rfl h
  | selectAgent | executeAgent | council | gate | mailboxWait | done => trivial

theorem Bound.append (h : Bound gated taskId i) : Bound (gated ++ more) taskId i := by
  cases i with
  | deliver => exact List.mem_append_left _ h
  | selectAgent | executeAgent | council | gate | mailboxWait | done => trivial

theorem BoundRecord.append {record : TaskRecord} (h : BoundRecord gated record) :
    BoundRecord (gated ++ more) record where
  stored i hi := (h.stored i hi).append
  saved c hc i hi := (h.saved c hc i hi).append

end

/-! ## Reconstructing a deliver input -/

/-- A Task at `deliver` has no input stored, and has an artifact to make one up from. -/
def TaskRecord.Unbound (record : TaskRecord) : Prop :=
  record.runtimeState.resumeCursor = .deliver ∧ record.runtimeState.cursorInput = none ∧
    truthy record.runtimeState.artifactRefs.getLast? ≠ none

instance (record : TaskRecord) : Decidable record.Unbound :=
  inferInstanceAs (Decidable (_ ∧ _ ∧ _))

/-- The Runs an operation takes a safepoint of, whatever stage they are in. -/
def Operation.saves (op : Operation) (run : PersistedRunState) : Bool :=
  match op with
  | .interruptRun runId _ => run.runId = runId ∧ isActiveRun run = true
  | .recoverInterruptedTasks => isActiveRun run
  | .saveShutdownSafepoints => isActiveRun run
  | _ => false

/-- A call takes no safepoint of a Run whose deliver input it would have to make up. -/
def SavesBound (call : Call) (store : CoordinationStore) : Prop :=
  ∀ record ∈ store.tables.records, ∀ run ∈ record.runs, call.op.saves run = true →
    ¬ record.Unbound

instance (call : Call) (store : CoordinationStore) : Decidable (SavesBound call store) :=
  inferInstanceAs (Decidable (∀ record ∈ store.tables.records, ∀ run ∈ record.runs, _ → _))

theorem synthesizeCursorInput_deliver {cursor : TaskResumeCursor}
    {aggregate : PersistedTaskAggregate} {runId changesetRef expectedSha256 : String}
    (hseed : aggregate.runtimeState.diagnostics.Unseeded)
    (h : synthesizeCursorInput cursor aggregate runId =
      some (.deliver changesetRef expectedSha256)) :
    cursor = .deliver ∧ truthy aggregate.runtimeState.artifactRefs.getLast? ≠ none := by
  have hcursor : TaskResumeCursor.deliver = cursor := synthesizeCursorInput_cursor h
  subst hcursor
  refine ⟨rfl, fun hnone => ?_⟩
  simp [synthesizeCursorInput, hseed.1, readDiagString, hnone] at h

theorem safepointCursorInput_bound {gated : List GatedChangeset} {record : TaskRecord}
    {runId : String} (hkept : WellKept record) (hbound : BoundRecord gated record)
    (hstored : ¬ record.Unbound) {i : TaskCursorInput}
    (h : safepointCursorInput record.aggregate runId = some i) : Bound gated record.taskId i := by
  simp only [safepointCursorInput, Option.orElse_eq_orElse, Option.orElse_eq_or,
    Option.or_eq_some_iff, Option.filter_eq_some_iff] at h
  rcases h with ⟨hi, _⟩ | ⟨hnone, hi⟩
  · exact hbound.stored i hi
  · cases i with
    | deliver changesetRef expectedSha256 =>
        obtain ⟨hcursor, href⟩ := synthesizeCursorInput_deliver hkept.unseeded hi
        refine absurd ⟨hcursor, ?_, href⟩ hstored
        cases hc : record.runtimeState.cursorInput with
        | none => rfl
        | some j =>
            have hfits := (hkept.cursor j hc).2
            simp [hc, Option.filter, hfits] at hnone
    | selectAgent | executeAgent | council | gate | mailboxWait | done => trivial

/-! ## Commits other than an advance -/

/-- A resume from a checkpoint passes on an input that was offered for its Task. -/
def PassesOn (offered : List (String × TaskCursorInput)) : Operation → Prop
  | .beginRun request =>
      request.intent = .checkpointResume .fromCheckpoint →
        ∀ i ∈ request.cursorInput, (request.taskId, i) ∈ offered
  | _ => True

instance (offered : List (String × TaskCursorInput)) (op : Operation) :
    Decidable (PassesOn offered op) := by
  cases op with
  | beginRun request => exact inferInstanceAs (Decidable (_ → ∀ i ∈ request.cursorInput, _))
  | startStage | recordCouncilSapDispatch | recordCouncilSapResult | advanceStage | failStage
  | completeRunForMailboxWait | blockMailboxDeadlock | expireMailboxWait | setCouncilOverride
  | recordRunEvent | recoverInterruptedTasks | interruptRun | finishRun | recordWorkspaceRestore
  | saveShutdownSafepoints | deleteTask => exact inferInstanceAs (Decidable True)

section
variable {store after : CoordinationStore} {env : Env} {op : Operation}
  {old : Option TaskRecord} {input : CoordinationStateCommit} {last : Nat}
  {gated : List GatedChangeset} {offered : List (String × TaskCursorInput)}

theorem assertExistingTaskIntent_deliver {existing : PersistedTaskAggregate}
    {request : BeginTaskRunInput} {checkpoint : Option PersistedFullCheckpoint}
    {mailboxStore : Option MailboxView}
    (h : assertExistingTaskIntent existing request request.initialCursorInput request.intent
      checkpoint mailboxStore = .ok ())
    (hcursor : request.initialCursorInput.cursor = .deliver) :
    request.intent = .checkpointResume .fromCheckpoint := by
  cases hintent : request.intent with
  | create =>
      rw [hintent] at h
      simp [assertExistingTaskIntent, assertCreateIntent, bind_eq_ok, ensure_eq_ok] at h
  | councilRefinement =>
      rw [hintent] at h
      simp [assertExistingTaskIntent, assertCouncilRefinementIntent, bind_eq_ok, ensure_eq_ok,
        hcursor] at h
  | mailboxContinuation sourceDeliveryId =>
      rw [hintent] at h
      simp only [assertExistingTaskIntent, assertMailboxContinuationIntent, bind_eq_ok,
        orThrow_eq_ok] at h
      obtain ⟨_, _, _, _, reply, hreply, _⟩ := h
      split at hreply
      · next heq =>
          rw [heq] at hcursor
          cases hcursor
      · cases hreply
  | checkpointResume strategy =>
      cases strategy with
      | fromCheckpoint => rfl
      | restartFromBeginning =>
          rw [hintent] at h
          simp only [assertExistingTaskIntent, assertCheckpointResumeIntent, bind_eq_ok,
            ensure_eq_ok, ResumeStrategy.startCursor, hcursor] at h
          obtain ⟨_, _, _, _, _, _, _, _, _, _, hstart⟩ := h
          cases hstart

theorem TaskCommit.bound (h : TaskCommit store env op old input)
    (hop : ∀ request, op ≠ .advanceStage request) (hpass : PassesOn offered op)
    (hoffered : ∀ offer ∈ offered, Bound gated offer.1 offer.2)
    (hkept : ∀ record ∈ old, WellKept record) (hbound : ∀ record ∈ old, BoundRecord gated record)
    (hsaves : ∀ record ∈ old, ∀ run ∈ record.runs, op.saves run = true → ¬ record.Unbound) :
    (∀ i ∈ input.runtimeState.cursorInput, Bound gated input.task.taskId i) ∧
      ∀ c ∈ input.checkpoint, ∀ i ∈ c.cursorInput, Bound gated input.task.taskId i := by
  have stored : ∀ {record : TaskRecord}, old = some record → ∀ i ∈ record.runtimeState.cursorInput,
      Bound gated record.taskId i := by
    rintro record rfl
    exact (hbound record rfl).stored
  -- a safepoint stores its own input in the checkpoint and in the runtime state
  have saved : ∀ {record : TaskRecord} {run : PersistedRunState}, old = some record →
      run ∈ record.runs → op.saves run = true →
      (∀ i, safepointCursorInput record.aggregate run.runId = some i →
        Bound gated record.taskId i) ∧
      ∀ i, (safepointCursorInput record.aggregate run.runId <|>
        record.runtimeState.cursorInput) = some i → Bound gated record.taskId i := by
    rintro record run rfl hrun hsave
    have hsafe : ∀ i, safepointCursorInput record.aggregate run.runId = some i →
        Bound gated record.taskId i := fun i hi =>
      safepointCursorInput_bound (hkept record rfl) (hbound record rfl)
        (hsaves record rfl run hrun hsave) hi
    refine ⟨hsafe, fun i hi => ?_⟩
    simp only [Option.orElse_eq_orElse, Option.orElse_eq_or, Option.or_eq_some_iff] at hi
    rcases hi with hi | ⟨_, hi⟩
    · exact hsafe i hi
    · exact stored rfl i hi
  have none : ∀ c ∈ (none : Option PersistedFullCheckpoint), ∀ i ∈ c.cursorInput,
      Bound gated input.task.taskId i := fun _ hc => by cases hc
  have final : ∀ i ∈ some done, Bound gated input.task.taskId i := by
    rintro i hi
    cases hi
    trivial
  cases h with
  | advance => exact absurd rfl (hop _)
  | beginNew hnone hintent hwf hcursor =>
      refine ⟨fun i hi => .of_cursor ?_, none⟩
      cases hi
      rw [hcursor]
      decide
  | @beginExisting request record hrec hidle hdef hwf hintent =>
      refine ⟨fun i hi => ?_, none⟩
      cases hi
      by_cases hcursor : request.initialCursorInput.cursor = .deliver
      · have hresume := assertExistingTaskIntent_deliver hintent hcursor
        have htask : record.task.taskId = request.taskId :=
          record?_taskId hrec
        cases hinput : request.cursorInput with
        | none => simp [BeginTaskRunInput.initialCursorInput, hinput, defaultCursorInput,
            cursor] at hcursor
        | some i =>
            have hoffer := hoffered _ (hpass hresume i hinput)
            show Bound gated record.task.taskId (request.cursorInput.getD _)
            rw [hinput, htask]
            exact hoffer
      · exact .of_cursor hcursor
  | startStage | councilReceipt | override | mailboxWait | block | restore =>
      exact ⟨stored rfl, none⟩
  | fail | expire | finish => exact ⟨final, none⟩
  | runEvent =>
      refine ⟨fun i hi => ?_, none⟩
      simp only [recordRunEventCommit] at hi
      split at hi
      · cases hi
      · exact stored rfl i hi
  | @interrupt _ record run _ hinterrupts hacts hactive =>
      have hsave : op.saves run = true := by
        rcases hinterrupts with ⟨_, rfl, _⟩ | ⟨rfl, _⟩
        · simpa [Operation.saves] using hactive
        · exact hactive
      have hsaved := saved rfl hacts.run_mem hsave
      refine ⟨hsaved.2, fun c hc => ?_⟩
      cases hc
      exact hsaved.1
  | @safepoint _ record run _ htakes hacts =>
      have hsave : op.saves run = true := by
        rcases htakes with ⟨rfl, hactive⟩ | ⟨⟨_, rfl, _⟩, _⟩
        · exact hactive
        · exact absurd rfl (hop _)
      have hsaved := saved rfl hacts.run_mem hsave
      refine ⟨hsaved.2, fun c hc => ?_⟩
      cases hc
      exact hsaved.1

theorem BoundRecord.recordAfter (hold : store.record? input.task.taskId = old)
    (hbound : ∀ record ∈ old, BoundRecord gated record)
    (hstored : ∀ i ∈ input.runtimeState.cursorInput, Bound gated input.task.taskId i)
    (hsaved : ∀ c ∈ input.checkpoint, ∀ i ∈ c.cursorInput, Bound gated input.task.taskId i) :
    BoundRecord gated (recordAfter old input last) := by
  refine ⟨?_, fun c hc i hi => ?_⟩
  · simpa [TaskRecord.taskId, readTask, readRuntimeState] using hstored
  · simp only [TaskRecord.taskId, recordAfter_task, readTask]
    rw [recordAfter_checkpoints, List.mem_append] at hc
    rcases hc with hc | hc
    · cases old with
      | none => cases hc
      | some record =>
          have hid : record.task.taskId = input.task.taskId :=
            record?_taskId hold
          exact hid ▸ (hbound record rfl).saved c hc i hi
    · obtain ⟨raw, hraw, rfl⟩ := Option.map_eq_some_iff.mp (Option.mem_toList.mp hc)
      obtain ⟨j, hj, hparse⟩ := Option.bind_eq_some_iff.mp hi
      obtain ⟨_, rfl⟩ := parseTaskCursorInput_eq_ok.mp (swallow_eq_some.mp hparse)
      exact hsaved raw hraw _ hj

theorem savesBound_step {call : Call} (h : StoreStep call.op call.env store after)
    (hsaves : SavesBound call store) : SavesBound call after := by
  intro record hmem run hrun hsave hunbound
  cases h with
  | commit hc hstore =>
      rcases mem_records_after hc.old_eq hstore hmem with rfl | ⟨hold, _⟩
      · obtain ⟨_, hinput, href⟩ := hunbound
        have hactive : isActiveRun run = true := by
          revert hsave
          unfold Operation.saves
          split <;> simp
        generalize hop : call.op = op at hc hsave
        cases hc with
        | beginNew | beginExisting | startStage | advance | fail | override | runEvent
        | mailboxWait | block | expire | finish | restore => cases hsave
        | councilReceipt hreceipt => cases op <;> first | cases hsave | cases hreceipt
        | interrupt _ hacts hactive' =>
            have hover : isActiveRun run = false :=
              interrupted_idle _ _ hacts.record_mem hacts.run_mem hactive' run hrun
            rw [hover] at hactive
            cases hactive
        | @safepoint _ record run' _ htakes hacts =>
            simp only [recordAfter_runtimeState, readRuntimeState, safepointCommit,
              Option.orElse_eq_orElse, Option.orElse_eq_or, Option.or_eq_none_iff] at *
            have hsaved : op.saves run' = true := by
              rcases htakes with ⟨rfl, hactive'⟩ | ⟨⟨_, rfl, _⟩, _⟩
              · exact hactive'
              · cases hsave
            exact hsaves record hacts.record_mem run' hacts.run_mem (hop ▸ hsaved)
              ⟨‹_›, hinput.2, href⟩
      · exact hsaves record hold run hrun hsave hunbound
  | delete hop =>
      rw [hop] at hsave
      cases hsave
  | protocol => exact hsaves record hmem run hrun hsave hunbound

theorem bound_step {call : Call} (h : StoreStep call.op call.env store after)
    (hop : ∀ request, call.op ≠ .advanceStage request) (hpass : PassesOn offered call.op)
    (hoffered : ∀ offer ∈ offered, Bound gated offer.1 offer.2)
    (hkept : Everywhere WellKept store) (hsaves : SavesBound call store)
    (hbound : Everywhere (BoundRecord gated) store) : Everywhere (BoundRecord gated) after := by
  refine hbound.step h (fun k old input hc _ => ?_) fun _ _ hr _ => ⟨hr.stored, hr.saved⟩
  have hmem : ∀ record ∈ old, record ∈ store.tables.records := fun record hr =>
    record?_mem (hr ▸ hc.old_eq)
  have hwritten := hc.bound hop hpass hoffered (fun r hr => hkept r (hmem r hr))
    (fun r hr => hbound r (hmem r hr)) fun r hr => hsaves r (hmem r hr)
  exact .recordAfter hc.old_eq (fun r hr => hbound r (hmem r hr)) hwritten.1 hwritten.2

end

/-! ## Advances -/

variable {π : Type}

/-- What the store is after an advance of a Task, whether or not its safepoint was taken. -/
structure Moved (store : CoordinationStore) (record : TaskRecord) (input : AdvanceTaskStageInput)
    (nextInput : TaskCursorInput) (after : CoordinationStore) : Prop where
  others : ∀ taskId, taskId ≠ record.taskId → after.record? taskId = store.record? taskId
  moved : ∃ final, after.record? record.taskId = some final ∧
    final.runtimeState.resumeCursor = nextInput.cursor ∧
    final.runtimeState.cursorInput = some nextInput ∧
    (nextInput.cursor = .done → final.task.finalOutput = input.finalOutput) ∧
    ∀ c ∈ final.checkpoints, c ∈ record.checkpoints ∨ ∀ i ∈ c.cursorInput, i = nextInput

section
variable {store mid after : CoordinationStore} {env : Env} {record : TaskRecord}
  {run : PersistedRunState} {input : AdvanceTaskStageInput} {nextInput : TaskCursorInput}
  {event : Event} {committed : List PersistedCoordinationEvent}

theorem Moved.of_commit (hmem : record ∈ store.tables.records)
    (hstore : store.commitState (advanceStageCommit env record.aggregate run input nextInput
      event) = .ok (committed, after)) : Moved store record input nextInput after := by
  have hkey : (advanceStageCommit env record.aggregate run input nextInput event).task.taskId =
      record.taskId := advancedTask_taskId ..
  have hold := record?_of_mem hmem
  rw [← hkey] at hold
  have hself := record?_after hold hstore
  refine ⟨fun taskId hne => record?_commit_ne hstore (hkey ▸ hne),
    _, hkey ▸ hself, ?_, ?_, fun hdone => ?_, fun c hc => ?_⟩
  · rw [recordAfter_runtimeState]
    rfl
  · rw [recordAfter_runtimeState]
    rfl
  · simp [readTask, advanceStageCommit, advancedTask, hdone]
  · rw [recordAfter_checkpoints, List.mem_append] at hc
    rcases hc with hc | hc
    · exact .inl hc
    · cases hc

theorem Moved.safepoint (h : Moved store record input nextInput mid) {moved : TaskRecord}
    (hmem : moved ∈ mid.tables.records) (htask : moved.taskId = record.taskId)
    {trigger : SafepointTrigger}
    (hsafe : mid.commitState (safepointCommit env moved.aggregate run trigger
      (mid.getLatestCheckpoint moved.taskId)) = .ok (committed, after)) :
    Moved store record input nextInput after := by
  obtain ⟨final, hfinal, hcursor, hinput, hout, hcheckpoints⟩ := h.moved
  have hrec := record?_of_mem hmem
  rw [htask, hfinal] at hrec
  cases hrec
  have hsafepoint : safepointCursorInput moved.aggregate run.runId = some nextInput :=
    safepointCursorInput_of_stored hinput hcursor.symm
  have hself : after.record? moved.taskId = some (recordAfter (some moved) _ _) :=
    record?_after (record?_of_mem hmem) hsafe
  refine ⟨fun taskId hne => ?_, _, htask ▸ hself, ?_, ?_, ?_, fun c hc => ?_⟩
  · rw [← h.others taskId hne]
    exact record?_commit_ne hsafe fun heq => hne (heq.trans htask)
  · rw [recordAfter_runtimeState]
    exact hcursor
  · rw [recordAfter_runtimeState]
    show (safepointCursorInput moved.aggregate run.runId <|> _) = _
    rw [hsafepoint]
    rfl
  · rw [recordAfter_task]
    exact hout
  · rw [recordAfter_checkpoints, List.mem_append] at hc
    rcases hc with hc | hc
    · exact hcheckpoints c hc
    · obtain ⟨raw, hraw, rfl⟩ := Option.map_eq_some_iff.mp (Option.mem_toList.mp hc)
      cases hraw
      refine .inr fun i hi => ?_
      obtain ⟨j, hj, hparse⟩ := Option.bind_eq_some_iff.mp hi
      obtain ⟨_, rfl⟩ := parseTaskCursorInput_eq_ok.mp (swallow_eq_some.mp hparse)
      exact Option.some.inj (hj.symm.trans hsafepoint)

end

theorem AdvanceCommits.moved {env : Env} {w w' : World π} {input : AdvanceTaskStageInput}
    {commits : List (World π)} (h : AdvanceCommits env w input commits) (hmem : w' ∈ commits) :
    ∃ record run nextInput event, Advances w.store record run input nextInput event ∧
      Moved w.store record input nextInput w'.store := by
  cases h with
  | refused => cases hmem
  | advanced h hstore =>
      rw [List.mem_singleton.mp hmem]
      exact ⟨_, _, _, _, h, .of_commit h.at_stage.record_mem hstore⟩
  | saved h hstore hmoved hacts hsafe =>
      have hfirst := Moved.of_commit h.at_stage.record_mem hstore
      rcases List.mem_cons.mp hmem with rfl | hmem
      · exact ⟨_, _, _, _, h, hfirst⟩
      · rw [List.mem_singleton.mp hmem]
        refine ⟨_, _, _, _, h, hfirst.safepoint hacts.record_mem ?_ hsafe⟩
        rw [hmoved]
        exact advancedTask_taskId ..

section
variable {store after : CoordinationStore} {record : TaskRecord} {run : PersistedRunState}
  {input : AdvanceTaskStageInput} {nextInput : TaskCursorInput} {event : Event}
  {gated : List GatedChangeset} {call : Call}

/-- The input an advance moves to is bound: to what its own gate saw, if to anything. -/
theorem Advances.bound (h : Advances store record run input nextInput event)
    (hmoved : Moved store record input nextInput after) (hcall : call.op = .advanceStage input) :
    Bound (gated ++ gatedBy call store after) record.taskId nextInput := by
  cases nextInput with
  | deliver changesetRef expectedSha256 =>
      have hgate : input.expectedCursor = .gate := by
        have htrans := h.transition
        revert htrans
        cases input.expectedCursor <;> simp [cursorTransitions, cursor]
      have hat := h.at_stage
      rw [hgate] at hat
      obtain ⟨current, hcurrent, hcursor⟩ := Option.map_eq_some_iff.mp hat.input_cursor
      have hidentity := h.identity
      cases current with
      | gate subjectRef phase ref sha =>
          rw [hcurrent] at hidentity
          simp only [assertChangesetIdentity, ensure_eq_ok] at hidentity
          obtain ⟨rfl, rfl⟩ := hidentity
          obtain ⟨final, hfinal, hfinalCursor, _⟩ := hmoved.moved
          refine List.mem_append_right _ ?_
          simp only [gatedBy, hcall]
          refine List.mem_filterMap.mpr ⟨record, hat.record_mem, ?_⟩
          simp [TaskRecord.gatedChangeset?, hat.cursor_eq, hcurrent, cursor?,
            hfinal, hfinalCursor, cursor]
      | selectAgent | executeAgent | council | deliver | mailboxWait | done => cases hcursor
  | selectAgent | executeAgent | council | gate | mailboxWait | done => trivial

theorem Moved.bound (hmoved : Moved store record input nextInput after)
    (h : Advances store record run input nextInput event) (hcall : call.op = .advanceStage input)
    (hbound : Everywhere (BoundRecord gated) store) :
    Everywhere (BoundRecord (gated ++ gatedBy call store after)) after := by
  intro x hx
  have hnext : Bound (gated ++ gatedBy call store after) record.taskId nextInput :=
    h.bound hmoved hcall
  have hrec := record?_of_mem hx
  by_cases hid : x.taskId = record.taskId
  · obtain ⟨final, hfinal, _, hinput, _, hcheckpoints⟩ := hmoved.moved
    rw [hid, hfinal] at hrec
    cases hrec
    have hold : BoundRecord (gated ++ gatedBy call store after) record :=
      (hbound record h.at_stage.record_mem).append
    refine ⟨fun i hi => ?_, fun c hc i hi => ?_⟩
    · rw [hinput] at hi
      cases hi
      exact hid ▸ hnext
    · rw [hid]
      rcases hcheckpoints c hc with hc | hc
      · exact hold.saved c hc i hi
      · exact hc i hi ▸ hnext
  · rw [hmoved.others _ hid] at hrec
    exact (hbound x (record?_mem hrec)).append

end

/-! ## Resume contexts -/

/-- A resume from this checkpoint would have to make up its deliver input. -/
def TaskRecord.UnboundAt (record : TaskRecord) (checkpoint : PersistedFullCheckpoint) : Prop :=
  checkpoint.resumeCursor = .deliver ∧ checkpoint.cursorInput = none ∧
    (∀ i ∈ record.runtimeState.cursorInput, i.cursor ≠ .deliver) ∧
    truthy record.runtimeState.artifactRefs.getLast? ≠ none

instance (record : TaskRecord) (checkpoint : PersistedFullCheckpoint) :
    Decidable (record.UnboundAt checkpoint) :=
  inferInstanceAs (Decidable (_ ∧ _ ∧ (∀ i ∈ record.runtimeState.cursorInput, _) ∧ _))

/-- A Task's resume does not make up a deliver input. -/
def ResumesBound (taskId : String) (store : CoordinationStore) : Prop :=
  ∀ record ∈ store.record? taskId, ∀ checkpoint ∈ store.getLatestCheckpoint taskId,
    ¬ record.UnboundAt checkpoint

instance (taskId : String) (store : CoordinationStore) : Decidable (ResumesBound taskId store) :=
  inferInstanceAs (Decidable (∀ record ∈ store.record? taskId, _))

section
variable {gated : List GatedChangeset} {record : TaskRecord} {store : CoordinationStore}

theorem resolveResumeCursorInput_bound {checkpoint : PersistedFullCheckpoint} {i : TaskCursorInput}
    (hkept : WellKept record) (hbound : BoundRecord gated record)
    (hmem : checkpoint ∈ record.checkpoints) (hstored : ¬ record.UnboundAt checkpoint)
    (h : resolveResumeCursorInput record.aggregate checkpoint = .ok i) :
    Bound gated record.taskId i := by
  have usable : ∀ {candidate : Option TaskCursorInput},
      candidate.bind (usableCandidate checkpoint.resumeCursor) = some i →
        candidate = some i ∧ i.cursor = checkpoint.resumeCursor := by
    intro candidate hc
    obtain ⟨raw, rfl, hraw⟩ := Option.bind_eq_some_iff.mp hc
    obtain ⟨_, hcursor, _, rfl⟩ := usableCandidate_eq_some.mp hraw
    exact ⟨rfl, hcursor⟩
  -- an input stored at `deliver` can always be used
  have passed : ∀ {candidate : Option TaskCursorInput},
      candidate.bind (usableCandidate checkpoint.resumeCursor) = none →
        ∀ j ∈ candidate, j.WellFormed → checkpoint.resumeCursor = .deliver → j.cursor ≠ .deliver := by
    rintro candidate hnone j rfl hwf hdeliver hcursor
    have hids : j.deliveryIds? = none := by
      cases j <;> simp_all [cursor, deliveryIds?]
    have hused : usableCandidate checkpoint.resumeCursor j = some j :=
      usableCandidate_eq_some.mpr ⟨hwf, hcursor.trans hdeliver.symm, by simp [hids], rfl⟩
    rw [Option.bind_some, hused] at hnone
    cases hnone
  simp only [resolveResumeCursorInput, orThrow_eq_ok, List.findSome?] at h
  split at h
  · next hfirst =>
      cases h
      exact hbound.saved checkpoint hmem i (usable hfirst).1
  · next hfirst =>
      split at h
      · next hsecond =>
          cases h
          exact hbound.stored i (usable hsecond).1
      · next hsecond =>
          split at h
          · next hthird =>
              cases h
              have hmailbox := (usable hthird).1
              split at hmailbox
              · obtain ⟨mailbox, _, rfl⟩ := Option.map_eq_some_iff.mp hmailbox
                trivial
              · cases hmailbox
          · split at h
            · next hfourth =>
                cases h
                obtain ⟨hmade, hcursor⟩ := usable hfourth
                cases i with
                | deliver changesetRef expectedSha256 =>
                    have href := (synthesizeCursorInput_deliver hkept.unseeded hmade).2
                    refine absurd ⟨hcursor.symm, ?_, fun j hj => ?_, href⟩ hstored
                    · cases hc : checkpoint.cursorInput with
                      | none => rfl
                      | some j =>
                          obtain ⟨hwf, hj⟩ := hkept.checkpoint_cursor checkpoint hmem j hc
                          exact absurd (hj.trans hcursor.symm)
                            (passed hfirst j hc hwf hcursor.symm)
                    · exact passed hsecond j hj (hkept.cursor j hj).1 hcursor.symm
                | selectAgent | executeAgent | council | gate | mailboxWait | done => trivial
            · cases h

theorem getTaskResumeContext_bound {env : Env} {taskId : String} {context : TaskResumeContext}
    (hkept : Everywhere WellKept store) (hbound : Everywhere (BoundRecord gated) store)
    (hstored : ResumesBound taskId store)
    (h : getTaskResumeContext env store taskId = .ok context) :
    Bound gated taskId context.cursorInput := by
  simp only [getTaskResumeContext, buildResumePackage, buildResumePackageFrom, bind_eq_ok,
    orThrow_eq_ok, pure_eq_ok] at h
  obtain ⟨package, ⟨aggregate, hagg, checkpoint, hlatest, _, _, run, _, i, hi, _, _, hpackage⟩,
    hcontext⟩ := h
  cases hpackage
  cases hcontext
  obtain ⟨record, hrec, rfl⟩ := requireTask_ok hagg
  obtain ⟨owner, howner, hmem⟩ := latest_mem hlatest
  cases hrec.symm.trans howner
  have hrecord := record?_mem hrec
  rw [← record?_taskId hrec]
  exact resolveResumeCursorInput_bound (hkept record hrecord) (hbound record hrecord) hmem
    (hstored record hrec checkpoint hlatest) hi

end

end Newide
