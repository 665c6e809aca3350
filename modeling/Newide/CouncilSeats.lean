import Newide.FinishedRuns
import Newide.RowInvariants

/-!
# Council seats

Any number of seats record their dispatches and results on one Run at the
same time.  A call is split at its points of contact with the database:
the classification, the read of the aggregate and the transaction are
steps of their own, and between two of them any other seat may step.
-/

namespace Newide

open Fallible Transaction Delivery CoordinationStore

/-! ## The calls of the seats -/

inductive CouncilReceipt where
  | dispatched | accepted
deriving DecidableEq

namespace CouncilReceipt

def eventType : CouncilReceipt → String
  | .dispatched => "council.sap.dispatched"
  | .accepted => "council.sap.result.received"

def listed : CouncilReceipt → ActiveStage → List String
  | .dispatched, stage => stage.councilSapExchangeIds
  | .accepted, stage => stage.councilSapResultExchangeIds

/-- The stage with one more exchange id listed. -/
def list : CouncilReceipt → ActiveStage → String → ActiveStage
  | .dispatched, stage, exchangeId =>
      { stage with councilSapExchangeIds := stage.councilSapExchangeIds ++ [exchangeId] }
  | .accepted, stage, exchangeId =>
      { stage with councilSapResultExchangeIds := stage.councilSapResultExchangeIds ++ [exchangeId] }

@[simp] theorem listed_list (receipt : CouncilReceipt) (stage : ActiveStage) (exchangeId : String) :
    receipt.listed (receipt.list stage exchangeId) = receipt.listed stage ++ [exchangeId] := by
  cases receipt with
  | dispatched => rfl
  | accepted => rfl

theorem listed_list_ne {receipt other : CouncilReceipt} (h : other ≠ receipt)
    (stage : ActiveStage) (exchangeId : String) :
    other.listed (receipt.list stage exchangeId) = other.listed stage := by
  cases receipt with
  | dispatched =>
      cases other with
      | dispatched => exact absurd rfl h
      | accepted => rfl
  | accepted =>
      cases other with
      | dispatched => rfl
      | accepted => exact absurd rfl h

theorem eventType_inj {receipt other : CouncilReceipt} (h : receipt.eventType = other.eventType) :
    receipt = other := by
  cases receipt with
  | dispatched =>
      cases other with
      | dispatched => rfl
      | accepted => exact absurd h (by decide)
  | accepted =>
      cases other with
      | dispatched => exact absurd h (by decide)
      | accepted => rfl

end CouncilReceipt

inductive SeatCall where
  | recordDispatch (dispatch : SapExecuteDispatch)
  | recordResult (admission : SapExecutionAdmission) (result : SapResultFrame)
      (phase participantId : String)

namespace SeatCall

def receipt : SeatCall → CouncilReceipt
  | .recordDispatch _ => .dispatched
  | .recordResult .. => .accepted

def exchangeId : SeatCall → String
  | .recordDispatch dispatch => dispatch.frame.exchangeId
  | .recordResult _ result _ _ => result.exchangeId

def via (options : BridgeOptions) : SeatCall → ProtocolWrite ProtocolDelivery
  | .recordDispatch dispatch => (sapTaskBridge options).commitDispatch dispatch
  | .recordResult admission result _ _ => (sapTaskBridge options).commitResult admission result

def plan (options : BridgeOptions) (env : Env) (runId : String) (store : CoordinationStore) :
    SeatCall → Except Thrown (Planned ProtocolDelivery)
  | .recordDispatch dispatch =>
      planCouncilSapDispatch { sapBridge := some (sapTaskBridge options) } env runId dispatch store
  | .recordResult admission result phase participantId =>
      planCouncilSapResult { sapBridge := some (sapTaskBridge options) } env runId admission result
        phase participantId store

/-- What the call returns when its receipt is listed already. -/
def listedBefore : SeatCall → Option SapResultDisposition
  | .recordDispatch _ => none
  | .recordResult .. => some .duplicate

def committed : SeatCall → Option SapResultDisposition
  | .recordDispatch _ => none
  | .recordResult .. => some .accepted

/-- The error of a transaction that is tried again while tries are left. -/
def retries (error : Thrown) : SeatCall → Bool
  | .recordDispatch _ => isRevisionConflict error
  | .recordResult _ result _ _ => isStaleResultError result error

/-- The error after the last try. -/
def exhausted : SeatCall → Thrown
  | .recordDispatch _ => .error "Unreachable dispatch retry state"
  | .recordResult _ result _ _ =>
      .error ("Council SAP result " ++ result.exchangeId ++ " could not be committed")

end SeatCall

/-! ## Interleavings -/

/-- How far a call has come; `attempts` tries are left after the current one. -/
inductive SeatProgress where
  | reading (attempts : Nat)
  | planning (attempts : Nat)
  | accepting (admission : SapExecutionAdmission) (result : SapResultFrame)
  | committing (plan : Plan ProtocolDelivery) (attempts : Nat)
  | returned (disposition : Option SapResultDisposition)
  | threw (error : Thrown)

section
variable (options : BridgeOptions) (runId : String)

def SeatCall.read (env : Env) (call : SeatCall) (attempts : Nat) (store : CoordinationStore) :
    SeatProgress :=
  match call.plan options env runId store with
  | .error e => .threw e
  | .ok (.unchanged _) => .returned call.listedBefore
  | .ok (.commit plan) => .committing plan attempts

def SeatCall.begin (env : Env) (call : SeatCall) (attempts : Nat) (w : World ProtocolDelivery) :
    SeatProgress :=
  match call with
  | .recordDispatch _ => call.read options runId env attempts w.store
  | .recordResult admission result _ _ =>
      match (sapTaskBridge options).classifyResult w.protocol admission result with
      | .error e => .threw e
      | .ok .accepted => .planning attempts
      | .ok _ => .accepting admission result

/-- The transaction of a result that was not classified as accepted. -/
def acceptStep (admission : SapExecutionAdmission) (result : SapResultFrame)
    (w : World ProtocolDelivery) : SeatProgress × World ProtocolDelivery :=
  match Sap.acceptResult options admission result w.protocol with
  | .error e => (.threw e, w)
  | .ok (disposition, protocol) => (.returned (some disposition), { w with protocol })

def SeatCall.commitStep (call : SeatCall) (plan : Plan ProtocolDelivery) (attempts : Nat)
    (w : World ProtocolDelivery) : SeatProgress × World ProtocolDelivery :=
  match w.commit plan with
  | .ok (_, w') => (.returned call.committed, w')
  | .error e => (if call.retries e = true ∧ attempts ≠ 0 then .reading attempts else .threw e, w)

def SeatCall.step (env : Env) (call : SeatCall) (w : World ProtocolDelivery) :
    SeatProgress → SeatProgress × World ProtocolDelivery
  | .reading 0 => (.threw call.exhausted, w)
  | .reading (attempts + 1) => (call.begin options runId env attempts w, w)
  | .planning attempts => (call.read options runId env attempts w.store, w)
  | .accepting admission result => acceptStep options admission result w
  | .committing plan attempts => call.commitStep plan attempts w
  | .returned disposition => (.returned disposition, w)
  | .threw e => (.threw e, w)

/-- One database and the progress of every seat. -/
structure Council where
  world : World ProtocolDelivery
  progress : Nat → SeatProgress

def Council.start (w : World ProtocolDelivery) : Council where
  world := w
  progress _ := .reading 3

/-- A step of a seat's call, or of an agent that begins an execute in between. -/
inductive CouncilLabel where
  | seat (index : Nat) (env : Env)
  | beginExecute (now : Timestamp) (dispatch : SapExecuteDispatch)

def Council.step (calls : Nat → SeatCall) (s : Council) : CouncilLabel → Council
  | .seat index env =>
      let next := (calls index).step options runId env s.world (s.progress index)
      { world := next.2, progress := Function.update s.progress index next.1 }
  | .beginExecute now dispatch =>
      { s with world := SapCall.serve options s.world (.beginExecute now dispatch) }

/-- The state after an interleaving. -/
def Council.run (calls : Nat → SeatCall) (labels : List CouncilLabel) (s : Council) : Council :=
  labels.foldl (Council.step options runId calls) s

end

/-! ## What is on record -/

def seatAggregate (runId : String) (w : World ProtocolDelivery) : Option PersistedTaskAggregate :=
  swallow (requireAggregateForRun w.store runId)

def listedIds (receipt : CouncilReceipt) (aggregate : PersistedTaskAggregate) : List String :=
  aggregate.runtimeState.diagnostics.activeStage.elim [] receipt.listed

def receiptEvents (receipt : CouncilReceipt) (runId exchangeId : String)
    (aggregate : PersistedTaskAggregate) : List PersistedCoordinationEvent :=
  aggregate.events.filter fun event => event.eventType = receipt.eventType ∧
    event.subjectId = exchangeId ∧ event.runId = truthy (some runId)

/-- An outbox row of the exchange exists. -/
def ExchangeStored (exchangeId : String) (d : ProtocolDelivery) : Prop :=
  ∃ id row, d.outboxRow id = some row ∧ row.exchangeId = exchangeId

/-- A Council stage before the calls: nothing is listed, and there is no event of their receipts. -/
def CouncilOpened (runId : String) (calls : Nat → SeatCall) (w : World ProtocolDelivery) : Prop :=
  ∃ aggregate, seatAggregate runId w = some aggregate ∧
    (∀ receipt, listedIds receipt aggregate = []) ∧
      ∀ i, receiptEvents (calls i).receipt runId (calls i).exchangeId aggregate = []

/-! ## Reading and planning -/

variable {options : BridgeOptions} {runId : String} {w w' : World ProtocolDelivery}
  {call : SeatCall} {plan : Plan ProtocolDelivery}

variable {aggregate old : PersistedTaskAggregate} {record : TaskRecord} {stage : ActiveStage}
  {env : Env}

theorem seatAggregate_mem (h : seatAggregate runId w = some aggregate) :
    ∃ record ∈ w.store.tables.records, record.aggregate = aggregate :=
  requireAggregateForRun_ok (swallow_eq_some.mp h)

theorem seatAggregate_of_mem {run : PersistedRunState} (hmem : record ∈ w.store.tables.records)
    (hrun : run ∈ record.runs) :
    seatAggregate run.runId w = some record.aggregate :=
  swallow_eq_some.mpr (requireAggregateForRun_of_mem hmem hrun)

/-- `plan` lists the call's exchange id, as read off `old`. -/
structure Drafted (options : BridgeOptions) (runId : String) (call : SeatCall)
    (old : PersistedTaskAggregate) (plan : Plan ProtocolDelivery) (run : PersistedRunState)
    (stage : ActiveStage) (event : Event) : Prop where
  run_mem : run ∈ old.runs
  run_id : run.runId = runId
  stage_eq : old.runtimeState.diagnostics.activeStage = some stage
  unlisted : call.exchangeId ∉ call.receipt.listed stage
  commit_eq : ∃ timestamp, plan.commit = activeStageCommit old run
    (call.receipt.list stage call.exchangeId) timestamp event
  via_eq : plan.via = call.via options
  type_eq : event.eventType = call.receipt.eventType
  subject_eq : event.subjectId = call.exchangeId
  event_run : event.runId = some runId

theorem requireCouncilStage_stored {what : String}
    (h : requireCouncilStage aggregate what runId = .ok stage) :
    aggregate.runtimeState.diagnostics.activeStage = some stage := by
  simp only [requireCouncilStage, bind_eq_ok, orThrow_eq_ok] at h
  obtain ⟨_, _, _, _, hstage⟩ := h
  exact hstage

theorem SeatCall.plan_commit (h : call.plan options env runId w.store = .ok (.commit plan)) :
    ∃ old, seatAggregate runId w = some old ∧
      ∃ run stage event, Drafted options runId call old plan run stage event := by
  cases call with
  | recordDispatch dispatch =>
      simp only [SeatCall.plan, planCouncilSapDispatch, bind_eq_ok] at h
      obtain ⟨old, hold, run, hrun, stage, hstage, h⟩ := h
      obtain ⟨hmem, hid⟩ := requireRun_ok hrun
      split at h
      · cases h
      next hnew =>
        cases h
        exact ⟨old, swallow_eq_some.mpr hold, run, stage, _, hmem, hid,
          requireCouncilStage_stored hstage, hnew, ⟨_, rfl⟩, rfl, rfl, rfl, rfl⟩
  | recordResult admission result phase participantId =>
      simp only [SeatCall.plan, planCouncilSapResult, bind_eq_ok] at h
      obtain ⟨old, hold, run, hrun, stage, hstage, h⟩ := h
      obtain ⟨hmem, hid⟩ := requireRun_ok hrun
      split at h
      · cases h
      next hnew =>
        cases h
        exact ⟨old, swallow_eq_some.mpr hold, run, stage, _, hmem, hid,
          requireCouncilStage_stored hstage, hnew, ⟨_, rfl⟩, rfl, rfl, rfl, rfl⟩

theorem SeatCall.plan_unchanged {taskId : String}
    (h : call.plan options env runId w.store = .ok (.unchanged taskId)) :
    ∃ aggregate, seatAggregate runId w = some aggregate ∧
      call.exchangeId ∈ listedIds call.receipt aggregate := by
  cases call with
  | recordDispatch dispatch =>
      simp only [SeatCall.plan, planCouncilSapDispatch, bind_eq_ok] at h
      obtain ⟨aggregate, hold, run, hrun, stage, hstage, h⟩ := h
      split at h
      next hlisted =>
        refine ⟨aggregate, swallow_eq_some.mpr hold, ?_⟩
        unfold listedIds
        rw [requireCouncilStage_stored hstage]
        exact hlisted
      · cases h
  | recordResult admission result phase participantId =>
      simp only [SeatCall.plan, planCouncilSapResult, bind_eq_ok] at h
      obtain ⟨aggregate, hold, run, hrun, stage, hstage, h⟩ := h
      split at h
      next hlisted =>
        refine ⟨aggregate, swallow_eq_some.mpr hold, ?_⟩
        unfold listedIds
        rw [requireCouncilStage_stored hstage]
        exact hlisted
      · cases h

/-! ## The transaction -/

/-- An aggregate read earlier: of the same Task, and the current one if the revision is the same. -/
structure Behind (old current : PersistedTaskAggregate) : Prop where
  task : old.task.taskId = current.task.taskId
  revision : old.task.revision ≤ current.task.revision
  same : old.task.revision = current.task.revision → old = current

theorem Behind.refl (aggregate : PersistedTaskAggregate) : Behind aggregate aggregate :=
  ⟨rfl, le_refl _, fun _ => rfl⟩

structure Lists (runId : String) (call : SeatCall) (current after : PersistedTaskAggregate) :
    Prop where
  task : after.task.taskId = current.task.taskId
  revision : after.task.revision = current.task.revision + 1
  unlisted : call.exchangeId ∉ listedIds call.receipt current
  listed : listedIds call.receipt after = listedIds call.receipt current ++ [call.exchangeId]
  others : ∀ other, other ≠ call.receipt → listedIds other after = listedIds other current
  event : ∃ event, after.events = current.events ++ [event] ∧
    event.eventType = call.receipt.eventType ∧ event.subjectId = call.exchangeId ∧
      event.runId = truthy (some runId)

theorem seatAggregate_after {store after : CoordinationStore} {input : CoordinationStateCommit}
    {run : PersistedRunState} {committed : List PersistedCoordinationEvent}
    (protocol : ProtocolDelivery) (hrecord : store.record? input.task.taskId = some record)
    (hrun : input.run = some run) (hcommit : store.commitState input = .ok (committed, after)) :
    seatAggregate run.runId { store := after, protocol } =
      some (recordAfter (some record) input store.tables.lastSequence).aggregate := by
  have hmem := record?_mem (record?_after hrecord hcommit)
  have hrun' : readRun run ∈ (recordAfter (some record) input store.tables.lastSequence).runs :=
    (mem_recordAfter_runs hrecord).mpr (.inl ⟨run, hrun, rfl⟩)
  have haggregate : seatAggregate (readRun run).runId { store := after, protocol } = _ :=
    seatAggregate_of_mem hmem hrun'
  exact haggregate

theorem Drafted.commits {current : PersistedTaskAggregate} {run : PersistedRunState} {event : Event}
    {committed : List PersistedCoordinationEvent}
    (h : Drafted options runId call old plan run stage event)
    (hcurrent : seatAggregate runId w = some current) (hbehind : Behind old current)
    (hcommit : w.commit plan = .ok (committed, w')) :
    ∃ after, seatAggregate runId w' = some after ∧ Lists runId call current after ∧
      (call.via options).precheck w.protocol = .ok ⟨⟩ ∧
      (call.via options).write w.protocol = .ok w'.protocol := by
  obtain ⟨record, hmem, rfl⟩ := seatAggregate_mem hcurrent
  obtain ⟨timestamp, hinput⟩ := h.commit_eq
  simp only [World.commit, bind_eq_ok, pure_eq_ok, h.via_eq, hinput] at hcommit
  obtain ⟨_, hpre, ⟨committed', store⟩, hstore, protocol, hwrite, hout⟩ := hcommit
  cases hout
  obtain ⟨hadmitted, _⟩ := commitState_eq_ok.mp hstore
  -- the revision check leaves only the aggregate that was read
  have hrecord : w.store.record? old.task.taskId = some record := by
    rw [hbehind.task]
    exact record?_of_mem hmem
  have htask := hadmitted.task
  unfold TaskAdmitted at htask
  rw [show w.store.tables.record? (activeStageCommit old run _ timestamp event).task.taskId =
    some record from hrecord] at htask
  obtain rfl := hbehind.same (Option.some.inj htask.1)
  have hfound := seatAggregate_after protocol hrecord rfl hstore
  rw [show ({ run with revision := run.revision + 1, updatedAt := timestamp } :
    PersistedRunState).runId = runId from h.run_id] at hfound
  have hlisted : ∀ receipt : CouncilReceipt,
      listedIds receipt record.aggregate = receipt.listed stage := by
    intro receipt
    simp [listedIds, h.stage_eq]
  refine ⟨_, hfound, ⟨rfl, rfl, ?_, ?_, ?_, ?_⟩, hpre, hwrite⟩
  · rw [hlisted]
    exact h.unlisted
  · rw [hlisted]
    exact CouncilReceipt.listed_list ..
  · intro other hother
    rw [hlisted]
    exact CouncilReceipt.listed_list_ne hother ..
  · refine ⟨readEvent event (w.store.tables.lastSequence + 1), rfl, h.type_eq, h.subject_eq, ?_⟩
    show truthy event.runId = _
    rw [h.event_run]

/-- The rows of the exchange that one transaction writes. -/
def SeatCall.RowsWritten (options : BridgeOptions) (d d' : ProtocolDelivery) : SeatCall → Prop
  | .recordDispatch dispatch =>
      (∃ outbox, Sap.enqueueExecute dispatch d = .ok (outbox, d')) ∧
        ∃ row, d'.outboxRow dispatch.outboxId = some row ∧
          row.exchangeId = dispatch.frame.exchangeId
  | .recordResult admission result _ _ =>
      Sap.completeResult options admission result d = .ok (⟨⟩, d') ∧
        SettledBy admission.executeInbox.key result.exchangeId d' ∧
        ∃ row, d'.outboxRow (Sap.resultOutboxId result) = some row ∧
          row.exchangeId = result.exchangeId

theorem enqueueExecute_stores {dispatch : SapExecuteDispatch} {d d' : ProtocolDelivery}
    {outbox : ProtocolOutboxRecord} (h : Sap.enqueueExecute dispatch d = .ok (outbox, d')) :
    ∃ row, d'.outboxRow dispatch.outboxId = some row ∧
      row.exchangeId = dispatch.frame.exchangeId := by
  unfold Sap.enqueueExecute at h
  obtain ⟨existing, d₀, hget, h⟩ := chain_eq_ok.mp h
  obtain ⟨hexisting, rfl⟩ := getOutbox_eq_ok.mp hget
  cases existing with
  | none =>
      obtain ⟨_, _, hid, hexchange, rfl⟩ := enqueueOutbox_eq_ok.mp h
      exact ⟨_, (ProtocolDelivery.addOutbox_outboxRow d _ _ hid hexchange).trans (if_pos rfl), rfl⟩
  | some existing =>
      obtain ⟨_, _, hlift, h⟩ := chain_eq_ok.mp h
      obtain ⟨hsame, rfl⟩ := lift_eq_ok.mp hlift
      obtain ⟨_, rfl⟩ := done_eq_ok.mp h
      obtain ⟨row, hrow, rfl⟩ := Option.map_eq_some_iff.mp hexisting
      exact ⟨row, hrow, (row.read_exchangeId).symm.trans (ensure_eq_ok.mp hsame)⟩

theorem SeatCall.rowsWritten {d d' : ProtocolDelivery}
    (hpre : (call.via options).precheck d = .ok ⟨⟩) (hwrite : (call.via options).write d = .ok d') :
    call.RowsWritten options d d' := by
  cases call with
  | recordDispatch dispatch =>
      obtain ⟨outbox, henqueue⟩ := script_ok hwrite
      exact ⟨⟨outbox, henqueue⟩, enqueueExecute_stores henqueue⟩
  | recordResult admission result phase participantId =>
      obtain ⟨_, hcomplete⟩ := commitResult_write hpre hwrite
      exact ⟨hcomplete, completeResult_settles hcomplete, completeResult_stores hcomplete⟩

namespace SeatCall.RowsWritten

variable {d d' : ProtocolDelivery}

theorem reaches (h : call.RowsWritten options d d') : Reaches d d' := by
  cases call with
  | recordDispatch dispatch =>
      obtain ⟨⟨_, henqueue⟩, _⟩ := h
      exact Reaches.enqueueExecute _ _ _ henqueue
  | recordResult admission result phase participantId => exact Reaches.completeResult _ _ _ h.1

theorem stored (h : call.RowsWritten options d d') : ExchangeStored call.exchangeId d' := by
  cases call with
  | recordDispatch dispatch =>
      obtain ⟨_, row, hrow⟩ := h
      exact ⟨_, row, hrow⟩
  | recordResult admission result phase participantId =>
      obtain ⟨_, _, row, hrow⟩ := h
      exact ⟨_, row, hrow⟩

theorem settled (h : call.RowsWritten options d d') {key : ProtocolInboxKey} {replyId : String}
    (hsettled : SettledBy key replyId d') :
    SettledBy key replyId d ∨ (call.receipt = .accepted ∧ replyId = call.exchangeId) := by
  cases call with
  | recordDispatch dispatch =>
      obtain ⟨⟨_, henqueue⟩, _⟩ := h
      exact .inl (KeepsOpen.enqueueExecute _ _ _ henqueue key replyId hsettled)
  | recordResult admission result phase participantId =>
      exact (completeResult_settles_only h.1 hsettled).imp_right fun hreply => ⟨rfl, hreply⟩

end SeatCall.RowsWritten

theorem ExchangeStored.reaches {exchangeId : String} {d d' : ProtocolDelivery}
    (h : ExchangeStored exchangeId d) (hreach : Reaches d d') : ExchangeStored exchangeId d' := by
  obtain ⟨id, row, hrow, hexchange⟩ := h
  obtain ⟨row', hrow', hframe⟩ := hreach.outboxRow hrow
  exact ⟨id, row', hrow', (congrArg ProtocolFrame.exchangeId hframe).trans hexchange⟩

/-! ## The ledger -/

variable {calls : Nat → SeatCall} {d₀ d d' : ProtocolDelivery}
  {current after : PersistedTaskAggregate}

/-- The lists, the events and the delivery rows agree; `d₀` are the tables before the calls. -/
structure Ledger (runId : String) (calls : Nat → SeatCall) (d₀ : ProtocolDelivery)
    (current : PersistedTaskAggregate) (d : ProtocolDelivery) : Prop where
  nodup : ∀ receipt, (listedIds receipt current).Nodup
  events : ∀ i, (receiptEvents (calls i).receipt runId (calls i).exchangeId current).length =
    (listedIds (calls i).receipt current).count (calls i).exchangeId
  stored : ∀ receipt, ∀ exchangeId ∈ listedIds receipt current, ExchangeStored exchangeId d
  settled : ∀ key replyId, SettledBy key replyId d →
    SettledBy key replyId d₀ ∨ replyId ∈ listedIds .accepted current

/-- A later aggregate: the lists only grow, and the revision tells a change. -/
structure Later (current after : PersistedTaskAggregate) : Prop where
  behind : Behind current after
  listed : ∀ receipt, listedIds receipt current ⊆ listedIds receipt after

theorem Later.refl (current : PersistedTaskAggregate) : Later current current :=
  ⟨Behind.refl current, fun _ _ h => h⟩

theorem Behind.trans (h : Behind old current) (h' : Behind current after) : Behind old after := by
  refine ⟨h.task.trans h'.task, h.revision.trans h'.revision, fun heq => ?_⟩
  have hle := h'.revision
  have hcurrent : old.task.revision = current.task.revision :=
    Nat.le_antisymm h.revision (heq ▸ hle)
  exact (h.same hcurrent).trans (h'.same (hcurrent.symm.trans heq))

namespace Lists

theorem listed_eq (h : Lists runId call current after) (receipt : CouncilReceipt) :
    listedIds receipt after = listedIds receipt current ++
      if receipt = call.receipt then [call.exchangeId] else [] := by
  by_cases hreceipt : receipt = call.receipt
  · rw [hreceipt, h.listed, if_pos rfl]
  · rw [h.others receipt hreceipt, if_neg hreceipt, List.append_nil]

theorem later (h : Lists runId call current after) : Later current after := by
  refine ⟨⟨h.task.symm, ?_, fun heq => ?_⟩, fun receipt id hid => ?_⟩
  · rw [h.revision]
    exact Nat.le_succ _
  · rw [h.revision] at heq
    omega
  · rw [h.listed_eq]
    exact List.mem_append_left _ hid

theorem events_length (h : Lists runId call current after) (receipt : CouncilReceipt)
    (exchangeId : String) : (receiptEvents receipt runId exchangeId after).length =
      (receiptEvents receipt runId exchangeId current).length +
        if receipt = call.receipt ∧ exchangeId = call.exchangeId then 1 else 0 := by
  obtain ⟨event, hevents, htype, hsubject, hrun⟩ := h.event
  unfold receiptEvents
  rw [hevents, List.filter_append, List.length_append]
  congr 1
  by_cases hown : receipt = call.receipt ∧ exchangeId = call.exchangeId
  · obtain ⟨rfl, rfl⟩ := hown
    simp [htype, hsubject, hrun]
  · have hother : ¬ (event.eventType = receipt.eventType ∧ event.subjectId = exchangeId ∧
        event.runId = truthy (some runId)) := by
      rintro ⟨htype', hsubject', _⟩
      exact hown ⟨CouncilReceipt.eventType_inj (htype'.symm.trans htype),
        hsubject'.symm.trans hsubject⟩
    simp [hother, hown]

end Lists

namespace Ledger

theorem quiet (h : Ledger runId calls d₀ current d) (hreach : Reaches d d')
    (hopen : KeepsOpen d d') : Ledger runId calls d₀ current d' where
  nodup := h.nodup
  events := h.events
  stored receipt exchangeId hlisted := (h.stored receipt exchangeId hlisted).reaches hreach
  settled key replyId hsettled := h.settled key replyId (hopen key replyId hsettled)

theorem lists {i : Nat} (h : Ledger runId calls d₀ current d)
    (hlists : Lists runId (calls i) current after) (hrows : (calls i).RowsWritten options d d') :
    Ledger runId calls d₀ after d' where
  nodup receipt := by
    rw [hlists.listed_eq]
    by_cases hreceipt : receipt = (calls i).receipt
    · subst hreceipt
      rw [if_pos rfl, ← List.concat_eq_append]
      exact (h.nodup _).concat hlists.unlisted
    · rw [if_neg hreceipt, List.append_nil]
      exact h.nodup receipt
  events j := by
    rw [hlists.events_length, h.events j, hlists.listed_eq, List.count_append]
    congr 1
    by_cases hreceipt : (calls j).receipt = (calls i).receipt
    · by_cases hid : (calls j).exchangeId = (calls i).exchangeId
      · simp [hreceipt, hid]
      · simp [hreceipt, hid, Ne.symm hid]
    · simp [hreceipt]
  stored receipt exchangeId hlisted := by
    rw [hlists.listed_eq] at hlisted
    rcases List.mem_append.mp hlisted with hbefore | hnew
    · exact (h.stored receipt exchangeId hbefore).reaches hrows.reaches
    · split at hnew
      next =>
        rw [List.mem_singleton.mp hnew]
        exact hrows.stored
      next => cases hnew
  settled key replyId hsettled := by
    rcases hrows.settled hsettled with hbefore | ⟨hreceipt, rfl⟩
    · exact (h.settled key replyId hbefore).imp_right fun hmem => hlists.later.listed _ hmem
    · right
      rw [← hreceipt, hlists.listed]
      exact List.mem_append_right _ (List.mem_singleton_self _)

end Ledger

end Newide
