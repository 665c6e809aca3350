import Newide.ProcessorRuns
import Newide.SapAdmission

/-!
# Finished Runs and their executes

`finishRun` looks for the dispatch to cancel in what `readActiveStage`
returns, and `readActiveStage` returns the cursor and the invocation
only.  So no finish ever cancels an execute in flight.  A cancel that is
in the outbox already shuts every later result out.
-/

namespace Newide

open Fallible Transaction Delivery

variable {options : BridgeOptions} {dispatch : SapExecuteDispatch}
  {w w' : World ProtocolDelivery}

/-- No call of any later run gets a result of the exchange accepted. -/
def NeverAccepts (options : BridgeOptions) (dispatch : SapExecuteDispatch)
    (w : World ProtocolDelivery) : Prop :=
  ∀ calls call result, ¬ Accepts options dispatch (SapCall.serveAll options calls w) call result

theorem Cancelled.reaches {d d' : ProtocolDelivery} (h : Cancelled dispatch d)
    (hreach : Reaches d d') : Cancelled dispatch d' := by
  obtain ⟨row, hrow⟩ := Option.isSome_iff_exists.mp h
  obtain ⟨row', hrow', _⟩ := hreach.outboxRow hrow
  exact Option.isSome_iff_exists.mpr ⟨row', hrow'⟩

theorem Cancelled.not_accepts {call : SapCall} {result : SapResultFrame}
    (h : Cancelled dispatch w.protocol) : ¬ Accepts options dispatch w call result := by
  intro haccepts
  obtain ⟨admission, hissued, hclassify, _⟩ := haccepts.completes
  obtain ⟨_, haccepted, _⟩ := classifyResult_eq_ok.mp hclassify
  have hexchange : admission.executeInbox.exchangeId = dispatch.frame.exchangeId :=
    congrArg ProtocolInboxKey.exchangeId hissued.key
  have hcancel : (w.protocol.outboxRow
      (Sap.cancelOutboxId admission.executeInbox.exchangeId)).isSome = true := by
    rw [hexchange]
    exact h
  rw [hcancel] at haccepted
  unfold Sap.disposition at haccepted
  split at haccepted
  · split at haccepted
    · cases haccepted
    · cases haccepted
  · cases haccepted

theorem Cancelled.neverAccepts (h : Cancelled dispatch w.protocol) :
    NeverAccepts options dispatch w := by
  intro calls call result
  exact (h.reaches (SapCall.serveAll_reaches calls w)).not_accepts

/-! ## What a finish writes -/

variable {π : Type} {env : Env} {input : FinishTaskRunInput} {plan : Plan π} {bridges : Bridges π}

theorem finishVia_storeOnly (bridges : Bridges π) (env : Env) (protocol : π) (status : FinishStatus)
    (activeStage : Option ActiveStageInvocation) :
    finishVia bridges env protocol status activeStage = .storeOnly := by
  have hnone : readPayloadString (activeStage.elim [] (·.payload)) "sap_outbox_id" = none := by
    cases activeStage with
    | none => rfl
    | some stage => rfl
  simp [finishVia, hnone]

theorem World.commit_protocol {w w' : World π} {committed : List PersistedCoordinationEvent}
    (hvia : plan.via = .storeOnly) (h : w.commit plan = .ok (committed, w')) :
    w'.protocol = w.protocol := by
  simp only [World.commit, hvia, ProtocolWrite.storeOnly, bind_eq_ok, pure_eq_ok] at h
  obtain ⟨_, _, _, _, _, hprotocol, hout⟩ := h
  cases hout
  exact (Except.ok.inj hprotocol).symm

theorem planFinishRun_via {protocol : π} {store : CoordinationStore}
    (h : planFinishRun bridges env input protocol store = .ok (.commit plan)) :
    plan.via = .storeOnly := by
  simp only [planFinishRun, bind_eq_ok] at h
  obtain ⟨aggregate, _, run, _, h⟩ := h
  split at h
  · simp only [bind_eq_ok, pure_eq_ok] at h
    obtain ⟨_, _, _, _, hplan⟩ := h
    cases hplan
    exact finishVia_storeOnly ..
  · simp only [bind_eq_ok, pure_eq_ok] at h
    obtain ⟨_, _, hplan⟩ := h
    cases hplan

theorem finishRun_protocol {w w' : World π} (h : w' ∈ (finishRun bridges env input w).commits) :
    w'.protocol = w.protocol := by
  unfold finishRun perform at h
  split at h
  · cases h
  · cases h
  next plan hplan =>
    split at h
    · cases h
    next committed after hcommit =>
      rw [List.mem_singleton.mp h]
      exact World.commit_protocol (planFinishRun_via hplan) hcommit

/-- A committed finish leaves a cancel of an execute behind, and every later result of it
unaccepted, exactly when the cancel was in the outbox before. -/
theorem finish_cancels_iff {bridges : Bridges ProtocolDelivery} {env : Env}
    {input : FinishTaskRunInput} (options : BridgeOptions) (dispatch : SapExecuteDispatch)
    (hcommit : w' ∈ (finishRun bridges env input w).commits) :
    (Cancelled dispatch w'.protocol ∧ NeverAccepts options dispatch w') ↔
      Cancelled dispatch w.protocol := by
  rw [finishRun_protocol hcommit]
  constructor
  · exact And.left
  · intro hcancelled
    refine ⟨hcancelled, ?_⟩
    have hafter : Cancelled dispatch w'.protocol := by
      rw [finishRun_protocol hcommit]
      exact hcancelled
    exact hafter.neverAccepts

/-! ## A cancelled Run whose execute is accepted -/

/-- The execute of the first stage of Run `r`. -/
def stageDispatch : SapExecuteDispatch :=
  { sampleDispatch with frame := { sampleExecute with taskId := "t", runId := "r" } }

def stageResult : SapResultFrame :=
  { sampleResult with taskId := "t", runId := "r" }

def sapBridges : Bridges ProtocolDelivery where
  sapBridge := some (sapTaskBridge sampleOptions)

/-- Run `r` starts a stage that sends the execute. -/
def dispatchingRun : List Call :=
  [⟨stoppedEnv '1', .beginRun createRequest⟩,
   ⟨stoppedEnv '2', .startStage
     { runId := "r", expectedCursor := .selectAgent, invocationId := "i"
       sapExecute := some stageDispatch }⟩]

/-- The cancellation of Run `r`. -/
def cancelRequest : FinishTaskRunInput where
  runId := "r"
  status := .cancelled

/-- The cancellation commits. -/
theorem finish_cancels_sample : ∃ w w' : World ProtocolDelivery,
    w' ∈ (finishRun sapBridges (stoppedEnv '3') cancelRequest w).commits ∧
    ((Cancelled stageDispatch w'.protocol ∧ NeverAccepts sampleOptions stageDispatch w') ↔
      Cancelled stageDispatch w.protocol) := by
  obtain ⟨w, _, hcommits⟩ := exists_run sapBridges { store := .empty, protocol := .empty }
    dispatchingRun
    (P := fun w => (finishRun sapBridges (stoppedEnv '3') cancelRequest w).commits.isEmpty = false)
    (by decide)
  cases hfinish : (finishRun sapBridges (stoppedEnv '3') cancelRequest w).commits with
  | nil =>
      rw [hfinish] at hcommits
      cases hcommits
  | cons w' rest =>
      have hcommit : w' ∈ (finishRun sapBridges (stoppedEnv '3') cancelRequest w).commits := by
        rw [hfinish]
        exact List.mem_cons_self
      exact ⟨w, w', hcommit, finish_cancels_iff sampleOptions stageDispatch hcommit⟩

def executeStage : Delivery SapResultDisposition := do
  let admission ← Sap.beginExecute sampleOptions "2026-01-01T00:00:00.000Z" stageDispatch
  Sap.acceptResult sampleOptions admission stageResult

/-- Run `r` is cancelled with its execute in flight; no cancel is sent and the result is
accepted. -/
theorem cancel_not_sent : ∃ w w' : World ProtocolDelivery,
    Runs.Steps (Returns sapBridges) { store := .empty, protocol := .empty } dispatchingRun w ∧
    (∃ record ∈ w.store.tables.records, record.runtimeState.currentRunId = some "r" ∧
      (record.runtimeState.diagnostics.activeStage.bind (·.sapExchangeId)) =
        some stageDispatch.frame.exchangeId) ∧
    Returns sapBridges w ⟨stoppedEnv '3', .finishRun cancelRequest⟩ w' ∧
    ¬ Cancelled stageDispatch w'.protocol ∧
    (executeStage w'.protocol).map (·.1) = .ok .accepted := by
  obtain ⟨w, hrun, hstage, w', hfinish, hcancel, haccept⟩ := exists_run sapBridges
    { store := .empty, protocol := .empty } dispatchingRun
    (P := fun w => (∃ record ∈ w.store.tables.records,
        record.runtimeState.currentRunId = some "r" ∧
        (record.runtimeState.diagnostics.activeStage.bind (·.sapExchangeId)) =
          some stageDispatch.frame.exchangeId) ∧
      ∃ w' ∈ nextWorld (fun _ _ => True) sapBridges w
          ⟨stoppedEnv '3', .finishRun cancelRequest⟩,
        ¬ Cancelled stageDispatch w'.protocol ∧
        (executeStage w'.protocol).map (·.1) = .ok .accepted) (by decide)
  exact ⟨w, w', hrun, hstage, (nextWorld_step _ hfinish).2, hcancel, haccept⟩

end Newide
