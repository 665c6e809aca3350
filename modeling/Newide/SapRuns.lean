import Newide.SapExecution
import Newide.TaskProcessor

/-!
# Runs of the SAP bridge

Any number of workers call the bridge over one database, in any order
and at any instants, with any admission they were ever given.  At most
one result of an exchange is accepted, and it settles the exchange for
good.
-/

namespace Newide

open Fallible Transaction Delivery World

inductive SapCall where
  | persistExecute (dispatch : SapExecuteDispatch)
  | commitDispatch (state : CoordinationStateCommit) (dispatch : SapExecuteDispatch)
  | beginExecute (now : Timestamp) (dispatch : SapExecuteDispatch)
  | acceptResult (admission : SapExecutionAdmission) (result : SapResultFrame)
  | commitResult (state : CoordinationStateCommit) (admission : SapExecutionAdmission)
      (result : SapResultFrame)
  | recordLateResult (admission : SapExecutionAdmission) (result : SapResultFrame)
  | commitCancel (state : CoordinationStateCommit) (dispatch : SapExecuteDispatch)
      (cancel : SapCancelFrame)
  | enqueueCancel (dispatch : SapExecuteDispatch) (cancel : SapCancelFrame)

def World.transact {α : Type} (w : World ProtocolDelivery) (script : Delivery α) :
    Except Thrown (World ProtocolDelivery) :=
  (script w.protocol).map fun out => { w with protocol := out.2 }

def World.commitWith (w : World ProtocolDelivery) (state : CoordinationStateCommit)
    (via : ProtocolWrite ProtocolDelivery) : Except Thrown (World ProtocolDelivery) :=
  (w.commit { taskId := state.task.taskId, commit := state, via }).map (·.2)

namespace SapCall

variable (options : BridgeOptions)

def exec (w : World ProtocolDelivery) : SapCall → Except Thrown (World ProtocolDelivery)
  | .persistExecute dispatch => w.transact (Sap.enqueueExecute dispatch)
  | .commitDispatch state dispatch =>
      w.commitWith state ((sapTaskBridge options).commitDispatch dispatch)
  | .beginExecute now dispatch => w.transact (Sap.beginExecute options now dispatch)
  | .acceptResult admission result => w.transact (Sap.acceptResult options admission result)
  | .commitResult state admission result =>
      w.commitWith state ((sapTaskBridge options).commitResult admission result)
  | .recordLateResult admission result =>
      w.transact (Sap.recordLateResult options admission result)
  | .commitCancel state dispatch cancel =>
      w.commitWith state ((sapTaskBridge options).commitCancel dispatch cancel)
  | .enqueueCancel dispatch cancel => w.transact (Sap.enqueueCancel dispatch cancel)

/-- The world after a call: a call that throws leaves it as it was. -/
def serve (w : World ProtocolDelivery) (call : SapCall) : World ProtocolDelivery :=
  match call.exec options w with
  | .ok w' => w'
  | .error _ => w

def serveAll (calls : List SapCall) (w : World ProtocolDelivery) : World ProtocolDelivery :=
  calls.foldl (serve options) w

end SapCall

variable {options : BridgeOptions} {w w' : World ProtocolDelivery}

variable {α : Type} {state : CoordinationStateCommit} {script : Delivery α}

theorem World.transact_eq_ok :
    w.transact script = .ok w' ↔
      ∃ a d', script w.protocol = .ok (a, d') ∧ { w with protocol := d' } = w' := by
  unfold transact
  rw [mapped_eq_ok, Prod.exists]

theorem World.commitWith_ok {via : ProtocolWrite ProtocolDelivery}
    (h : w.commitWith state via = .ok w') :
    via.precheck w.protocol = .ok ⟨⟩ ∧ via.write w.protocol = .ok w'.protocol := by
  obtain ⟨out, hcommit, rfl⟩ := mapped_eq_ok.mp h
  simp only [commit, bind_eq_ok, pure_eq_ok] at hcommit
  obtain ⟨_, hpre, _, _, protocol, hwrite, rfl⟩ := hcommit
  exact ⟨hpre, hwrite⟩

variable {d d' : ProtocolDelivery}

theorem script_ok (h : (ProtocolWrite.script script).write d = .ok d') :
    ∃ a, script d = .ok (a, d') := by
  obtain ⟨⟨a, _⟩, hrun, rfl⟩ := mapped_eq_ok.mp h
  exact ⟨a, hrun⟩

variable {admission : SapExecutionAdmission}

theorem commitResult_write {result : SapResultFrame}
    (hpre : ((sapTaskBridge options).commitResult admission result).precheck d = .ok ⟨⟩)
    (hwrite : ((sapTaskBridge options).commitResult admission result).write d = .ok d') :
    Sap.classifyResult admission result d = .ok (.accepted, d) ∧
      Sap.completeResult options admission result d = .ok (⟨⟩, d') := by
  obtain ⟨out, hrequire, _⟩ := mapped_eq_ok.mp hpre
  obtain ⟨_, hcomplete, rfl⟩ := mapped_eq_ok.mp hwrite
  obtain ⟨disposition, _, hclassify, haccepted⟩ := chain_eq_ok.mp hrequire
  obtain ⟨_, _, rfl⟩ := classifyResult_eq_ok.mp hclassify
  obtain ⟨haccepted, _⟩ := lift_eq_ok.mp haccepted
  rw [ensure_eq_ok.mp haccepted] at hclassify
  exact ⟨hclassify, hcomplete⟩

theorem commitResult_ok {result : SapResultFrame}
    (h : w.commitWith state ((sapTaskBridge options).commitResult admission result) = .ok w') :
    Sap.classifyResult admission result w.protocol = .ok (.accepted, w.protocol) ∧
      Sap.completeResult options admission result w.protocol = .ok (⟨⟩, w'.protocol) := by
  obtain ⟨hpre, hwrite⟩ := commitWith_ok h
  exact commitResult_write hpre hwrite

theorem SapCall.exec_reaches {call : SapCall} (h : call.exec options w = .ok w') :
    Reaches w.protocol w'.protocol := by
  cases call with
  | persistExecute dispatch =>
      obtain ⟨_, _, hrun, rfl⟩ := transact_eq_ok.mp h
      exact Reaches.enqueueExecute _ _ _ hrun
  | commitDispatch state dispatch =>
      obtain ⟨_, hrun⟩ := script_ok (commitWith_ok h).2
      exact Reaches.enqueueExecute _ _ _ hrun
  | beginExecute now dispatch =>
      obtain ⟨_, _, hrun, rfl⟩ := transact_eq_ok.mp h
      exact Reaches.beginExecute _ _ _ hrun
  | acceptResult admission result =>
      obtain ⟨_, _, hrun, rfl⟩ := transact_eq_ok.mp h
      exact Reaches.acceptResult _ _ _ hrun
  | commitResult state admission result =>
      exact Reaches.completeResult _ _ _ (commitResult_ok h).2
  | recordLateResult admission result =>
      obtain ⟨_, _, hrun, rfl⟩ := transact_eq_ok.mp h
      exact Reaches.recordLateResult _ _ _ hrun
  | commitCancel state dispatch cancel =>
      obtain ⟨_, hrun⟩ := script_ok (commitWith_ok h).2
      exact Reaches.enqueueCancel _ _ _ hrun
  | enqueueCancel dispatch cancel =>
      obtain ⟨_, _, hrun, rfl⟩ := transact_eq_ok.mp h
      exact Reaches.enqueueCancel _ _ _ hrun

theorem SapCall.serve_reaches (w : World ProtocolDelivery) (call : SapCall) :
    Reaches w.protocol (call.serve options w).protocol := by
  unfold SapCall.serve
  cases h : call.exec options w with
  | error e => exact Reaches.refl _
  | ok w' => exact exec_reaches h

theorem SapCall.serveAll_reaches (calls : List SapCall) (w : World ProtocolDelivery) :
    Reaches w.protocol (SapCall.serveAll options calls w).protocol :=
  List.foldlRecOn (motive := fun v : World ProtocolDelivery => Reaches w.protocol v.protocol)
    calls _ (Reaches.refl _) fun v hv call _ => hv.trans (serve_reaches v call)

/-! ## One result wins -/

/-- An admission `beginExecute` returned for the dispatch, at some time and in some state. -/
def Issued (dispatch : SapExecuteDispatch) (admission : SapExecutionAdmission) : Prop :=
  ∃ options now d d', Sap.beginExecute options now dispatch d = .ok (admission, d')

/-- The call gets `result` accepted for the exchange of `dispatch`. -/
def Accepts (options : BridgeOptions) (dispatch : SapExecuteDispatch)
    (w : World ProtocolDelivery) (call : SapCall) (result : SapResultFrame) : Prop :=
  ∃ admission, Issued dispatch admission ∧
    ((call = .acceptResult admission result ∧
        ∃ d', Sap.acceptResult options admission result w.protocol = .ok (.accepted, d')) ∨
      ∃ state w', call = .commitResult state admission result ∧ call.exec options w = .ok w')

/-- The agent inbox row of an exchange that `result` has settled. -/
structure SettledRow (dispatch : SapExecuteDispatch) (result : SapResultFrame)
    (row : ProtocolInboxRecord) (d : ProtocolDelivery) : Prop where
  stored : d.inboxRow dispatch.inboxKey = some row
  complete : row.status = .complete
  reply : row.replyExchangeId = some result.exchangeId

variable {dispatch : SapExecuteDispatch} {result : SapResultFrame} {call : SapCall}

theorem Issued.key (h : Issued dispatch admission) :
    admission.executeInbox.key = dispatch.inboxKey := by
  obtain ⟨_, _, _, _, h⟩ := h
  exact beginExecute_key h

theorem Accepts.completes (h : Accepts options dispatch w call result) :
    ∃ admission, Issued dispatch admission ∧
      Sap.classifyResult admission result w.protocol = .ok (.accepted, w.protocol) ∧
      Sap.completeResult options admission result w.protocol =
        .ok (⟨⟩, (call.serve options w).protocol) := by
  obtain ⟨admission, hissued, ⟨rfl, d', haccept⟩ | ⟨state, w', rfl, hcommit⟩⟩ := h
  · obtain ⟨hclassify, hcomplete⟩ := acceptResult_eq_ok.mp haccept
    refine ⟨admission, hissued, hclassify, ?_⟩
    simpa [SapCall.serve, SapCall.exec, transact, haccept, Except.map] using hcomplete
  · obtain ⟨hclassify, hcomplete⟩ := commitResult_ok hcommit
    refine ⟨admission, hissued, hclassify, ?_⟩
    simpa [SapCall.serve, hcommit] using hcomplete

theorem Accepts.settles (h : Accepts options dispatch w call result) :
    ∃ row, SettledRow dispatch result row (call.serve options w).protocol := by
  obtain ⟨admission, hissued, _, hcomplete⟩ := h.completes
  obtain ⟨row, hrow, hstatus, hreply⟩ := completeResult_settles hcomplete
  rw [hissued.key] at hrow
  exact ⟨row, hrow, hstatus, hreply⟩

variable {row : ProtocolInboxRecord}

theorem SettledRow.reaches (h : SettledRow dispatch result row d) (hreach : Reaches d d') :
    SettledRow dispatch result row d' :=
  ⟨hreach.complete h.stored h.complete, h.complete, h.reply⟩

def settledDisposition (result other : SapResultFrame) : SapResultDisposition :=
  if other.exchangeId = result.exchangeId then .duplicate else .late

theorem SettledRow.classify (h : SettledRow dispatch result row d)
    (hissued : Issued dispatch admission) (other : SapResultFrame) :
    Sap.disposition admission other (d.inboxRow admission.executeInbox.key)
      (d.outboxRow (Sap.cancelOutboxId admission.executeInbox.exchangeId)).isSome =
        settledDisposition result other := by
  refine disposition_settled ⟨row, ?_, h.complete, h.reply⟩
  rw [hissued.key]
  exact h.stored

theorem SettledRow.not_accepts
    (h : SettledRow dispatch result row w.protocol) (other : SapResultFrame) :
    ¬ Accepts options dispatch w call other := by
  intro haccepts
  obtain ⟨admission, hissued, hclassify, _⟩ := haccepts.completes
  obtain ⟨_, haccepted, _⟩ := classifyResult_eq_ok.mp hclassify
  rw [h.classify hissued other] at haccepted
  unfold settledDisposition at haccepted
  split at haccepted
  · cases haccepted
  · cases haccepted

/-- Once a result of an exchange was accepted its agent inbox row stays as it is through every
later call, no other acceptance follows, the result itself is from then on a duplicate and every
other result late.  A call that throws, so a commit of a result that is not accepted, leaves the
database as it was. -/
theorem one_result_wins (haccepts : Accepts options dispatch w call result)
    (more : List SapCall) :
    ∃ row, SettledRow dispatch result row (call.serve options w).protocol ∧
      SettledRow dispatch result row
        (SapCall.serveAll options more (call.serve options w)).protocol ∧
      (∀ later other,
        ¬ Accepts options dispatch (SapCall.serveAll options more (call.serve options w)) later
          other) ∧
      (∀ admission other d', Issued dispatch admission →
        other.causationId = some admission.executeInbox.exchangeId →
        Sap.classifyResult admission other
            (SapCall.serveAll options more (call.serve options w)).protocol =
          .ok (settledDisposition result other,
            (SapCall.serveAll options more (call.serve options w)).protocol) ∧
        ∀ disposition, Sap.acceptResult options admission other
            (SapCall.serveAll options more (call.serve options w)).protocol =
              .ok (disposition, d') →
          disposition = settledDisposition result other ∧ SettledRow dispatch result row d') ∧
      ∀ state admission other v, (∀ v', SapCall.exec options v
          (.commitResult state admission other) ≠ .ok v') →
        SapCall.serve options v (.commitResult state admission other) = v := by
  obtain ⟨row, hrow⟩ := haccepts.settles
  have hreach : Reaches (call.serve options w).protocol
      (SapCall.serveAll options more (call.serve options w)).protocol :=
    SapCall.serveAll_reaches more _
  have hafter := hrow.reaches hreach
  refine ⟨row, hrow, hafter, fun later other => hafter.not_accepts other, ?_, ?_⟩
  · intro admission other d' hissued hbelongs
    refine ⟨classifyResult_eq_ok.mpr ⟨hbelongs, hafter.classify hissued other, rfl⟩, ?_⟩
    intro disposition haccept
    obtain ⟨hclassify, _⟩ := acceptResult_eq_ok.mp haccept
    obtain ⟨_, hdisposition, _⟩ := classifyResult_eq_ok.mp hclassify
    exact ⟨hdisposition.symm.trans (hafter.classify hissued other),
      hafter.reaches (Reaches.acceptResult _ _ _ haccept)⟩
  · intro state admission other v hthrows
    unfold SapCall.serve
    cases hexec : SapCall.exec options v (.commitResult state admission other) with
    | error e => rfl
    | ok v' => exact absurd hexec (hthrows v')

def sampleExchange : Delivery SapResultDisposition := do
  let _ ← Sap.enqueueExecute sampleDispatch
  let admission ← Sap.beginExecute sampleOptions sampleExecute.createdAt sampleDispatch
  Sap.acceptResult sampleOptions admission sampleResult

theorem sampleExchange_accepted :
    (sampleExchange .empty).map (·.1) = .ok .accepted := by
  decide

theorem one_result_wins_sample :
    ∃ w call row, SettledRow sampleDispatch sampleResult row
      (SapCall.serve sampleOptions w call).protocol := by
  obtain ⟨⟨disposition, d''⟩, hrun, rfl⟩ := mapped_eq_ok.mp sampleExchange_accepted
  obtain ⟨_, d, _, hrest⟩ := chain_eq_ok.mp hrun
  obtain ⟨admission, d', hbegin, haccept⟩ := chain_eq_ok.mp hrest
  have haccepts : Accepts sampleOptions sampleDispatch { store := .empty, protocol := d' }
      (.acceptResult admission sampleResult) sampleResult :=
    ⟨admission, ⟨_, _, _, _, hbegin⟩, .inl ⟨rfl, d'', haccept⟩⟩
  obtain ⟨row, hrow, _⟩ := one_result_wins haccepts []
  exact ⟨_, _, row, hrow⟩

end Newide
