import Newide.AapBridge
import Newide.DeliveryRuns
import Newide.SapBridge

/-!
# Bridge scripts as runs of calls

The scripts of the bridges are put together from few operations, so a
relation that composes and that these operations move the tables along
is one the scripts do.  The first such relation: whatever a script does
to the tables, a run of delivery calls does too, and none of them
renews, retries or fails a row.
-/

namespace Newide

open Fallible Transaction Delivery Delivery Sap Keeps Aap Newide

/-! ## Scripts along a relation -/

/-- A relation the tables move along whenever a bridge reads, claims, sends, activates or settles a
row. -/
structure BridgeRelation (R : ProtocolDelivery → ProtocolDelivery → Prop) : Prop where
  refl : ∀ d, R d d
  trans : ∀ {d d' d''}, R d d' → R d' d'' → R d d''
  claimOutbox : ∀ {id owner now expiry revision},
    Keeps R (claimOutbox id owner now expiry revision)
  markOutboxSent : ∀ {id owner revision ts}, Keeps R (markOutboxSent id owner revision ts)
  activateOutbox : ∀ {id revision ts}, Keeps R (activateOutbox id revision ts)
  claimInbox : ∀ {key owner now expiry revision},
    Keeps R (claimInbox key owner now expiry revision)
  settleInbox : ∀ {input}, input.reply = none → Keeps R (completeInbox input)

variable {options : BridgeOptions} {dispatch : SapExecuteDispatch} {result : SapResultFrame}
  {now : Timestamp} {admission : SapExecutionAdmission}

variable {cancel : SapCancelFrame} {name outboxId owner : String} {outbox : ProtocolOutboxRecord}
  {receipt : ProtocolFrame} {received : ProtocolInboxRecord} {reply : AapReplyFrame} {α : Type}
  {x : Delivery α}

namespace BridgeRelation

variable {R : ProtocolDelivery → ProtocolDelivery → Prop} (hR : BridgeRelation R)

include hR

theorem bind {β : Type} {f : α → Delivery β} (hx : Keeps R x) (hf : ∀ a, Keeps R (f a)) :
    Keeps R (x >>= f) :=
  Keeps.bind hR.trans hx hf

theorem pure {a : α} : Keeps R (Pure.pure a : Delivery α) :=
  Keeps.pure hR.refl a

theorem lift {x : Except Thrown α} : Keeps R (Transaction.lift x : Delivery α) :=
  Keeps.lift hR.refl x

theorem getOutbox {id : String} : Keeps R (getOutbox id) :=
  query hR.refl _

theorem getInbox {key : ProtocolInboxKey} : Keeps R (getInbox key) :=
  query hR.refl _

theorem requireBridgeOutbox :
    Keeps R (requireBridgeOutbox name outboxId) :=
  hR.bind hR.getOutbox fun _ => hR.lift

/-! ### The receipt scripts -/

theorem sendReceipt : Keeps R (sendReceipt options owner now outbox) := by
  refine ite (fun _ => hR.bind hR.claimOutbox fun claimed => ?_) fun _ => hR.pure
  cases claimed with
  | none => exact hR.pure
  | some claimed => exact hR.bind hR.markOutboxSent fun _ => hR.pure

theorem settleSystemInbox :
    Keeps R (settleSystemInbox options owner now received) := by
  refine ite (fun _ => hR.bind hR.claimInbox fun claimed => ?_) fun _ => hR.pure
  cases claimed with
  | none => exact hR.pure
  | some claimed => exact hR.bind (hR.settleInbox rfl) fun _ => hR.pure

theorem deliverToSystem (hreceive : ∀ ts, Keeps R (receiveInbox "system" receipt ts)) :
    Keeps R (deliverToSystem options name owner outboxId receipt) :=
  hR.bind hR.requireBridgeOutbox fun _ => hR.bind hR.sendReceipt fun _ =>
    hR.bind (hreceive _) fun _ => hR.settleSystemInbox

/-! ### The SAP scripts -/

theorem enqueueExecute (henqueue : ∀ input, Keeps R (enqueueOutbox input)) :
    Keeps R (enqueueExecute dispatch) := by
  refine hR.bind hR.getOutbox fun existing => ?_
  cases existing with
  | none => exact henqueue _
  | some existing => exact hR.bind hR.lift fun _ => hR.pure

theorem deliverExecute
    (hreceive : Keeps R (receiveInbox dispatch.destination dispatch.frame.toFrame now)) :
    Keeps R (deliverExecute options now dispatch) := by
  refine hR.bind hR.requireBridgeOutbox fun outbox => hR.bind hR.claimOutbox fun claimedOutbox =>
    hR.bind hreceive fun received => ?_
  cases claimedOutbox with
  | none => exact hR.pure
  | some claimedOutbox =>
      refine hR.bind hR.claimInbox fun claimedInbox => ?_
      cases claimedInbox with
      | none => exact hR.pure
      | some claimedInbox => exact hR.bind hR.markOutboxSent fun _ => hR.pure

theorem beginExecute
    (hreceive : Keeps R (receiveInbox dispatch.destination dispatch.frame.toFrame now)) :
    Keeps R (beginExecute options now dispatch) := by
  refine hR.bind hR.getInbox fun existing => ?_
  cases existing with
  | none => exact hR.deliverExecute hreceive
  | some existing =>
      refine hR.bind hR.getOutbox fun cancel => ite (fun _ => ?_) fun _ => ?_
      · exact hR.bind hR.requireBridgeOutbox fun _ => hR.pure
      · exact hR.bind hR.requireBridgeOutbox fun _ => hR.bind hR.claimInbox fun _ => hR.pure

theorem sapClassifyResult :
    Keeps R (classifyResult admission result) :=
  hR.bind hR.lift fun _ => hR.bind hR.getInbox fun _ => hR.bind hR.getOutbox fun _ => hR.pure

theorem deliverAccepted
    (hreceive : ∀ ts, Keeps R (receiveInbox "system" result.toFrame ts)) :
    Keeps R (deliverAccepted options result) :=
  hR.bind hR.requireBridgeOutbox fun _ => hR.bind hR.claimOutbox fun _ => hR.bind hR.lift fun _ =>
    hR.bind hR.markOutboxSent fun _ => hR.bind (hreceive _) fun _ => hR.bind hR.claimInbox fun _ =>
      hR.bind hR.lift fun _ => hR.bind (hR.settleInbox rfl) fun _ => hR.pure

theorem completeLateResult (henqueue : ∀ input, Keeps R (enqueueOutbox input))
    (hreceive : ∀ ts, Keeps R (receiveInbox "system" result.toFrame ts)) :
    Keeps R (completeLateResult options result) := by
  refine hR.bind hR.getOutbox fun existing => ?_
  cases existing with
  | none => exact hR.bind (henqueue _) fun _ => hR.deliverToSystem hreceive
  | some existing => exact hR.deliverToSystem hreceive

theorem enqueueCancel (henqueue : ∀ input, Keeps R (enqueueOutbox input)) :
    Keeps R (enqueueCancel dispatch cancel) := by
  refine hR.bind hR.getOutbox fun existing => ?_
  cases existing with
  | none => exact hR.bind (henqueue _) fun _ => hR.pure
  | some existing => exact hR.pure

/-! ### The AAP scripts -/

theorem enqueueAsk {dispatch : AapAskDispatch}
    (henqueue : ∀ input, input.id = dispatch.outboxId → input.frame = dispatch.frame.toFrame →
      Keeps R (enqueueOutbox input)) : Keeps R (enqueueAsk dispatch) := by
  refine hR.bind hR.getOutbox fun existing => ?_
  cases existing with
  | none => exact henqueue _ rfl rfl
  | some existing => exact hR.bind hR.lift fun _ => hR.pure

theorem persistAsk {dispatch : AapAskDispatch}
    (henqueue : ∀ input, input.id = dispatch.outboxId → input.frame = dispatch.frame.toFrame →
      Keeps R (enqueueOutbox input)) : Keeps R (persistAsk dispatch) :=
  hR.bind (hR.enqueueAsk henqueue) fun _ => ite (fun _ => hR.activateOutbox) fun _ => hR.pure

theorem admitAsk {options : AapOptions} {dispatch : AapAskDispatch}
    {claimedOutbox : Option ProtocolOutboxRecord} :
    Keeps R (admitAsk options now dispatch outbox claimedOutbox received) := by
  refine hR.bind hR.claimInbox fun claimedInbox => ?_
  cases claimedInbox with
  | none => exact hR.pure
  | some claimedInbox =>
      cases claimedOutbox with
      | none => exact hR.pure
      | some claimedOutbox => exact hR.bind hR.markOutboxSent fun _ => hR.pure

theorem beginAsk {options : AapOptions} {dispatch : AapAskDispatch}
    (hreceive : Keeps R (receiveInbox dispatch.destination dispatch.frame.toFrame now)) :
    Keeps R (beginAsk options now dispatch) := by
  refine hR.bind hR.getInbox fun existing => hR.bind hR.requireBridgeOutbox fun outbox => ?_
  cases existing with
  | none =>
      exact hR.bind hR.claimOutbox fun _ => hR.bind hreceive fun _ =>
        ite (fun _ => hR.pure) fun _ => hR.admitAsk
  | some existing =>
      exact ite (fun _ => hR.pure) fun _ => hR.bind hR.claimInbox fun _ => hR.pure

theorem classifyReply {admission : AapAskAdmission} :
    Keeps R (classifyReply admission reply) := by
  refine hR.bind hR.lift fun _ => hR.bind hR.getInbox fun current => ?_
  cases current.filter fun row => row.status = .complete with
  | none => exact hR.pure
  | some row => exact hR.pure

theorem recordLateReply {options : AapOptions}
    (henqueue : ∀ input, Keeps R (enqueueOutbox input))
    (hreceive : ∀ ts, Keeps R (receiveInbox "system" reply.toFrame ts)) :
    Keeps R (recordLateReply options reply) := by
  refine hR.bind hR.getOutbox fun existing => ?_
  cases existing with
  | none => exact hR.bind (henqueue _) fun _ => hR.deliverToSystem hreceive
  | some existing => exact hR.deliverToSystem hreceive

end BridgeRelation

/-! ## Runs of calls -/

def DeliveryCall.OfBridge : DeliveryCall → Prop
  | .renewOutboxLease .. | .retryOutbox .. | .failOutbox .. | .renewInboxLease .. => False
  | _ => True

/-- The tables a run of bridge calls leads to. -/
def Reaches (d d' : ProtocolDelivery) : Prop :=
  ∃ calls : List DeliveryCall, (∀ call ∈ calls, call.OfBridge) ∧ serveAll calls d = d'

namespace Reaches

variable {d d' d'' : ProtocolDelivery}

theorem refl (d : ProtocolDelivery) : Reaches d d :=
  ⟨[], fun _ h => (by cases h), rfl⟩

theorem trans (h : Reaches d d') (h' : Reaches d' d'') : Reaches d d'' := by
  obtain ⟨calls, hcalls, rfl⟩ := h
  obtain ⟨more, hmore, rfl⟩ := h'
  refine ⟨calls ++ more, fun call hcall => ?_, List.foldl_append⟩
  rcases List.mem_append.mp hcall with h | h
  · exact hcalls call h
  · exact hmore call h

theorem invariant {I : ProtocolDelivery → Prop} (hinit : I d)
    (hstep : ∀ d call, call.OfBridge → I d → I (serve d call)) (h : Reaches d d') : I d' := by
  obtain ⟨calls, hcalls, rfl⟩ := h
  exact List.foldlRecOn calls serve hinit fun d hd call hcall => hstep d call (hcalls call hcall) hd

theorem call {call : DeliveryCall} {u : Unit} (hcall : call.OfBridge)
    (h : call.exec d = .ok (u, d')) : Reaches d d' := by
  refine ⟨[call], fun c hc => ?_, ?_⟩
  · rw [List.mem_singleton.mp hc]
    exact hcall
  · simp [serveAll, serve, h]

/-! ## The parts of a script -/

theorem op (call : DeliveryCall) (hcall : call.OfBridge) (hx : call.exec = (fun _ => ()) <$> x) :
    Keeps Reaches x := by
  intro d a d' h
  refine Reaches.call (u := ()) hcall ?_
  rw [hx]
  exact map_eq_ok.mpr ⟨a, h, rfl⟩

theorem enqueueOutbox {input : EnqueueProtocolOutbox} :
    Keeps Reaches (enqueueOutbox input) :=
  op (.enqueueOutbox input) trivial rfl

theorem receiveInbox {consumerId : String} {frame : ProtocolFrame} {receivedAt : Timestamp} :
    Keeps Reaches (receiveInbox consumerId frame receivedAt) :=
  op (.receiveInbox consumerId frame receivedAt) trivial rfl

theorem completeInbox {input : CompleteProtocolInbox} :
    Keeps Reaches (completeInbox input) :=
  op (.completeInbox input) trivial rfl

theorem bridge : BridgeRelation Reaches where
  refl := refl
  trans := trans
  claimOutbox := op (.claimOutbox _ _ _ _ _) trivial rfl
  markOutboxSent := op (.markOutboxSent _ _ _ _) trivial rfl
  activateOutbox := op (.activateOutbox _ _ _) trivial rfl
  claimInbox := op (.claimInbox _ _ _ _ _) trivial rfl
  settleInbox _ := completeInbox

/-! ## The scripts -/

theorem deliverToSystem :
    Keeps Reaches (deliverToSystem options name owner outboxId receipt) :=
  BridgeRelation.deliverToSystem bridge fun _ => receiveInbox

theorem enqueueExecute :
    Keeps Reaches (enqueueExecute dispatch) :=
  BridgeRelation.enqueueExecute bridge fun _ => enqueueOutbox

theorem beginExecute :
    Keeps Reaches (beginExecute options now dispatch) :=
  BridgeRelation.beginExecute bridge receiveInbox

theorem deliverAccepted :
    Keeps Reaches (deliverAccepted options result) :=
  BridgeRelation.deliverAccepted bridge fun _ => receiveInbox

theorem completeResult : Keeps Reaches (completeResult options admission result) := by
  have hR : BridgeRelation Reaches := bridge
  exact hR.bind hR.lift fun _ => hR.bind completeInbox fun _ => deliverAccepted

theorem completeLateResult :
    Keeps Reaches (completeLateResult options result) :=
  BridgeRelation.completeLateResult bridge (fun _ => enqueueOutbox) fun _ => receiveInbox

theorem acceptResult : Keeps Reaches (acceptResult options admission result) := by
  have hR : BridgeRelation Reaches := bridge
  refine hR.bind hR.sapClassifyResult fun disposition => ?_
  cases disposition with
  | accepted => exact hR.bind completeResult fun _ => hR.pure
  | late => exact hR.bind completeLateResult fun _ => hR.pure
  | duplicate => exact hR.pure

theorem recordLateResult : Keeps Reaches (recordLateResult options admission result) := by
  have hR : BridgeRelation Reaches := bridge
  exact hR.bind hR.sapClassifyResult fun _ =>
    ite (fun _ => completeLateResult) fun _ => hR.pure

theorem enqueueCancel :
    Keeps Reaches (enqueueCancel dispatch cancel) :=
  BridgeRelation.enqueueCancel bridge fun _ => enqueueOutbox

theorem persistAsk {dispatch : AapAskDispatch} : Keeps Reaches (persistAsk dispatch) :=
  BridgeRelation.persistAsk bridge fun _ _ _ => enqueueOutbox

theorem beginAsk {options : AapOptions} {dispatch : AapAskDispatch} :
    Keeps Reaches (beginAsk options now dispatch) :=
  BridgeRelation.beginAsk bridge receiveInbox

theorem acceptReply {options : AapOptions} {admission : AapAskAdmission} :
    Keeps Reaches (acceptReply options admission reply) := by
  have hR : BridgeRelation Reaches := bridge
  refine hR.bind hR.classifyReply fun disposition => ?_
  cases disposition with
  | accepted => exact hR.bind (hR.bind completeInbox fun _ => deliverToSystem) fun _ => hR.pure
  | late =>
      exact hR.bind (hR.recordLateReply (fun _ => enqueueOutbox) fun _ => receiveInbox)
        fun _ => hR.pure
  | duplicate => exact hR.pure

end Reaches

end Newide
