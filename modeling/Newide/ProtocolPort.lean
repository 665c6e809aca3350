import Newide.AapBridge
import Newide.CoordinationStore
import Newide.SapBridge

/-!
# The protocol port

A SAP or AAP bridge commits a coordination state together with rows of
its own delivery tables, in one transaction of the same database.  The
coordination code only needs that shape: a check made before the
coordination rows are written and a write made after them, either of
which may refuse the whole transaction.  The delivery tables are a type
parameter `π`.
-/

namespace Newide

open Transaction Sap

structure ProtocolWrite (π : Type) where
  precheck : π → Except Thrown Unit
  write : π → Except Thrown π

namespace ProtocolWrite

variable {π : Type}

/-- No delivery rows: the store commits alone. -/
def storeOnly : ProtocolWrite π where
  precheck _ := .ok ()
  write protocol := .ok protocol

/-- A transaction that cannot be opened. -/
def refuse (error : Thrown) : ProtocolWrite π where
  precheck _ := .error error
  write protocol := .ok protocol

end ProtocolWrite

/-- What the coordination code uses of `SapTaskBridge`. -/
structure SapTaskBridge (π : Type) where
  commitDispatch : SapExecuteDispatch → ProtocolWrite π
  commitResult : SapExecutionAdmission → SapResultFrame → ProtocolWrite π
  commitCancel : SapExecuteDispatch → SapCancelFrame → ProtocolWrite π
  classifyResult : π → SapExecutionAdmission → SapResultFrame → Except Thrown SapResultDisposition
  acceptResult :
    SapExecutionAdmission → SapResultFrame → π → Except Thrown (SapResultDisposition × π)
  getDispatch : π → String → Option SapExecuteDispatch
  createCancel : Timestamp → SapExecuteFrame → Except Thrown SapCancelFrame

/-- What the coordination code uses of `AapMailboxBridge`. -/
structure AapMailboxBridge (π : Type) where
  createAsk : Timestamp → AapAskInput → Except Thrown AapAskDispatch
  commitWait : AapAskDispatch → ProtocolWrite π

structure Bridges (π : Type) where
  sapBridge : Option (SapTaskBridge π) := none
  aapBridge : Option (AapMailboxBridge π) := none

namespace Bridges

variable {π : Type}

/-- `requireSapBridge()` and a transaction of it. -/
def sapWrite (bridges : Bridges π) (via : SapTaskBridge π → ProtocolWrite π) : ProtocolWrite π :=
  match bridges.sapBridge with
  | some bridge => via bridge
  | none => .refuse (.error "SAP bridge is not configured")

/-- `requireAapBridge()` and a transaction of it. -/
def aapWrite (bridges : Bridges π) (via : AapMailboxBridge π → ProtocolWrite π) :
    ProtocolWrite π :=
  match bridges.aapBridge with
  | some bridge => via bridge
  | none => .refuse (.error "AAP bridge is not configured")

end Bridges

/-! ## The bridges over the delivery tables -/

def ProtocolWrite.script {α : Type} (write : Delivery α) : ProtocolWrite ProtocolDelivery where
  precheck _ := .ok ()
  write protocol := (write protocol).map (·.2)

def sapTaskBridge (options : BridgeOptions) : SapTaskBridge ProtocolDelivery where
  commitDispatch dispatch := .script (enqueueExecute dispatch)
  commitResult admission result :=
    { precheck := fun protocol => (requireAccepted admission result protocol).map (·.1)
      write := fun protocol => (completeResult options admission result protocol).map (·.2) }
  commitCancel dispatch cancel := .script (enqueueCancel dispatch cancel)
  classifyResult protocol admission result :=
    (classifyResult admission result protocol).map (·.1)
  acceptResult admission result := acceptResult options admission result
  getDispatch := getDispatch
  createCancel now execute := createCancel now execute

def aapMailboxBridge (options : AapOptions) : AapMailboxBridge ProtocolDelivery where
  createAsk := Aap.createAsk options
  commitWait dispatch := .script (Aap.persistAsk dispatch)

end Newide
