import Newide.Core

/-!
# Protocol frames

The frames of `src/core/protocol-*.ts`: the shared envelope, the
variant of each command and receipt, and the checks of
`protocolFrameSchema` that the types do not carry.  The constant
`protocol_version` is left out, and so is the ISO syntax of the two
timestamps.
-/

namespace Newide

/-- `PROTOCOL_IDS`: SAP, ADP and AAP. -/
inductive ProtocolId where
  | systemAgent | agentDriver | agentAgent
deriving DecidableEq, Inhabited

def ProtocolId.text : ProtocolId → String
  | .systemAgent => "system-agent"
  | .agentDriver => "agent-driver"
  | .agentAgent => "agent-agent"

inductive PrincipalKind where
  | system | agent | driver
deriving DecidableEq, Inhabited

structure ProtocolPrincipal where
  kind : PrincipalKind
  roleId : Option String := none
deriving DecidableEq, Inhabited

structure ProtocolError where
  code : String
  message : String
  retryable : Bool
deriving DecidableEq

structure Instruction where
  text : String
  ref : Option String := none
deriving DecidableEq

inductive AdpSideEffect where
  | readOnly | workspaceWrite | external
deriving DecidableEq

/-- The statuses of the three receipts; each protocol has its own subset. -/
inductive ReceiptStatus where
  | completed | succeeded | failed | cancelled | unknown
deriving DecidableEq

def ReceiptStatus.text : ReceiptStatus → String
  | .completed => "completed"
  | .succeeded => "succeeded"
  | .failed => "failed"
  | .cancelled => "cancelled"
  | .unknown => "unknown"

/-- The direction fields of a frame: a command with its payload, or a receipt. -/
inductive FrameVariant where
  | agentExecute (councilSeat : Option String) (instruction : Instruction)
  | agentCancel (targetExchangeId : String)
  | driverInvoke (workspacePath : String) (sideEffect : AdpSideEffect) (instruction : Instruction)
  | driverCancel (targetExchangeId : String)
  | agentAsk (instruction : Instruction)
  | receipt (status : ReceiptStatus) (summary : String) (error : Option ProtocolError)
deriving DecidableEq

structure ProtocolFrame where
  protocol : ProtocolId
  exchangeId : String
  causationId : Option String
  taskId : String
  runId : String
  producer : ProtocolPrincipal
  consumer : ProtocolPrincipal
  attempt : Nat
  createdAt : Timestamp
  deadlineAt : Timestamp
  variant : FrameVariant
deriving DecidableEq

namespace ProtocolFrame

/-- `'result' in frame`. -/
def isReceipt (frame : ProtocolFrame) : Bool :=
  match frame.variant with
  | .receipt .. => true
  | _ => false

def pinned (frame : ProtocolFrame) (protocol : ProtocolId) (producer consumer : PrincipalKind) :
    Prop :=
  frame.protocol = protocol ∧ frame.producer.kind = producer ∧ frame.consumer.kind = consumer

instance (frame : ProtocolFrame) (protocol : ProtocolId) (producer consumer : PrincipalKind) :
    Decidable (frame.pinned protocol producer consumer) :=
  inferInstanceAs (Decidable (_ ∧ _))

/-- `receiptFrameBase`: the direction of a receipt, its statuses and its error. -/
def receiptValid (frame : ProtocolFrame) (status : ReceiptStatus) (error : Option ProtocolError) :
    Prop :=
  (∀ e ∈ error, e.code ≠ "") ∧ (status = .failed → error.isSome = true) ∧
    match frame.protocol with
    | .systemAgent => frame.pinned .systemAgent .agent .system ∧
        status ∈ [.completed, .failed, .cancelled] ∧ (status = .completed → error = none)
    | .agentDriver => frame.pinned .agentDriver .driver .agent ∧
        status ∈ [.succeeded, .failed, .cancelled, .unknown] ∧ (status = .succeeded → error = none)
    | .agentAgent => frame.pinned .agentAgent .agent .agent ∧
        status ∈ [.completed, .failed, .cancelled] ∧ (status = .completed → error = none)

instance (frame : ProtocolFrame) (status : ReceiptStatus) (error : Option ProtocolError) :
    Decidable (frame.receiptValid status error) := by
  unfold receiptValid
  cases frame.protocol <;> infer_instance

/-- The checks on the direction fields. -/
def variantValid (frame : ProtocolFrame) : Prop :=
  match frame.variant with
  | .agentExecute councilSeat instruction => frame.pinned .systemAgent .system .agent ∧
      councilSeat ≠ some "" ∧ instruction.text ≠ ""
  | .agentCancel target => frame.pinned .systemAgent .system .agent ∧ target ≠ "" ∧
      frame.causationId = some target
  | .driverInvoke workspacePath _ instruction => frame.pinned .agentDriver .agent .driver ∧
      workspacePath ≠ "" ∧ instruction.text ≠ ""
  | .driverCancel target => frame.pinned .agentDriver .agent .driver ∧ target ≠ "" ∧
      frame.causationId = some target
  | .agentAsk instruction => frame.pinned .agentAgent .agent .agent ∧ instruction.text ≠ ""
  | .receipt status _ error => frame.receiptValid status error

instance (frame : ProtocolFrame) : Decidable frame.variantValid := by
  unfold variantValid
  cases frame.variant <;> infer_instance

/-- What `protocolFrameSchema` accepts. -/
def Valid (frame : ProtocolFrame) : Prop :=
  frame.exchangeId ≠ "" ∧ frame.causationId ≠ some "" ∧ frame.taskId ≠ "" ∧ frame.runId ≠ "" ∧
    frame.producer.roleId ≠ some "" ∧ frame.consumer.roleId ≠ some "" ∧ 1 ≤ frame.attempt ∧
    frame.variantValid

instance (frame : ProtocolFrame) : Decidable frame.Valid :=
  inferInstanceAs (Decidable (_ ∧ _))

end ProtocolFrame

open Fallible in
/-- `protocolFrameSchema.parse`. -/
def parseProtocolFrame (frame : ProtocolFrame) : Except Thrown ProtocolFrame := do
  ensure frame.Valid (.schema "frame")
  return frame

open Fallible in
@[simp] theorem parseProtocolFrame_eq_ok {frame parsed : ProtocolFrame} :
    parseProtocolFrame frame = .ok parsed ↔ frame.Valid ∧ frame = parsed := by
  simp only [parseProtocolFrame, bind_eq_ok, ensure_eq_ok, pure_eq_ok, exists_and_left,
    exists_const]

/-! ## The frames of the bridges -/

/-- A SAP `agent.execute` command. -/
structure SapExecuteFrame where
  exchangeId : String
  causationId : Option String := none
  taskId : String
  runId : String
  producerRoleId : Option String := none
  consumerRoleId : Option String
  attempt : Nat := 1
  createdAt : Timestamp
  deadlineAt : Timestamp
  councilSeat : Option String := none
  instruction : Instruction

def SapExecuteFrame.toFrame (frame : SapExecuteFrame) : ProtocolFrame where
  protocol := .systemAgent
  exchangeId := frame.exchangeId
  causationId := frame.causationId
  taskId := frame.taskId
  runId := frame.runId
  producer := { kind := .system, roleId := frame.producerRoleId }
  consumer := { kind := .agent, roleId := frame.consumerRoleId }
  attempt := frame.attempt
  createdAt := frame.createdAt
  deadlineAt := frame.deadlineAt
  variant := .agentExecute frame.councilSeat frame.instruction

/-- A stored frame read as an `agent.execute` command, if it is one. -/
def SapExecuteFrame.ofFrame? (frame : ProtocolFrame) : Option SapExecuteFrame :=
  match frame.variant with
  | .agentExecute councilSeat instruction => some
      { exchangeId := frame.exchangeId
        causationId := frame.causationId
        taskId := frame.taskId
        runId := frame.runId
        producerRoleId := frame.producer.roleId
        consumerRoleId := frame.consumer.roleId
        attempt := frame.attempt
        createdAt := frame.createdAt
        deadlineAt := frame.deadlineAt
        councilSeat
        instruction }
  | _ => none

/-- A SAP `agent.execution_result` receipt. -/
structure SapResultFrame where
  exchangeId : String
  causationId : Option String
  taskId : String
  runId : String
  producerRoleId : Option String
  consumerRoleId : Option String := none
  attempt : Nat := 1
  createdAt : Timestamp
  deadlineAt : Timestamp
  status : ReceiptStatus
  summary : String
  error : Option ProtocolError := none
deriving DecidableEq

def SapResultFrame.toFrame (frame : SapResultFrame) : ProtocolFrame where
  protocol := .systemAgent
  exchangeId := frame.exchangeId
  causationId := frame.causationId
  taskId := frame.taskId
  runId := frame.runId
  producer := { kind := .agent, roleId := frame.producerRoleId }
  consumer := { kind := .system, roleId := frame.consumerRoleId }
  attempt := frame.attempt
  createdAt := frame.createdAt
  deadlineAt := frame.deadlineAt
  variant := .receipt frame.status frame.summary frame.error

/-- A SAP `agent.cancel` command.  Its schema makes the causation the target. -/
structure SapCancelFrame where
  exchangeId : String
  targetExchangeId : String
  taskId : String
  runId : String
  producerRoleId : Option String := none
  consumerRoleId : Option String
  attempt : Nat := 1
  createdAt : Timestamp
  deadlineAt : Timestamp

def SapCancelFrame.toFrame (frame : SapCancelFrame) : ProtocolFrame where
  protocol := .systemAgent
  exchangeId := frame.exchangeId
  causationId := some frame.targetExchangeId
  taskId := frame.taskId
  runId := frame.runId
  producer := { kind := .system, roleId := frame.producerRoleId }
  consumer := { kind := .agent, roleId := frame.consumerRoleId }
  attempt := frame.attempt
  createdAt := frame.createdAt
  deadlineAt := frame.deadlineAt
  variant := .agentCancel frame.targetExchangeId

/-- An AAP `agent.ask` command. -/
structure AapAskFrame where
  exchangeId : String
  causationId : Option String
  taskId : String
  runId : String
  producerRoleId : Option String
  consumerRoleId : Option String
  attempt : Nat := 1
  createdAt : Timestamp
  deadlineAt : Timestamp
  instruction : Instruction

def AapAskFrame.toFrame (frame : AapAskFrame) : ProtocolFrame where
  protocol := .agentAgent
  exchangeId := frame.exchangeId
  causationId := frame.causationId
  taskId := frame.taskId
  runId := frame.runId
  producer := { kind := .agent, roleId := frame.producerRoleId }
  consumer := { kind := .agent, roleId := frame.consumerRoleId }
  attempt := frame.attempt
  createdAt := frame.createdAt
  deadlineAt := frame.deadlineAt
  variant := .agentAsk frame.instruction

/-- An AAP `agent.reply` receipt. -/
structure AapReplyFrame where
  exchangeId : String
  causationId : Option String
  taskId : String
  runId : String
  producerRoleId : Option String
  consumerRoleId : Option String
  attempt : Nat := 1
  createdAt : Timestamp
  deadlineAt : Timestamp
  status : ReceiptStatus
  summary : String
  error : Option ProtocolError := none

def AapReplyFrame.toFrame (frame : AapReplyFrame) : ProtocolFrame where
  protocol := .agentAgent
  exchangeId := frame.exchangeId
  causationId := frame.causationId
  taskId := frame.taskId
  runId := frame.runId
  producer := { kind := .agent, roleId := frame.producerRoleId }
  consumer := { kind := .agent, roleId := frame.consumerRoleId }
  attempt := frame.attempt
  createdAt := frame.createdAt
  deadlineAt := frame.deadlineAt
  variant := .receipt frame.status frame.summary frame.error

/-! ## Samples -/

/-- An execute for role `coder`. -/
def sampleExecute : SapExecuteFrame where
  exchangeId := "x"
  taskId := "task"
  runId := "run"
  consumerRoleId := some "coder"
  createdAt := "2026-01-01T00:00:00.000Z"
  deadlineAt := "2026-01-01T01:00:00.000Z"
  instruction := { text := "Fix the bug" }

def sampleResult : SapResultFrame where
  exchangeId := "r"
  causationId := some "x"
  taskId := "task"
  runId := "run"
  producerRoleId := some "coder"
  createdAt := "2026-01-01T00:10:00.000Z"
  deadlineAt := "2026-01-01T01:00:00.000Z"
  status := .completed
  summary := "Done"

end Newide
