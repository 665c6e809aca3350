import Newide.Foundation.WorkPools
import Newide.Hook.HookConfig
import Mathlib.Data.Multiset.Lattice
import Mathlib.Order.Lattice

/-!
# Gates and their scheduler

The requests and results of `src/gate/gate.ts`, the aggregator that keeps
the strictest result, and the priority scheduler that runs the gates.  The
times and the ids of results are left out, and a timeout stays in the
seconds it was configured in.
-/

namespace Newide.Gate

open Hook WorkPools

/-! ## Decisions -/

def decisionRank : GateDecision → Nat
  | .allow => 0
  | .defer => 1
  | .ask => 2
  | .deny => 3

theorem decisionRank_injective : Function.Injective decisionRank := by
  intro a b h
  cases a <;> cases b <;> first | rfl | cases h

/-- One decision is below another if it is the less strict. -/
instance : LinearOrder GateDecision := LinearOrder.lift' decisionRank decisionRank_injective

theorem le_iff_rank {a b : GateDecision} : a ≤ b ↔ decisionRank a ≤ decisionRank b := Iff.rfl

instance : BoundedOrder GateDecision where
  bot := .allow
  bot_le a := Nat.zero_le (decisionRank a)
  top := .deny
  le_top a := by
    rw [le_iff_rank]
    cases a <;> decide

/-- The strictest of some decisions, whatever their order; of none it is `allow`. -/
def strictest (decisions : Multiset GateDecision) : GateDecision := decisions.sup

theorem strictest_cons (a : GateDecision) (decisions : Multiset GateDecision) :
    strictest (a ::ₘ decisions) = a ⊔ strictest decisions :=
  Multiset.sup_cons ..

theorem strictest_of_deny {decisions : Multiset GateDecision} (h : .deny ∈ decisions) :
    strictest decisions = .deny :=
  top_le_iff.mp (Multiset.le_sup h)

/-! ## Requests and results -/

/-- `left < right` between two numbers; nothing is below or above `NaN`. -/
def less (left right : YamlNumber) : Bool :=
  match left.value, right.value with
  | .nan, _ | _, .nan => false
  | .infinite leftNegative, .infinite rightNegative => leftNegative && !rightNegative
  | .infinite negative, .finite _ => negative
  | .finite _, .infinite negative => !negative
  | .finite p, .finite q => decide (p < q)

structure GateRequest where
  gateId : String
  gatePoint : String
  requestId : String
  subjectId : String
  priority : YamlNumber
  /-- `timeout_ms`, in seconds. -/
  timeout : YamlNumber
  payload : Record String (Option Yaml)

structure GateResult where
  gateId : String
  gatePoint : String
  requestId : Option String := none
  subjectId : Option String := none
  decision : GateDecision
  reason : String
  requiredActions : List String := []
  targetState : Option String := none
deriving DecidableEq

/-- `DecisionAggregator.aggregate`: of two equally strict results the earlier one stays. -/
def aggregate : List GateResult → Except String GateResult
  | [] => .error "DecisionAggregator requires at least one GateResult"
  | first :: rest => .ok (rest.foldl
      (fun strictest current =>
        if decisionRank current.decision > decisionRank strictest.decision then current
        else strictest)
      first)

theorem foldl_strictest (first : GateResult) (rest : List GateResult) :
    (rest.foldl
      (fun strictest current =>
        if decisionRank current.decision > decisionRank strictest.decision then current
        else strictest)
      first).decision =
        first.decision ⊔ strictest (Multiset.ofList (rest.map GateResult.decision)) := by
  induction rest generalizing first with
  | nil => exact (sup_bot_eq _).symm
  | cons current rest ih =>
      rw [List.foldl_cons, ih, List.map_cons, ← Multiset.cons_coe, strictest_cons, ← sup_assoc]
      congr 1
      by_cases hlt : decisionRank current.decision > decisionRank first.decision
      · rw [if_pos hlt]
        exact (sup_eq_right.mpr (le_iff_rank.mpr (Nat.le_of_lt hlt))).symm
      · rw [if_neg hlt]
        exact (sup_eq_left.mpr (le_iff_rank.mpr (Nat.not_lt.mp hlt))).symm

variable {results : List GateResult}

theorem aggregate_decision {result : GateResult} (h : aggregate results = .ok result) :
    result.decision = strictest (Multiset.ofList (results.map GateResult.decision)) := by
  cases results with
  | nil => cases h
  | cons first rest =>
      rw [← Except.ok.inj h, foldl_strictest, List.map_cons, ← Multiset.cons_coe, strictest_cons]

theorem aggregate_error {message : String} (h : aggregate results = .error message) :
    results = [] := by
  cases results with
  | nil => rfl
  | cons first rest => cases h

/-! ## The scheduler -/

structure GateDefinition where
  type : GateType
  outputConfig : GateOutputConfig
  retryThreshold : YamlNumber
  timeout : Option YamlNumber := none
  command : Option String := none
  model : Option String := none
  prompt : Option String := none
  http : Option String := none
  gates : Option (List SubGateRef) := none
deriving DecidableEq

/-- What a gate comes to for a request: its result, or the message of the error it throws. -/
abbrev GateRunner := GateRequest → Except String GateResult

/-- What the scheduler was set up with.  Its queue and the requests under way are the pool that
goes with it. -/
structure PriorityGateScheduler where
  definitions : Record String GateDefinition := []
  customRunners : Record String GateRunner := []
  concurrency : YamlNumber := .ofNat 1

structure GateSchedulerOptions where
  definitions : Option (Record String GateDefinition) := none
  customRunners : Option (Record String GateRunner) := none
  concurrency : Option YamlNumber := none

abbrev GatePool := Pool GateRequest (Except String GateResult)

namespace PriorityGateScheduler

def initialized (s : PriorityGateScheduler) (options : GateSchedulerOptions) :
    PriorityGateScheduler where
  definitions := (options.definitions.map Record.ofEntries).getD s.definitions
  customRunners := options.customRunners.getD s.customRunners
  concurrency := options.concurrency.getD s.concurrency

/-- `MockAllowGate.run`. -/
def mockAllowGate (request : GateRequest) : GateResult where
  gateId := request.gateId
  gatePoint := request.gatePoint
  subjectId := some request.subjectId
  decision := .allow
  reason := "Mock allow gate accepted the subject."
  targetState := some "allowed"

/-- `MockDenyGate.run`. -/
def mockDenyGate (request : GateRequest) : GateResult where
  gateId := request.gateId
  gatePoint := request.gatePoint
  subjectId := some request.subjectId
  decision := .deny
  reason := "Mock deny gate blocked the subject."
  requiredActions := ["fix"]
  targetState := some "blocked"

/-- `executeRequest`; `build` is the runner that `BaseGateRunner.build` makes of a definition. -/
def executeRequest (build : String → GateDefinition → GateRunner) (s : PriorityGateScheduler)
    (request : GateRequest) : Except String GateResult :=
  match Record.get request.gateId s.customRunners with
  | some runner => runner request
  | none =>
      match Record.get request.gateId s.definitions with
      | some definition => build request.gateId definition request
      | none =>
          if request.gateId = "mock-allow-gate" ∨ request.gateId = "allow-gate" then
            .ok (mockAllowGate request)
          else if request.gateId = "mock-deny-gate" ∨ request.gateId = "deny-gate" then
            .ok (mockDenyGate request)
          else .error ("No definition or custom runner found for gate_id: " ++ request.gateId)

/-- The highest priority comes first, and a request waits once `activeCount` has reached the
concurrency. -/
def policy (build : String → GateDefinition → GateRunner) (s : PriorityGateScheduler) :
    Policy GateRequest (Except String GateResult) where
  first a b := !less a.priority b.priority
  full activeCount := decide (s.concurrency.AtMost activeCount)
  run := s.executeRequest build

theorem policy_room {s : PriorityGateScheduler} (h : s.concurrency.AtLeast 1)
    (build : String → GateDefinition → GateRunner) : (s.policy build).full 0 = false := by
  refine decide_eq_false fun hmost => ?_
  unfold YamlNumber.AtLeast at h
  unfold YamlNumber.AtMost at hmost
  cases hvalue : s.concurrency.value with
  | nan =>
      rw [hvalue] at h
      exact h
  | infinite negative =>
      rw [hvalue] at h hmost
      exact Bool.noConfusion (h.symm.trans hmost)
  | finite q =>
      rw [hvalue] at h hmost
      have hone : (1 : Rat) ≤ ((0 : Nat) : Rat) := Rat.le_trans h hmost
      exact absurd hone (by decide)

end PriorityGateScheduler

end Newide.Gate
