import Newide.Gate.Scheduler

/-!
# The hook engine

`HookEngine` of `src/hook/hook.ts`: an event meets the bindings whose
condition holds of it, their gates run one after the other or all at once,
and the strictest result is the decision.  What `handleEvent` does up to
its first wait, and from one wait to the next, are functions here; the
parser of the conditions, the gate runners and the environment are what
the engine is given.
-/

namespace Newide.Hook

open Gate WorkPools Record

structure HookEvent where
  eventId : String
  eventType : HookPoint
  subjectId : String
  runId : Option String := none
  taskId : Option String := none
  payload : Record String Yaml := []

structure HookResult where
  hookPoint : String
  matched : Bool
  gateRequests : List GateRequest := []
  gateResults : List GateResult := []
  finalDecision : GateDecision

/-- What the engine asks of others: the environment, the truth of a condition that was checked
and parsed, and the runner of a gate definition. -/
structure HookPorts where
  env : String → Option String
  evaluate : String → HookEvent → Except String Bool
  build : String → GateDefinition → GateRunner

structure HookEngine where
  settings : HookSettings
  bindings : Record HookPoint (List HookBindingEntry)
  scheduler : PriorityGateScheduler

def defaultPriority : YamlNumber := .ofNat 50

def toGateDefinition (config : GateConfig) : GateDefinition where
  type := config.type
  outputConfig := config.output.getD {}
  retryThreshold := config.retryThreshold.getD (.ofNat 3)
  timeout := config.timeout
  command := if config.type = .command then config.command else none
  model := if config.type = .prompt then config.model else none
  prompt := if config.type = .prompt then config.prompt else none
  http := if config.type = .http then config.http else none
  gates := if config.type = .composite then config.gates else none

namespace HookEngine

def create (config : HookConfig) (scheduler : PriorityGateScheduler) : HookEngine where
  settings := config.settings
  bindings := ofEntries config.hooks
  scheduler := scheduler.initialized {
    definitions := some (mapValues (fun _ gate => toGateDefinition gate) config.gates) }

def isEmergencySkipEnabled (env : String → Option String) (settings : HookSettings) : Bool :=
  if settings.emergencyEnvVar = "" then false
  else match env settings.emergencyEnvVar with
    | none => false
    | some value => ["1", "true", "yes", "on", "enabled"].contains value.toLower

def evaluateCondition (ports : HookPorts) (expression : Option String) (event : HookEvent) : Bool :=
  match expression with
  | none => true
  | some expression =>
      if expression = "" then true
      else match ports.evaluate expression event with
        | .ok holds => holds
        | .error _ => false

def toGateRequest (settings : HookSettings) (event : HookEvent) (entry : HookBindingEntry)
    (requestId : String) : GateRequest where
  gateId := entry.gate
  gatePoint := event.eventType.val
  requestId := requestId
  subjectId := event.subjectId
  priority := entry.priority.getD defaultPriority
  timeout := entry.timeout.getD settings.defaultTimeout
  payload := spread
    [("event_id", some (.string event.eventId)),
      ("event_type", some (.string event.eventType.val)),
      ("task_id", event.taskId.map .string), ("run_id", event.runId.map .string)]
    (mapValues (fun _ value => some value) event.payload)

structure Dispatch where
  entry : HookBindingEntry
  request : GateRequest

/-- The error handler of `executeGate`: a gate that fails decides what its binding says. -/
def caught (dispatch : Dispatch) : Except String GateResult → GateResult
  | .ok result => result
  | .error reason => {
      gateId := dispatch.request.gateId
      gatePoint := dispatch.request.gatePoint
      requestId := some dispatch.request.requestId
      subjectId := some dispatch.request.subjectId
      decision := dispatch.entry.onFailure.getD .allow
      reason := "Gate execution failed: " ++ reason }

def byPriority (left right : HookBindingEntry × Nat) : Bool :=
  !less (left.1.priority.getD defaultPriority) (right.1.priority.getD defaultPriority)

/-- `matchingEntries`, each with its place in the configuration. -/
def matchingEntries (ports : HookPorts) (event : HookEvent) (entries : List HookBindingEntry) :
    List (HookBindingEntry × Nat) :=
  (entries.zipIdx.filter fun entry =>
    evaluateCondition ports entry.1.condition event).insertionSort fun a b => byPriority a b

/-- The request of a binding; its id is the one created for the binding at this place. -/
def dispatchOf (settings : HookSettings) (requestId : Nat → String) (event : HookEvent)
    (entry : HookBindingEntry × Nat) : Dispatch where
  entry := entry.1
  request := toGateRequest settings event entry.1 (requestId entry.2)

/-- What a call of `handleEvent` waits for, or the result it returned. -/
inductive Progress where
  | sequential (results : List GateResult) (current : Dispatch) (ticket : Nat)
      (rest : List Dispatch)
  | parallel (waiting : List (Dispatch × Nat))
  | returned (result : HookResult)

structure Call where
  event : HookEvent
  gateRequests : List GateRequest
  progress : Progress

def unmatched (event : HookEvent) (matched : Bool) : Call where
  event := event
  gateRequests := []
  progress := .returned {
    hookPoint := event.eventType.val, matched := matched, finalDecision := .allow }

/-- The result once the gates have run; only without results the aggregator is not asked. -/
def concluded (event : HookEvent) (gateRequests : List GateRequest) (results : List GateResult) :
    HookResult where
  hookPoint := event.eventType.val
  matched := true
  gateRequests := gateRequests
  gateResults := results
  finalDecision :=
    match aggregate results with
    | .ok result => result.decision
    | .error _ => .allow

def insertAll (policy : Policy GateRequest (Except String GateResult)) (pool : GatePool) :
    List Dispatch → GatePool × List (Dispatch × Nat)
  | [] => (pool, [])
  | dispatch :: rest =>
      let inserted := insertAll policy (pool.submit policy dispatch.request) rest
      (inserted.1, (dispatch, pool.issued) :: inserted.2)

variable (ports : HookPorts) (engine : HookEngine)

def policy : Policy GateRequest (Except String GateResult) := engine.scheduler.policy ports.build

def dispatchGates (pool : GatePool) (event : HookEvent) (dispatches : List Dispatch) :
    GatePool × Call :=
  let gateRequests := dispatches.map Dispatch.request
  match dispatches with
  | [] => (pool, unmatched event true)
  | first :: rest =>
      if engine.settings.parallel then
        let inserted := insertAll (engine.policy ports) pool (first :: rest)
        (inserted.1, ⟨event, gateRequests, .parallel inserted.2⟩)
      else
        (pool.submit (engine.policy ports) first.request,
          ⟨event, gateRequests, .sequential [] first pool.issued rest⟩)

/-- `handleEvent` up to its first wait. -/
def handleEvent (requestId : Nat → String) (pool : GatePool) (event : HookEvent) :
    GatePool × Call :=
  if isEmergencySkipEnabled ports.env engine.settings then (pool, unmatched event false)
  else match get event.eventType engine.bindings with
    | none | some [] => (pool, unmatched event false)
    | some entries =>
        engine.dispatchGates ports pool event
          ((matchingEntries ports event entries).map (dispatchOf engine.settings requestId event))

/-- A call of `handleEvent` from one wait to the next. -/
def resume (pool : GatePool) (call : Call) : GatePool × Call :=
  match call.progress with
  | .returned _ => (pool, call)
  | .parallel waiting =>
      match waiting.mapM fun entry => (pool.settled entry.2).map (caught entry.1) with
      | none => (pool, call)
      | some results =>
          (pool, { call with
            progress := .returned (concluded call.event call.gateRequests results) })
  | .sequential results current ticket rest =>
      match pool.settled ticket with
      | none => (pool, call)
      | some outcome =>
          let results := results ++ [caught current outcome]
          if engine.settings.failFast ∧ (caught current outcome).decision = .deny then
            (pool, { call with
              progress := .returned (concluded call.event call.gateRequests results) })
          else match rest with
            | [] => (pool, { call with
                progress := .returned (concluded call.event call.gateRequests results) })
            | next :: rest => (pool.submit (engine.policy ports) next.request, { call with
                progress := .sequential results next pool.issued rest })

end HookEngine

/-! ## Engines at work -/

/-- An engine, with what it is given and the ids its requests get: those of a call by the place
of their binding. -/
structure HookSetup where
  ports : HookPorts
  config : HookConfig
  scheduler : PriorityGateScheduler := {}
  requestId : Nat → Nat → String

namespace HookSetup

open HookEngine

def engine (setup : HookSetup) : HookEngine := .create setup.config setup.scheduler

def policy (setup : HookSetup) : Policy GateRequest (Except String GateResult) :=
  setup.engine.policy setup.ports

/-- The requests that wait or are under way, and the events handled so far. -/
structure State where
  pool : GatePool
  calls : List Call

def initial : State where
  pool := .empty
  calls := []

/-- An event comes in, someone else hands in a request, a gate ends, or a call goes on. -/
inductive Label where
  | handle (event : HookEvent)
  | insert (request : GateRequest)
  | finish (ticket : Nat)
  | resume (call : Nat)

/-- The steps the engine makes by itself. -/
def Label.Internal : Label → Prop
  | .finish _ | .resume _ => True
  | .handle _ | .insert _ => False

def next (setup : HookSetup) (s : State) : Label → State
  | .handle event =>
      let handled :=
        setup.engine.handleEvent setup.ports (setup.requestId s.calls.length) s.pool event
      { pool := handled.1, calls := s.calls ++ [handled.2] }
  | .insert request => { s with pool := s.pool.submit setup.policy request }
  | .finish ticket => { s with pool := s.pool.finish setup.policy ticket }
  | .resume i =>
      match s.calls[i]? with
      | none => s
      | some call =>
          let resumed := setup.engine.resume setup.ports s.pool call
          { pool := resumed.1, calls := s.calls.set i resumed.2 }

/-- The state after some steps, from an engine that was just made. -/
def run (setup : HookSetup) (labels : List Label) : State := labels.foldl setup.next initial

end HookSetup

end Newide.Hook
