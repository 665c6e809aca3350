import Newide.Foundation.Fallible

/-!
# Shared contracts

The vocabulary of `src/core`: JSON payloads, task statuses, task
requests, events, and the errors the coordination code throws.
Identifiers and ISO-8601 timestamps are strings, compared by code
point as SQLite's `BINARY` collation does.  The constant
`schema_version` of every record is left out.
-/

namespace Newide

abbrev Timestamp := String

/-! ## JSON payloads -/

/-- A JSON value.  No payload reader looks inside a fractional number, so
numbers are integers. -/
inductive Json where
  | null
  | bool (value : Bool)
  | num (value : Int)
  | str (value : String)
  | arr (items : List Json)
  | obj (fields : List (String × Json))
deriving Inhabited

/-- A `Record<string, unknown>` in the order of its keys. -/
abbrev Payload := List (String × Json)

namespace Payload

/-- `payload[key]`. -/
def get? (payload : Payload) (key : String) : Option Json :=
  (payload.find? fun field => field.1 = key).map (·.2)

/-- `{ ...payload, ...extra }`: a key of `extra` wins over one of `payload`. -/
def spread (payload extra : Payload) : Payload :=
  (payload.filter fun field => ¬ extra.any fun e => e.1 = field.1) ++ extra

end Payload

/-- `value` when it is a non-empty string, the check behind `stringValue` and
`readPayloadString`. -/
def Json.nonEmptyString? : Json → Option String
  | .str value => if value = "" then none else some value
  | _ => none

/-- A `string | null` field. -/
def Json.nullable : Option String → Json
  | some value => .str value
  | none => .null

def Json.string? : Json → Option String
  | .str value => some value
  | _ => none

/-- `readPayloadString`: a non-empty string stored under `key`. -/
def readPayloadString (payload : Payload) (key : String) : Option String :=
  (payload.get? key).bind Json.nonEmptyString?

/-- `readPayloadStringArray`: the strings of the array stored under `key`. -/
def readPayloadStringArray (payload : Payload) (key : String) : List String :=
  match payload.get? key with
  | some (.arr items) => items.filterMap Json.string?
  | _ => []

/-- `[...new Set([...current, ...additions])]`. -/
def appendUnique (current additions : List String) : List String :=
  (current ++ additions).foldl (fun seen x => if x ∈ seen then seen else seen ++ [x]) []

/-- `value ? { field: value } : {}` for an optional string: the empty string
counts as absent. -/
def truthy (value : Option String) : Option String :=
  value.filter fun s => s ≠ ""

theorem truthy_eq_some {value : Option String} {s : String} :
    truthy value = some s ↔ value = some s ∧ s ≠ "" := by
  simp [truthy, Option.filter_eq_some_iff]

@[simp] theorem truthy_none : truthy none = none := rfl

theorem truthy_of_ne {s : String} (h : s ≠ "") : truthy (some s) = some s :=
  truthy_eq_some.mpr ⟨rfl, h⟩

theorem truthy_ne (value : Option String) : truthy value ≠ some "" :=
  fun he => (truthy_eq_some.mp he).2 rfl

@[simp] theorem truthy_truthy (value : Option String) : truthy (truthy value) = truthy value := by
  simp [truthy, Option.filter_filter]

/-- `text.startsWith(pre)`. -/
def hasPrefix (text pre : String) : Bool :=
  pre.toList.isPrefixOf text.toList

/-- `/^[a-f0-9]{64}$/`. -/
def isSha256 (text : String) : Bool :=
  text.toList.length = 64 ∧
    text.toList.all fun c => ('a' ≤ c ∧ c ≤ 'f') ∨ ('0' ≤ c ∧ c ≤ '9')

/-! ## Tasks -/

/-- `TASK_STATUSES`. -/
inductive TaskStatus where
  | created | triaged | ready | claimed | running | waitingHelp | waitingInput | pendingGate
  | pendingCouncil | reviewing | blocked | escalated | merging | completed | failed | cancelled
deriving DecidableEq, Inhabited

def TaskStatus.text : TaskStatus → String
  | .created => "created"
  | .triaged => "triaged"
  | .ready => "ready"
  | .claimed => "claimed"
  | .running => "running"
  | .waitingHelp => "waiting_help"
  | .waitingInput => "waiting_input"
  | .pendingGate => "pending_gate"
  | .pendingCouncil => "pending_council"
  | .reviewing => "reviewing"
  | .blocked => "blocked"
  | .escalated => "escalated"
  | .merging => "merging"
  | .completed => "completed"
  | .failed => "failed"
  | .cancelled => "cancelled"

inductive RiskLevel where
  | low | medium | high | critical
deriving DecidableEq, Inhabited

def RiskLevel.text : RiskLevel → String
  | .low => "low"
  | .medium => "medium"
  | .high => "high"
  | .critical => "critical"

/-- The budget object with its keys in order: two budgets are compared by their
JSON text. -/
abbrev TaskBudget := List (String × Int)

structure TaskCreateRequest where
  spec : String
  roleId : Option String := none
  parentTaskId : Option String := none
  riskLevel : Option RiskLevel := none
  affectedPaths : Option (List String) := none
  completionCriteria : List String
  budget : Option TaskBudget := none
  allowAgentCouncil : Bool := false

/-! ## Events -/

structure Event where
  eventId : String
  eventType : String
  subjectId : String
  runId : Option String
  taskId : Option String
  payload : Payload
  createdAt : Timestamp
deriving Inhabited

/-! ## Errors -/

/-- What the coordination code throws.  Plain `Error`s carry their message; the
named error classes carry the fields their handlers look at. -/
inductive Thrown where
  | error (message : String)
  | taskNotFound (taskId : String)
  | runNotFound (runId : String)
  | eventCursorNotFound (taskId eventId : String)
  | stageCommit (operation : String) (originalError : Thrown)
  | resumePackage (message : String)
  /-- A zod schema refused the value at `path`. -/
  | schema (path : String)
deriving DecidableEq

/-- `error.message`. -/
def Thrown.message : Thrown → String
  | .error message => message
  | .taskNotFound taskId => "Task " ++ taskId ++ " was not found in the coordination store"
  | .runNotFound runId => "Run " ++ runId ++ " was not found in the coordination store"
  | .eventCursorNotFound taskId eventId =>
      "Task " ++ taskId ++ " event cursor " ++ eventId ++ " was not found"
  | .stageCommit operation originalError =>
      "Task coordination commit failed during " ++ operation ++ ": " ++ originalError.message
  | .resumePackage message => message
  | .schema path => "invalid value at " ++ path

/-- `/\brevision conflict\b/i` on a message, word boundaries included. -/
def mentionsRevisionConflict (message : String) : Bool :=
  let isWord (c : Char) : Bool := c.isAlphanum || c = '_'
  let phrase := "revision conflict".toList
  let rec scan (prev : Option Char) : List Char → Bool
    | [] => false
    | c :: rest =>
        let text := c :: rest
        let startsHere := phrase.isPrefixOf (text.map Char.toLower)
        let before := prev.all fun p => ¬ isWord p
        let after := (text.drop phrase.length).head?.all fun n => ¬ isWord n
        (startsHere && before && after) || scan (some c) rest
  scan none message.toList

def isRevisionConflict (error : Thrown) : Bool :=
  mentionsRevisionConflict error.message

example : isRevisionConflict (.error "Task t1 revision conflict: expected 1, current 2") = true := by
  decide

end Newide
