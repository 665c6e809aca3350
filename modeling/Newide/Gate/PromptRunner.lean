import Newide.Foundation.Fallible
import Newide.Foundation.Retries
import Newide.Gate.Runner

/-!
# Prompt gates

`PromptRunner.run` of `src/gate/prompt-runner.ts`, over what the model
replies to one call after the other.  The messages of the calls are left
out, as replies are arbitrary; `JSON.parse` is a parameter.
-/

namespace Newide.Gate

open Hook Fallible Retries Record

/-! ## Reading a reply -/

structure GateDecisionOutput where
  decision : GateDecision
  reason : String
  requiredActions : Option (List String) := none

/-- `text.lastIndexOf(part)`. -/
def lastIndexOf (part text : List Char) : Option Nat :=
  (List.range (text.length + 1)).reverse.find? fun index => part.isPrefixOf (text.drop index)

def fence : List Char := "```".toList

/-- The reply without the fences of a code block. -/
def stripFences (raw : List Char) : List Char :=
  let cleaned := trim raw
  if fence.isPrefixOf cleaned then
    let content := match cleaned.idxOf? '\n' with
      | some index => cleaned.drop (index + 1)
      | none => cleaned
    trim (match lastIndexOf fence content with
      | some close => content.take close
      | none => content)
  else cleaned

/-- The text from the first opening brace to the last closing one. -/
def betweenBraces (text : List Char) : Option (List Char) :=
  let opened := text.dropWhile fun c => c ≠ '\x7b'
  let closed := (opened.reverse.dropWhile fun c => c ≠ '\x7d').reverse
  if closed = [] then none else some closed

def parseReply (parse : String → Except String Yaml) (raw : String) : Except String Yaml :=
  let cleaned := stripFences raw.toList
  match parse (String.ofList cleaned) with
  | .ok value => .ok value
  | .error _ =>
      match betweenBraces cleaned with
      | some found => parse (String.ofList found)
      | none => .error "Response is not valid JSON"

/-- The fields of a reply that is an object; an array has none of them. -/
def replyFields (lower : String → String) (obj : Yaml) : Except String GateDecisionOutput :=
  match obj.get "decision" with
  | some (.string named) =>
      (orThrow (decisionNamed (lower named)) ("Invalid decision \"" ++ named ++
        "\". Must be one of: allow, deny, ask, defer.")).map fun decision =>
          { decision
            reason := match obj.get "reason" with
              | some (.string reason) => reason
              | _ => "No reason provided."
            requiredActions := match obj.get "required_actions" with
              | some (.array items) => some (items.filterMap fun
                  | .string action => some action
                  | _ => none)
              | _ => none }
  | _ => .error "Response missing required field: decision"

def parseGateDecision (lower : String → String) (parse : String → Except String Yaml)
    (raw : String) : Except String GateDecisionOutput :=
  match parseReply parse raw with
  | .ok (.array items) => replyFields lower (.array items)
  | .ok (.object fields) => replyFields lower (.object fields)
  | .ok _ => .error "Response is not a JSON object"
  | .error message => .error message

/-! ## The run -/

/-- What a call of the model comes to: a reply, or an error such as `TIMEOUT`. -/
inductive Reply where
  | content (raw : String)
  | error (message : String)

/-- What the runner is given: texts, `JSON.parse`, and the client or what it fails with. -/
structure PromptPorts where
  texts : RunnerTexts
  parse : String → Except String Yaml
  client : Except String Unit

namespace PromptRunner

section

variable (ports : PromptPorts) (gateId : String) (definition : GateDefinition)
  (request : GateRequest)

def failed (message : String) : GateResult :=
  buildResult gateId request {
    decision := definition.onFail
    reason :=
      if message = "TIMEOUT" then "PromptRunner timed out after " ++
        ports.texts.inMs (definition.timeout.getD request.timeout) ++ "ms"
      else "PromptRunner LLM call failed: " ++ message
    requiredActions := ["inspect-prompt-logs"] }

def decided (output : GateDecisionOutput) : GateResult :=
  buildResult gateId request {
    -- no decision has the name of something that objects inherit
    decision := (mapSeverity ports.texts.lower output.decision.text definition.outputConfig).getD
      .allow
    reason := output.reason
    requiredActions := output.requiredActions.getD [] }

/-- One turn of the loop: a result, or the last parse error for the next one. -/
def attempt (_ : Nat) (_ : Option String) : Reply → GateResult ⊕ Option String
  | .error message => .inl (failed ports gateId definition request message)
  | .content raw =>
      match parseGateDecision ports.texts.lower ports.parse raw with
      | .ok output => .inl (decided ports gateId definition request output)
      | .error message => .inr (some message)

/-- What is left when all parse retries are exhausted. -/
def exhausted (lastParseError : Option String) : GateResult :=
  buildResult gateId request {
    decision := .deny
    reason := "PromptRunner failed to parse LLM response after " ++
      ports.texts.next definition.retryThreshold ++ " attempt(s). Last error: " ++
      lastParseError.getD "null"
    requiredActions := ["inspect-prompt-logs"] }

def policy : Retries.Policy Reply GateResult (Option String) where
  allowed n := decide (definition.retryThreshold.AtLeast n)
  attempt := attempt ports gateId definition request
  giveUp := exhausted ports gateId definition request

/-- `run` on a model that gives these replies: how many calls are made, and the result. -/
def Runs (replies : Nat → Reply) (asked : Nat) (result : GateResult) : Prop :=
  if definition.prompt.getD "" = "" then
    asked = 0 ∧ result = buildResult gateId request {
      decision := .deny
      reason := "PromptRunner failed: No prompt specified in gate definition."
      requiredActions := ["fix-gate-config"] }
  else match ports.client with
    | .error message => asked = 0 ∧ result = failed ports gateId definition request message
    | .ok _ => Ends (policy ports gateId definition request) replies none asked result

end

/-! ## The reply that decides -/

section

variable {ports : PromptPorts} {gateId : String} {definition : GateDefinition}
  {request : GateRequest} {replies : Nat → Reply} {n : Nat}

def Unparsed (ports : PromptPorts) : Reply → Prop
  | .content raw => ∃ message, parseGateDecision ports.texts.lower ports.parse raw = .error message
  | .error _ => False

/-- Call `n` is the first one whose reply is an error or can be parsed. -/
structure Deciding (ports : PromptPorts) (budget : YamlNumber) (replies : Nat → Reply) (n : Nat) :
    Prop where
  allowed : budget.AtLeast n
  before : ∀ i < n, Unparsed ports (replies i)
  parsed : ¬ Unparsed ports (replies n)

/-- The entry that the severity map has for a decision, or the decision itself. -/
def mapped (config : GateOutputConfig) (decision : GateDecision) : GateDecision :=
  (config.severityMap.bind (get decision.text)).getD decision

def intended (ports : PromptPorts) (definition : GateDefinition) : Reply → GateDecision
  | .error _ => definition.onFail
  | .content raw =>
      match parseGateDecision ports.texts.lower ports.parse raw with
      | .ok output => mapped definition.outputConfig output.decision
      | .error _ => .deny

/-- A run asks within its budget and decides as the first reply that can be parsed does. -/
def Conforms (ports : PromptPorts) (gateId : String) (definition : GateDefinition)
    (request : GateRequest) (replies : Nat → Reply) : Prop :=
  match ports.client with
  | .error _ => ∃ result, Runs ports gateId definition request replies 0 result ∧
      result.decision = definition.onFail
  | .ok _ => ∃ asked result, Runs ports gateId definition request replies asked result ∧
      (∀ i < asked, definition.retryThreshold.AtLeast i) ∧
      ((∃ n, Deciding ports definition.retryThreshold replies n ∧ asked = n + 1 ∧
          result.decision = intended ports definition (replies n)) ∨
        ((∀ n, ¬ Deciding ports definition.retryThreshold replies n) ∧ result.decision = .deny))

/-- The decision means the same to the table of severities, or is `allow`. -/
def Mapped (config : GateOutputConfig) (decision : GateDecision) : Prop :=
  decision = .allow ∨ (config.severityMap.bind (get decision.text)).isSome

/-- The reply that decides, if it is parsed, has a decision with an entry in the severity map or
is `allow`; and there is such a reply, or an end of the budget. -/
def Answerable (ports : PromptPorts) (definition : GateDefinition) (replies : Nat → Reply) : Prop :=
  (∀ n raw output, Deciding ports definition.retryThreshold replies n → replies n = .content raw →
    parseGateDecision ports.texts.lower ports.parse raw = .ok output →
      Mapped definition.outputConfig output.decision) ∧
  ((∃ n, Deciding ports definition.retryThreshold replies n) ∨
    ∃ bound : Nat, ¬ definition.retryThreshold.AtLeast bound)

theorem Deciding.unique {m : Nat} {budget : YamlNumber} (h : Deciding ports budget replies n)
    (h' : Deciding ports budget replies m) : n = m := by
  rcases lt_trichotomy n m with hlt | heq | hgt
  · exact absurd (h'.before n hlt) h.parsed
  · exact heq
  · exact absurd (h.before m hgt) h'.parsed

/-- The names of the decisions are lower case. -/
def KeepsDecisions (lower : String → String) : Prop :=
  ∀ decision : GateDecision, lower decision.text = decision.text

theorem mapSeverity_text (hlower : KeepsDecisions ports.texts.lower) (config : GateOutputConfig)
    (decision : GateDecision) : mapSeverity ports.texts.lower decision.text config =
      some ((config.severityMap.bind (get decision.text)).getD .allow) := by
  have hown : decision.text ∉ inheritedNames := by cases decision <;> decide
  have hdefault : get decision.text severityDefaults = none := by cases decision <;> decide
  unfold mapSeverity lookUp
  rw [hlower, hdefault, if_neg hown]
  cases config.severityMap with
  | none => rfl
  | some table =>
      dsimp only [Option.bind_some]
      cases get decision.text table <;> rfl

theorem decided_eq_iff (hlower : KeepsDecisions ports.texts.lower) (output : GateDecisionOutput) :
    (decided ports gateId definition request output).decision =
        mapped definition.outputConfig output.decision ↔
      Mapped definition.outputConfig output.decision := by
  change (mapSeverity ports.texts.lower output.decision.text definition.outputConfig).getD .allow =
    _ ↔ _
  rw [mapSeverity_text hlower]
  unfold mapped Mapped
  cases definition.outputConfig.severityMap.bind (get output.decision.text) with
  | some decision => exact ⟨fun _ => .inr rfl, fun _ => rfl⟩
  | none =>
      refine ⟨fun h => .inl h.symm, fun h => ?_⟩
      rcases h with h | h
      · exact h.symm
      · cases h

/-! ## Runs -/

theorem before_of_reaches {note : Option String}
    (h : Reaches (policy ports gateId definition request) replies none n note) :
    ∀ i < n, Unparsed ports (replies i) := by
  induction h with
  | zero => exact fun i hi => absurd hi (Nat.not_lt_zero i)
  | @succ n note next _ _ hattempt ih =>
      intro i hi
      rcases Nat.lt_succ_iff_lt_or_eq.mp hi with hlt | rfl
      · exact ih i hlt
      · change attempt ports gateId definition request i note (replies i) = .inr next at hattempt
        cases hreply : replies i with
        | error message =>
            rw [hreply] at hattempt
            cases hattempt
        | content raw =>
            rw [hreply] at hattempt
            dsimp only [attempt] at hattempt
            cases hparse : parseGateDecision ports.texts.lower ports.parse raw with
            | ok output =>
                rw [hparse] at hattempt
                cases hattempt
            | error message => exact ⟨message, hparse⟩

theorem attempt_of_unparsed {reply : Reply} (h : Unparsed ports reply) (note : Option String) :
    ∃ next, attempt ports gateId definition request n note reply = .inr next := by
  cases reply with
  | error message => cases h
  | content raw =>
      obtain ⟨message, hparse⟩ := h
      refine ⟨some message, ?_⟩
      dsimp only [attempt]
      rw [hparse]

theorem reaches_of_before (hallowed : ∀ i < n, definition.retryThreshold.AtLeast i)
    (hbefore : ∀ i < n, Unparsed ports (replies i)) :
    ∃ note, Reaches (policy ports gateId definition request) replies none n note := by
  induction n with
  | zero => exact ⟨none, .zero⟩
  | succ n ih =>
      obtain ⟨note, hreach⟩ := ih (fun i hi => hallowed i (Nat.lt_succ_of_lt hi))
        fun i hi => hbefore i (Nat.lt_succ_of_lt hi)
      obtain ⟨next, hnext⟩ := @attempt_of_unparsed ports gateId definition request n _
        (hbefore n n.lt_succ_self) note
      exact ⟨next, hreach.succ (decide_eq_true (hallowed n n.lt_succ_self)) hnext⟩

def decidedReply (ports : PromptPorts) (gateId : String) (definition : GateDefinition)
    (request : GateRequest) : Reply → GateResult
  | .error message => failed ports gateId definition request message
  | .content raw =>
      match parseGateDecision ports.texts.lower ports.parse raw with
      | .ok output => decided ports gateId definition request output
      | .error message => exhausted ports gateId definition request (some message)

theorem attempt_of_parsed {reply : Reply} (h : ¬ Unparsed ports reply) (n : Nat)
    (note : Option String) :
    attempt ports gateId definition request n note reply =
      .inl (decidedReply ports gateId definition request reply) := by
  cases reply with
  | error message => rfl
  | content raw =>
      dsimp only [attempt, decidedReply]
      cases hparse : parseGateDecision ports.texts.lower ports.parse raw with
      | ok output => rfl
      | error message => exact absurd ⟨message, hparse⟩ h

theorem Deciding.ends (h : Deciding ports definition.retryThreshold replies n) :
    Ends (policy ports gateId definition request) replies none (n + 1)
      (decidedReply ports gateId definition request (replies n)) := by
  obtain ⟨note, hreach⟩ := @reaches_of_before ports gateId definition request replies n
    (fun i hi => attempt_mono (Nat.le_of_lt hi) h.allowed) h.before
  exact hreach.ends_inl (decide_eq_true h.allowed) (attempt_of_parsed h.parsed n note)

theorem spent_of_ends {asked : Nat} {result : GateResult}
    (hnone : ∀ n, ¬ Deciding ports definition.retryThreshold replies n)
    (h : Ends (policy ports gateId definition request) replies none asked result) :
    (∀ i < asked, definition.retryThreshold.AtLeast i) ∧
      ¬ definition.retryThreshold.AtLeast asked ∧ result.decision = .deny := by
  obtain ⟨last, note, hreach, ⟨hallowed, hattempt, rfl⟩ | ⟨hspent, rfl, rfl⟩⟩ := h.reached
  · refine absurd ⟨of_decide_eq_true hallowed, before_of_reaches hreach, fun hunparsed => ?_⟩
      (hnone last)
    obtain ⟨next, hnext⟩ := @attempt_of_unparsed ports gateId definition request last _ hunparsed
      note
    cases hattempt.symm.trans hnext
  · exact ⟨fun i hi => of_decide_eq_true (hreach.allowed hi), of_decide_eq_false hspent, rfl⟩

end

/-- A prompt gate keeps to its budget and decides as the model does exactly when the decision of
the model has an entry in the severity map or is `allow`. -/
theorem prompt_gate_conforms_iff (ports : PromptPorts) (gateId : String)
    (definition : GateDefinition) (request : GateRequest) (replies : Nat → Reply)
    (hlower : KeepsDecisions ports.texts.lower) (hprompt : definition.prompt.getD "" ≠ "") :
    Conforms ports gateId definition request replies ↔
      (ports.client = .ok () → Answerable ports definition replies) := by
  unfold Conforms
  cases hclient : ports.client with
  | error message =>
      refine ⟨fun _ h => (by cases h), fun _ => ⟨failed ports gateId definition request message,
        ?_, rfl⟩⟩
      unfold Runs
      rw [if_neg hprompt, hclient]
      exact ⟨rfl, rfl⟩
  | ok _ =>
      have hruns : Runs ports gateId definition request replies =
          Ends (policy ports gateId definition request) replies none := by
        funext asked result
        unfold Runs
        rw [if_neg hprompt, hclient]
      dsimp only
      rw [hruns]
      constructor
      · rintro ⟨asked, result, hends, _, ⟨n, hdeciding, rfl, hdecision⟩ | ⟨hnone, _⟩⟩ _
        · refine ⟨fun m raw output hm hreply hparse => ?_, .inl ⟨n, hdeciding⟩⟩
          rw [(hends.unique hdeciding.ends).2, hdeciding.unique hm, hreply] at hdecision
          dsimp only [decidedReply, intended] at hdecision
          rw [hparse] at hdecision
          exact (decided_eq_iff hlower output).mp hdecision
        · exact ⟨fun m _ _ hm => absurd hm (hnone m), .inr ⟨asked, (spent_of_ends hnone hends).2.1⟩⟩
      · intro h
        obtain ⟨hmapped, hsome⟩ := h rfl
        by_cases hdecides : ∃ n, Deciding ports definition.retryThreshold replies n
        · obtain ⟨n, hdeciding⟩ := hdecides
          refine ⟨n + 1, _, hdeciding.ends, fun i hi => ?_, .inl ⟨n, hdeciding, rfl, ?_⟩⟩
          · exact attempt_mono (Nat.le_of_lt_succ hi) hdeciding.allowed
          · cases hreply : replies n with
            | error message => rfl
            | content raw =>
                have hparsed := hdeciding.parsed
                rw [hreply] at hparsed
                dsimp only [decidedReply, intended]
                cases hparse : parseGateDecision ports.texts.lower ports.parse raw with
                | error message => exact absurd ⟨message, hparse⟩ hparsed
                | ok output =>
                    exact (decided_eq_iff hlower output).mpr
                      (hmapped n raw output hdeciding hreply hparse)
        · have hnone : ∀ n, ¬ Deciding ports definition.retryThreshold replies n :=
            fun n hn => hdecides ⟨n, hn⟩
          obtain ⟨bound, hbound⟩ := hsome.resolve_left hdecides
          obtain ⟨asked, result, hends⟩ : ∃ asked result,
              Ends (policy ports gateId definition request) replies none asked result :=
            ends_of_bound (decide_eq_false hbound)
          obtain ⟨hallowed, _, hdeny⟩ := spent_of_ends hnone hends
          exact ⟨asked, result, hends, hallowed, .inr ⟨hnone, hdeny⟩⟩

/-- A gate that asks for a review, without a severity map. -/
def reviewGate : GateDefinition where
  type := .prompt
  outputConfig := {}
  retryThreshold := .ofNat 3
  prompt := some "No secrets in the diff."

def reviewRequest : GateRequest := ⟨"review", "pre_commit", "r1", "s1", .ofNat 50, .ofNat 30, []⟩

def refusal : String := "\x7b\"decision\":\"deny\"\x7d"

def approval : String := "\x7b\"decision\":\"allow\"\x7d"

def reviewPorts : PromptPorts where
  texts := ⟨id, fun _ => "4", fun _ => "30000"⟩
  parse text :=
    if text = refusal then .ok (.object [("decision", .string "deny")])
    else if text = approval then .ok (.object [("decision", .string "allow")])
    else .error "Unexpected token"
  client := .ok ()

theorem prompt_gate_conforms_approval :
    Conforms reviewPorts "review" reviewGate reviewRequest (fun _ => .content approval) ↔
      (reviewPorts.client = .ok () →
        Answerable reviewPorts reviewGate fun _ => .content approval) :=
  prompt_gate_conforms_iff reviewPorts "review" reviewGate reviewRequest _ (fun _ => rfl)
    (by decide)

/-- A model refuses, and the gate allows. -/
theorem prompt_gate_allows_refusal : ¬ ∀ (ports : PromptPorts) (gateId : String)
    (definition : GateDefinition) (request : GateRequest) (replies : Nat → Reply),
    KeepsDecisions ports.texts.lower → definition.prompt.getD "" ≠ "" →
      Conforms ports gateId definition request replies := by
  intro h
  obtain ⟨asked, result, hends, _, hdecided⟩ := h reviewPorts "review" reviewGate reviewRequest
    (fun _ => .content refusal) (fun _ => rfl) (by decide)
  have hallows : ∃ allowed, Ends (policy reviewPorts "review" reviewGate reviewRequest)
      (fun _ => .content refusal) none 1 allowed ∧ allowed.decision = .allow :=
    ⟨decidedReply reviewPorts "review" reviewGate reviewRequest (.content refusal), ⟨1, by
      decide +kernel⟩, by decide +kernel⟩
  obtain ⟨allowed, hallowed, hallow⟩ := hallows
  have hresult : result.decision = .allow := by
    rw [(hends.unique hallowed).2, hallow]
  have hintended : intended reviewPorts reviewGate (.content refusal) = .deny := by
    decide +kernel
  rcases hdecided with ⟨n, _, _, hdecision⟩ | ⟨_, hdeny⟩
  · cases hresult.symm.trans (hdecision.trans hintended)
  · cases hresult.symm.trans hdeny

end PromptRunner

end Newide.Gate
