import Newide.Foundation.Retries
import Newide.Gate.Runner

/-!
# HTTP gates

`HttpRunner.run` of `src/gate/http-runner.ts`, over what the endpoint gives
to one request after the other.  The delays between the requests are left
out; the parts of a body that need not be texts are read as texts.
-/

namespace Newide.Gate

open Hook Retries

/-! ## What a request meets -/

structure HttpError where
  name : String
  message : String

structure HttpResponse where
  status : Nat
  contentType : String := ""
  /-- What `response.json()` gives, if it does not throw. -/
  body : Option Yaml := none

inductive HttpOutcome where
  | response (response : HttpResponse)
  | error (error : HttpError)

/-- `response.ok`. -/
def HttpResponse.ok (response : HttpResponse) : Bool :=
  decide (200 ≤ response.status ∧ response.status < 300)

def isRetryableError (lower : String → String) (error : HttpError) : Bool :=
  error.name = "AbortError" ||
    let msg := lower error.message
    includes msg "fetch failed" || includes msg "econnrefused" || includes msg "etimedout" ||
      includes msg "enotfound" || includes msg "econnreset" || includes msg "network" ||
      includes msg "socket"

def bodyDecision (body : Yaml) : Option GateDecision :=
  match body.get "decision" with
  | some (.string raw) => decisionNamed raw
  | _ => none

/-- `parseDecision`. -/
def parseHttpDecision (body : Yaml) (status : Nat) : GateDecision :=
  match bodyDecision body with
  | some decision => decision
  | none =>
      if 200 ≤ status ∧ status < 300 then .allow
      else if 400 ≤ status ∧ status < 500 then .deny
      else .defer

def textsOf : Option Yaml → List String
  | none | some .null => []
  | some (.array items) => items.map Yaml.display
  | some value => [value.display]

/-- The body of a response, if it is JSON with fields to read: `null` has none. -/
def HttpResponse.json (response : HttpResponse) : Option Yaml :=
  if includes response.contentType "application/json" then
    match response.body with
    | some .null => none
    | body => body
  else none

def bodyVerdict (body : Yaml) (status : Nat) : Verdict :=
  let decision := parseHttpDecision body status
  { decision
    reason := match body.get "reason" with
      | none | some .null => "HTTP " ++ toString status ++ ": " ++ decision.text
      | some value => value.display
    requiredActions := textsOf (body.get "required_actions")
    targetState := match body.get "target_state" with
      | some (.string state) => state
      | _ => "" }

variable {note : Option HttpError} {outcome : HttpOutcome} {result : GateResult}

namespace HttpRunner

section

variable (texts : RunnerTexts) (gateId : String) (definition : GateDefinition)
  (request : GateRequest)

/-- One turn of the loop: a result, or the last error for the next one. -/
def attempt (attempt : Nat) (lastError : Option HttpError) :
    HttpOutcome → GateResult ⊕ Option HttpError
  | .response response =>
      match response.json with
      | some body => .inl (buildResult gateId request (bodyVerdict body response.status))
      | none =>
          if response.ok then
            .inl (buildResult gateId request {
              decision := .allow
              reason := "HTTP " ++ toString response.status ++ ": Request succeeded." })
          else if 500 ≤ response.status ∧ definition.retryThreshold.Above attempt then
            .inr lastError
          else
            .inl (buildResult gateId request {
              decision := definition.onFail
              reason := "HTTP " ++ toString response.status ++ ": Request failed."
              requiredActions := ["inspect-http-response"] })
  | .error error =>
      if definition.retryThreshold.Above attempt ∧ isRetryableError texts.lower error = true then
        .inr (some error)
      else
        -- nothing leaves the loop here, so the next turn follows without a delay
        .inr (some error)

/-- What is left when all attempts are exhausted. -/
def exhausted (lastError : Option HttpError) : GateResult :=
  let timeout := texts.inMs (definition.timeout.getD request.timeout)
  let errorMessage := match lastError with
    | some error =>
        if error.name = "AbortError" then "HttpRunner timed out after " ++ timeout ++ "ms"
        else error.message
    | none => "Unknown error"
  buildResult gateId request {
    decision := definition.onFail
    reason := "HttpRunner failed after " ++ texts.next definition.retryThreshold ++
      " attempt(s): " ++ errorMessage
    requiredActions := ["inspect-http-logs"] }

def policy : Retries.Policy HttpOutcome GateResult (Option HttpError) where
  allowed n := decide (definition.retryThreshold.AtLeast n)
  attempt := attempt texts gateId definition request
  giveUp := exhausted texts gateId definition request

/-- `run` on an endpoint that gives these outcomes: how many requests are sent, and the result. -/
def Runs (outcomes : Nat → HttpOutcome) (sent : Nat) (result : GateResult) : Prop :=
  if definition.http.getD "" = "" then
    sent = 0 ∧ result = buildResult gateId request {
      decision := .deny
      reason := "HttpRunner failed: No URL specified in definition (set `http` or `input`)." }
  else Ends (policy texts gateId definition request) outcomes none sent result

end

/-! ## The last request -/

/-- Request `n` is the last one: those before met something transient, and either it did not or
the budget has no other. -/
structure LastRequest (budget : YamlNumber) (transient : HttpOutcome → Prop)
    (outcomes : Nat → HttpOutcome) (n : Nat) : Prop where
  allowed : budget.AtLeast n
  before : ∀ i < n, transient (outcomes i)
  stops : transient (outcomes n) → ¬ budget.AtLeast (n + 1 : Nat)

/-- A failure of the server without a JSON body, or an error worth retrying. -/
def Transient (lower : String → String) : HttpOutcome → Prop
  | .response response => response.json = none ∧ response.ok = false ∧ 500 ≤ response.status
  | .error error => isRetryableError lower error = true

def decidedBy (onFail : GateDecision) : HttpOutcome → GateDecision
  | .response response =>
      match response.json with
      | some body => parseHttpDecision body response.status
      | none => if response.ok then .allow else onFail
  | .error _ => onFail

section

variable {texts : RunnerTexts} {gateId : String} {definition : GateDefinition}
  {request : GateRequest} {outcomes : Nat → HttpOutcome} {n : Nat} {lastError : Option HttpError}

theorem attempt_inl (h : attempt texts gateId definition request n lastError outcome = .inl result) :
    
    result.decision = decidedBy definition.onFail outcome ∧
      (Transient texts.lower outcome → ¬ definition.retryThreshold.Above n) := by
  cases outcome with
  | error error =>
      dsimp only [attempt] at h
      split at h <;> cases h
  | response response =>
      dsimp only [attempt] at h
      cases hjson : response.json with
      | some body =>
          rw [hjson] at h
          rw [← Sum.inl.inj h]
          refine ⟨?_, fun htransient => ?_⟩
          · dsimp only [decidedBy]
            rw [hjson]
            rfl
          · cases hjson.symm.trans htransient.1
      | none =>
          rw [hjson] at h
          dsimp only at h
          dsimp only [decidedBy]
          rw [hjson]
          by_cases hok : response.ok = true
          · rw [if_pos hok] at h ⊢
            rw [← Sum.inl.inj h]
            refine ⟨rfl, fun htransient => ?_⟩
            cases hok.symm.trans htransient.2.1
          · rw [if_neg hok] at h ⊢
            by_cases hretry : 500 ≤ response.status ∧ definition.retryThreshold.Above n
            · rw [if_pos hretry] at h
              cases h
            · rw [if_neg hretry] at h
              rw [← Sum.inl.inj h]
              exact ⟨rfl, fun htransient habove => hretry ⟨htransient.2.2, habove⟩⟩

theorem attempt_inr (h : attempt texts gateId definition request n lastError outcome = .inr note) :
    decidedBy definition.onFail outcome = definition.onFail ∧
      (Transient texts.lower outcome ∨
        ∃ error, outcome = .error error ∧ isRetryableError texts.lower error = false) := by
  cases outcome with
  | error error =>
      refine ⟨rfl, ?_⟩
      cases hretryable : isRetryableError texts.lower error with
      | true => exact .inl hretryable
      | false => exact .inr ⟨error, rfl, hretryable⟩
  | response response =>
      dsimp only [attempt] at h
      cases hjson : response.json with
      | some body =>
          rw [hjson] at h
          cases h
      | none =>
          rw [hjson] at h
          dsimp only at h
          dsimp only [decidedBy]
          rw [hjson]
          by_cases hok : response.ok = true
          · rw [if_pos hok] at h
            cases h
          · rw [if_neg hok] at h ⊢
            by_cases hretry : 500 ≤ response.status ∧ definition.retryThreshold.Above n
            · exact ⟨rfl, .inl ⟨hjson, Bool.eq_false_of_not_eq_true hok, hretry.1⟩⟩
            · rw [if_neg hretry] at h
              cases h

theorem attempt_of_transient (htransient : Transient texts.lower outcome)
    (habove : definition.retryThreshold.Above n) (lastError : Option HttpError) :
    ∃ note, attempt texts gateId definition request n lastError outcome = .inr note := by
  cases hattempt : attempt texts gateId definition request n lastError outcome with
  | inl result => exact absurd habove ((attempt_inl hattempt).2 htransient)
  | inr note => exact ⟨note, rfl⟩

/-- No error that is rejected comes while the budget has another request. -/
def NoRejectedError (lower : String → String) (budget : YamlNumber)
    (outcomes : Nat → HttpOutcome) : Prop :=
  ∀ n error, LastRequest budget (Transient lower) outcomes n → outcomes n = .error error →
    isRetryableError lower error = false → ¬ budget.AtLeast (n + 1 : Nat)

variable (hrejected : NoRejectedError texts.lower definition.retryThreshold outcomes)

include hrejected in
theorem transient_of_inr (hmore : definition.retryThreshold.AtLeast (n + 1 : Nat))
    (hbefore : ∀ i < n, Transient texts.lower (outcomes i))
    (h : attempt texts gateId definition request n lastError (outcomes n) = .inr note) :
    Transient texts.lower (outcomes n) := by
  rcases (attempt_inr h).2 with htransient | ⟨error, houtcome, hnot⟩
  · exact htransient
  · have hlast : LastRequest definition.retryThreshold (Transient texts.lower) outcomes n :=
      ⟨attempt_mono n.le_succ hmore, hbefore, fun htransient => by
        rw [houtcome] at htransient
        cases hnot.symm.trans htransient⟩
    exact absurd hmore (hrejected n error hlast houtcome hnot)

theorem before_of_reaches
    (hrejected : NoRejectedError texts.lower definition.retryThreshold outcomes)
    (h : Reaches (policy texts gateId definition request) outcomes none n note)
    (hallowed : definition.retryThreshold.AtLeast n) :
    ∀ i < n, Transient texts.lower (outcomes i) := by
  induction h with
  | zero => exact fun i hi => absurd hi (Nat.not_lt_zero i)
  | @succ n _ _ _ _ hattempt ih =>
      have hbefore := ih (attempt_mono n.le_succ hallowed)
      intro i hi
      rcases Nat.lt_succ_iff_lt_or_eq.mp hi with hlt | rfl
      · exact hbefore i hlt
      · exact transient_of_inr hrejected hallowed hbefore hattempt

theorem last_of_ends {sent : Nat}
    (hrejected : NoRejectedError texts.lower definition.retryThreshold outcomes)
    (hbudget : definition.retryThreshold.AtLeast (0 : Nat))
    (h : Ends (policy texts gateId definition request) outcomes none sent result) :
    ∃ n, LastRequest definition.retryThreshold (Transient texts.lower) outcomes n ∧
      sent = n + 1 ∧ result.decision = decidedBy definition.onFail (outcomes n) := by
  obtain ⟨n, note, hreach, ⟨hallowed, hattempt, rfl⟩ | ⟨hspent, rfl, rfl⟩⟩ := h.reached
  · have hallowed : definition.retryThreshold.AtLeast n := of_decide_eq_true hallowed
    obtain ⟨hdecision, hlast⟩ := attempt_inl hattempt
    refine ⟨n, ⟨hallowed, before_of_reaches hrejected hreach hallowed, ?_⟩, rfl, hdecision⟩
    exact fun htransient hmore => hlast htransient (attempt_above hmore)
  · have hspent : ¬ definition.retryThreshold.AtLeast sent := of_decide_eq_false hspent
    cases hreach with
    | zero => exact absurd hbudget hspent
    | @succ n _ _ hreach hallowed hattempt =>
        have hallowed : definition.retryThreshold.AtLeast n := of_decide_eq_true hallowed
        exact ⟨n, ⟨hallowed, before_of_reaches hrejected hreach hallowed, fun _ => hspent⟩, rfl,
          (attempt_inr hattempt).1.symm⟩

theorem LastRequest.reached
    (h : LastRequest definition.retryThreshold (Transient texts.lower) outcomes n) :
    ∀ i ≤ n, ∃ note, Reaches (policy texts gateId definition request) outcomes none i note := by
  intro i hi
  induction i with
  | zero => exact ⟨none, .zero⟩
  | succ i ih =>
      obtain ⟨note, hreach⟩ := ih (Nat.le_of_succ_le hi)
      have hmore : definition.retryThreshold.AtLeast (i + 1 : Nat) := attempt_mono hi h.allowed
      obtain ⟨next, hnext⟩ := @attempt_of_transient _ texts gateId definition request i
        (h.before i hi) (attempt_above hmore) note
      exact ⟨next, hreach.succ (decide_eq_true (attempt_mono i.le_succ hmore)) hnext⟩

theorem LastRequest.ends
    (hrejected : NoRejectedError texts.lower definition.retryThreshold outcomes)
    (h : LastRequest definition.retryThreshold (Transient texts.lower) outcomes n) :
    ∃ result, Ends (policy texts gateId definition request) outcomes none (n + 1) result := by
  obtain ⟨note, hreach⟩ := @LastRequest.reached texts gateId definition request outcomes n h n
    (Nat.le_refl n)
  have hallowed : (policy texts gateId definition request).allowed n = true :=
    decide_eq_true h.allowed
  cases hattempt : attempt texts gateId definition request n note (outcomes n) with
  | inl result => exact ⟨result, hreach.ends_inl hallowed hattempt⟩
  | inr next =>
      have hspent : ¬ definition.retryThreshold.AtLeast (n + 1 : Nat) := by
        intro hmore
        exact h.stops (transient_of_inr hrejected hmore h.before hattempt) hmore
      exact ⟨_, (hreach.succ hallowed hattempt).ends_giveUp (decide_eq_false hspent)⟩

end

/-- An HTTP gate sends requests up to the first one that meets nothing transient or that the budget
has no other for, and that one decides. -/
theorem http_gate_retries (texts : RunnerTexts) (gateId : String) (definition : GateDefinition)
    (request : GateRequest) (outcomes : Nat → HttpOutcome)
    (hurl : definition.http.getD "" ≠ "")
    (hrejected : NoRejectedError texts.lower definition.retryThreshold outcomes) :
    (∀ sent result, Runs texts gateId definition request outcomes sent result →
      if definition.retryThreshold.AtLeast (0 : Nat) then
        ∃ n, LastRequest definition.retryThreshold (Transient texts.lower) outcomes n ∧
          sent = n + 1 ∧ result.decision = decidedBy definition.onFail (outcomes n)
      else sent = 0 ∧ result.decision = definition.onFail) ∧
    (∀ n, LastRequest definition.retryThreshold (Transient texts.lower) outcomes n →
      ∃ result, Runs texts gateId definition request outcomes (n + 1) result) ∧
    ((∃ bound : Nat, ¬ definition.retryThreshold.AtLeast bound) →
      ∃ sent result, Runs texts gateId definition request outcomes sent result) := by
  have hruns : Runs texts gateId definition request outcomes =
      Ends (policy texts gateId definition request) outcomes none := by
    funext sent result
    unfold Runs
    rw [if_neg hurl]
  rw [hruns]
  refine ⟨fun sent result hends => ?_, fun n hlast => hlast.ends hrejected, ?_⟩
  · by_cases hbudget : definition.retryThreshold.AtLeast (0 : Nat)
    · rw [if_pos hbudget]
      exact last_of_ends hrejected hbudget hends
    · rw [if_neg hbudget]
      obtain ⟨n, note, hreach, ⟨hallowed, _, _⟩ | ⟨_, rfl, rfl⟩⟩ := hends.reached
      · exact absurd (attempt_mono n.zero_le (of_decide_eq_true hallowed)) hbudget
      · cases hreach with
        | zero => exact ⟨rfl, rfl⟩
        | succ _ hallowed _ =>
            exact absurd (attempt_mono (Nat.zero_le _) (of_decide_eq_true hallowed)) hbudget
  · rintro ⟨bound, hbound⟩
    exact ends_of_bound (decide_eq_false hbound)

def remoteGate : GateDefinition where
  type := .http
  outputConfig := {}
  retryThreshold := .ofNat 1
  http := some "http://localhost/gate"

def remoteRequest : GateRequest := ⟨"remote", "pre_commit", "r1", "s1", .ofNat 50, .ofNat 30, []⟩

def plainTexts : RunnerTexts := ⟨id, fun _ => "2", fun _ => "30000"⟩

theorem http_gate_retries_unavailable :
    ∃ n, LastRequest (.ofNat 1) (Transient id) (fun _ => .response { status := 503 }) n ∧
      2 = n + 1 ∧ GateDecision.deny = decidedBy .deny (.response { status := 503 }) := by
  have hrejected : NoRejectedError id remoteGate.retryThreshold
      fun _ => .response { status := 503 } := fun _ _ _ h => by cases h
  have hruns : ∃ result, Runs plainTexts "remote" remoteGate remoteRequest
      (fun _ => .response { status := 503 }) 2 result ∧ result.decision = .deny :=
    ⟨_, ⟨2, rfl⟩, rfl⟩
  obtain ⟨result, hruns, hdeny⟩ := hruns
  have h := (http_gate_retries plainTexts "remote" remoteGate remoteRequest
    (fun _ => .response { status := 503 }) (by decide) hrejected).1 2 result hruns
  rw [if_pos (by decide), hdeny] at h
  exact h

/-! ## Bodies without a decision -/

def bodyDecisionOf (response : HttpResponse) : Option GateDecision :=
  response.json.bind bodyDecision

/-- A failure of the server without a decision in its body, or an error worth retrying. -/
def Undecided (lower : String → String) : HttpOutcome → Prop
  | .response response =>
      bodyDecisionOf response = none ∧ response.ok = false ∧ 500 ≤ response.status
  | .error error => isRetryableError lower error = true

def decidedByBody (onFail : GateDecision) : HttpOutcome → GateDecision
  | .response response =>
      (bodyDecisionOf response).getD (if response.ok then .allow else onFail)
  | .error _ => onFail

def emptyBody : HttpResponse where
  status := 503
  contentType := "application/json"
  body := some (.object [])

def emptyBodyFirst (n : Nat) : HttpOutcome :=
  if n = 0 then .response emptyBody else .response { status := 200 }

/-- A JSON body without a decision ends the run, whatever the status. -/
theorem http_gate_stops_at_empty_body : ¬ ∀ (texts : RunnerTexts) (gateId : String)
    (definition : GateDefinition) (request : GateRequest) (outcomes : Nat → HttpOutcome),
    definition.http.getD "" ≠ "" → definition.retryThreshold.AtLeast 0 →
      ∀ sent result, Runs texts gateId definition request outcomes sent result →
        ∃ n, LastRequest definition.retryThreshold (Undecided texts.lower) outcomes n ∧
          sent = n + 1 ∧ result.decision = decidedByBody definition.onFail (outcomes n) := by
  intro h
  have hruns : ∃ result, Runs plainTexts "remote" remoteGate remoteRequest emptyBodyFirst 1
      result := ⟨_, 1, rfl⟩
  obtain ⟨result, hruns⟩ := hruns
  obtain ⟨n, hlast, hsent, _⟩ := h plainTexts "remote" remoteGate remoteRequest emptyBodyFirst
    (by decide) (by decide) 1 result hruns
  have hzero : n = 0 := by omega
  rw [hzero] at hlast
  have hnone : bodyDecisionOf emptyBody = none := by decide +kernel
  have hundecided : Undecided id (.response emptyBody) := ⟨hnone, rfl, by decide⟩
  exact hlast.stops hundecided (by decide)

end HttpRunner

end Newide.Gate
