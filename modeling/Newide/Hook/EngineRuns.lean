import Mathlib.Algebra.Ring.Nat
import Newide.Hook.Engine

/-!
# Decisions do not depend on the schedule

Engines handle any number of events at once, on schedulers others use too.
Every call that returns has the strictest decision of the bindings whose
condition holds, which no mode, concurrency, priority or order enters into;
and every schedule comes to rest with all calls returned.
-/

namespace Newide.Hook

open Gate WorkPools Pool

variable {request : GateRequest} {ticket : Nat}

namespace HookEngine

/-- Without results the strictest decision is the one the source answers. -/
theorem concluded_finalDecision (event : HookEvent) (gateRequests : List GateRequest)
    (results : List GateResult) :
    (concluded event gateRequests results).finalDecision =
      strictest (Multiset.ofList (results.map GateResult.decision)) := by
  cases h : aggregate results with
  | ok result =>
      simp only [concluded, h]
      exact aggregate_decision h
  | error message =>
      simp only [concluded, aggregate_error h]
      rfl

variable {policy : Policy GateRequest (Except String GateResult)} {pool : GatePool}
  {ports : HookPorts} {engine : HookEngine} {call : Call}

/-! ## Handing in requests -/

theorem insertAll_valid (h : pool.Valid policy) (dispatches : List Dispatch) :
    (insertAll policy pool dispatches).1.Valid policy := by
  induction dispatches generalizing pool with
  | nil => exact h
  | cons dispatch rest ih => exact ih (h.submit dispatch.request)

theorem insertAll_holds (h : pool.Holds policy ticket request) (dispatches : List Dispatch) :
    (insertAll policy pool dispatches).1.Holds policy ticket request := by
  induction dispatches generalizing pool with
  | nil => exact h
  | cons dispatch rest ih => exact ih (h.submit dispatch.request)

theorem insertAll_dispatches (policy : Policy GateRequest (Except String GateResult))
    (pool : GatePool) (dispatches : List Dispatch) :
    (insertAll policy pool dispatches).2.map Prod.fst = dispatches := by
  induction dispatches generalizing pool with
  | nil => rfl
  | cons dispatch rest ih => exact congrArg (dispatch :: ·) (ih _)

theorem insertAll_tickets (policy : Policy GateRequest (Except String GateResult))
    (pool : GatePool) (dispatches : List Dispatch) :
    ∀ entry ∈ (insertAll policy pool dispatches).2,
      (insertAll policy pool dispatches).1.Holds policy entry.2 entry.1.request := by
  induction dispatches generalizing pool with
  | nil => exact fun _ h => (by cases h)
  | cons dispatch rest ih =>
      intro entry hmem
      rcases List.mem_cons.mp hmem with rfl | hrest
      · exact insertAll_holds (holds_submit policy pool _) rest
      · exact ih _ entry hrest

/-! ## What a call stands for -/

/-- What a call still waits for. -/
def Progress.weight : Progress → Nat
  | .sequential _ _ _ rest => 2 * rest.length + 1
  | .parallel _ => 1
  | .returned _ => 0

theorem Progress.returned_of_weight {progress : Progress} (h : progress.weight = 0) :
    ∃ result, progress = .returned result := by
  cases progress with
  | sequential results current ticket rest => cases h
  | parallel waiting => cases h
  | returned result => exact ⟨result, rfl⟩

@[simp] theorem resume_event (ports : HookPorts) (engine : HookEngine) (pool : GatePool)
    (call : Call) : (engine.resume ports pool call).2.event = call.event := by
  unfold resume
  split
  · rfl
  · split <;> rfl
  · split
    · rfl
    · dsimp only
      split
      · rfl
      · split <;> rfl

theorem resume_pool (ports : HookPorts) (engine : HookEngine) (pool : GatePool) (call : Call) :
    (engine.resume ports pool call).1 = pool ∨ ∃ request,
      (engine.resume ports pool call).1 = pool.submit (engine.policy ports) request := by
  unfold resume
  split
  · exact .inl rfl
  · split <;> exact .inl rfl
  · split
    · exact .inl rfl
    · dsimp only
      split
      · exact .inl rfl
      · split
        · exact .inl rfl
        · exact .inr ⟨_, rfl⟩

end HookEngine

namespace HookSetup

open HookEngine

variable (setup : HookSetup)

/-- What the gate of a binding decides for its request, or its binding when the gate errs. -/
def verdict (dispatch : Dispatch) : GateDecision :=
  match setup.policy.run dispatch.request with
  | .ok result => result.decision
  | .error _ => dispatch.entry.onFailure.getD .allow

def entriesOf (event : HookEvent) : List HookBindingEntry :=
  (Record.get event.eventType setup.engine.bindings).getD []

def verdicts (call : Nat) (event : HookEvent) : Multiset GateDecision :=
  ((Multiset.ofList (setup.entriesOf event).zipIdx).filter fun entry =>
    evaluateCondition setup.ports entry.1.condition event = true).map fun entry =>
      setup.verdict (dispatchOf setup.engine.settings (setup.requestId call) event entry)

def dispatches (call : Nat) (event : HookEvent) : List Dispatch :=
  (matchingEntries setup.ports event (setup.entriesOf event)).map
    (dispatchOf setup.engine.settings (setup.requestId call) event)

variable {setup}

theorem caught_decision (dispatch : Dispatch) :
    (caught dispatch (setup.policy.run dispatch.request)).decision = setup.verdict dispatch := by
  unfold verdict
  cases setup.policy.run dispatch.request with
  | ok result => rfl
  | error reason => rfl

theorem dispatches_verdicts (call : Nat) (event : HookEvent) :
    Multiset.ofList ((setup.dispatches call event).map setup.verdict) =
      setup.verdicts call event := by
  unfold dispatches verdicts matchingEntries
  rw [List.map_map, Multiset.filter_coe, Multiset.map_coe]
  refine Multiset.coe_eq_coe.mpr (((List.perm_insertionSort _ _).map _).trans (.of_eq ?_))
  congr 1
  exact List.filter_congr fun entry _ => Bool.decide_eq_true.symm

/-! ## What holds between two steps -/

/-- How far a call with these dispatches has come. -/
def Sound (setup : HookSetup) (pool : GatePool) (dispatches : List Dispatch) : Progress → Prop
  | .sequential results current ticket rest => ∃ judged,
      dispatches = judged ++ current :: rest ∧
        results.map GateResult.decision = judged.map setup.verdict ∧
          pool.Holds setup.policy ticket current.request
  | .parallel waiting => waiting.map Prod.fst = dispatches ∧
      ∀ entry ∈ waiting, pool.Holds setup.policy entry.2 entry.1.request
  | .returned result =>
      result.finalDecision = strictest (Multiset.ofList (dispatches.map setup.verdict))

/-- The pool is in order, and every call stands where it should. -/
structure Consistent (setup : HookSetup) (s : State) : Prop where
  valid : s.pool.Valid setup.policy
  calls : ∀ i call, s.calls[i]? = some call →
    setup.Sound s.pool (setup.dispatches i call.event) call.progress

variable {s t : State} {pool after : GatePool} {dispatches : List Dispatch} {progress : Progress}

theorem Sound.mono (h : setup.Sound pool dispatches progress)
    (hholds : ∀ ticket request, pool.Holds setup.policy ticket request →
      after.Holds setup.policy ticket request) : setup.Sound after dispatches progress := by
  cases progress with
  | sequential results current ticket rest =>
      obtain ⟨judged, hsplit, hresults, hcurrent⟩ := h
      exact ⟨judged, hsplit, hresults, hholds _ _ hcurrent⟩
  | parallel waiting => exact ⟨h.1, fun entry hmem => hholds _ _ (h.2 entry hmem)⟩
  | returned result => exact h

theorem handleEvent_sound (hskip : isEmergencySkipEnabled setup.ports.env setup.engine.settings =
      false) (call : Nat) (event : HookEvent) :
    (setup.engine.handleEvent setup.ports (setup.requestId call) pool event).2.event = event ∧
      setup.Sound
        (setup.engine.handleEvent setup.ports (setup.requestId call) pool event).1
        (setup.dispatches call event)
        (setup.engine.handleEvent setup.ports (setup.requestId call) pool event).2.progress := by
  have hempty : setup.entriesOf event = [] → setup.dispatches call event = [] := by
    intro h
    simp [HookSetup.dispatches, h, matchingEntries]
  unfold handleEvent
  rw [hskip]
  cases hget : Record.get event.eventType setup.engine.bindings with
  | none =>
      refine ⟨rfl, ?_⟩
      rw [hempty (by rw [entriesOf, hget]; rfl)]
      rfl
  | some entries =>
      have hentries : setup.entriesOf event = entries := by rw [entriesOf, hget]; rfl
      cases entries with
      | nil =>
          refine ⟨rfl, ?_⟩
          rw [hempty hentries]
          rfl
      | cons entry others =>
          have hdispatches : setup.dispatches call event =
              (matchingEntries setup.ports event (entry :: others)).map
                (dispatchOf setup.engine.settings (setup.requestId call) event) := by
            rw [HookSetup.dispatches, hentries]
          simp only [Bool.false_eq_true, if_false, ← hdispatches]
          cases setup.dispatches call event with
          | nil => exact ⟨rfl, rfl⟩
          | cons first rest =>
              simp only [dispatchGates]
              by_cases hparallel : setup.engine.settings.parallel = true
              · rw [if_pos hparallel]
                exact ⟨rfl, insertAll_dispatches _ _ _, insertAll_tickets _ _ _⟩
              · rw [if_neg hparallel]
                exact ⟨rfl, [], rfl, rfl, holds_submit _ _ _⟩

/-- What the pool held it still holds, and it stays in order. -/
structure Kept (setup : HookSetup) (before after : GatePool) : Prop where
  valid : after.Valid setup.policy
  holds : ∀ ticket request, before.Holds setup.policy ticket request →
    after.Holds setup.policy ticket request

theorem Kept.refl (h : pool.Valid setup.policy) : setup.Kept pool pool := ⟨h, fun _ _ => id⟩

theorem Kept.submit (h : pool.Valid setup.policy) (request : GateRequest) :
    setup.Kept pool (pool.submit setup.policy request) :=
  ⟨h.submit request, fun _ _ hholds => hholds.submit request⟩

theorem handleEvent_kept (h : pool.Valid setup.policy) (requestId : Nat → String)
    (event : HookEvent) :
    setup.Kept pool (setup.engine.handleEvent setup.ports requestId pool event).1 := by
  unfold handleEvent
  split
  · exact .refl h
  · split
    · exact .refl h
    · exact .refl h
    · simp only [dispatchGates]
      split
      · exact .refl h
      · split
        · exact ⟨insertAll_valid h _, fun _ _ hholds => insertAll_holds hholds _⟩
        · exact .submit h _

theorem resume_kept (h : pool.Valid setup.policy) (call : Call) :
    setup.Kept pool (setup.engine.resume setup.ports pool call).1 := by
  rcases resume_pool setup.ports setup.engine pool call with heq | ⟨request, heq⟩
  · rw [heq]
    exact .refl h
  · rw [heq]
    exact .submit h request

/-! ## Going on with a call -/

theorem settled_results (hvalid : pool.Valid setup.policy) {waiting : List (Dispatch × Nat)}
    {results : List GateResult}
    (hholds : ∀ entry ∈ waiting, pool.Holds setup.policy entry.2 entry.1.request)
    (h : (waiting.mapM fun entry => (pool.settled entry.2).map (caught entry.1)) =
      some results) :
    results.map GateResult.decision = (waiting.map Prod.fst).map setup.verdict := by
  induction waiting generalizing results with
  | nil =>
      rw [List.mapM_nil] at h
      cases h
      rfl
  | cons entry rest ih =>
      rw [List.mapM_cons] at h
      obtain ⟨result, hresult, h⟩ := Option.bind_eq_some_iff.mp h
      obtain ⟨later, hlater, h⟩ := Option.bind_eq_some_iff.mp h
      obtain ⟨outcome, houtcome, rfl⟩ := Option.map_eq_some_iff.mp hresult
      cases h
      have hrun := (hholds entry (.head _)).outcome hvalid houtcome
      rw [List.map_cons, hrun, caught_decision,
        ih (fun other hmem => hholds other (.tail _ hmem)) hlater]
      rfl

variable {call : Call}

theorem resume_sound (hvalid : pool.Valid setup.policy)
    (h : setup.Sound pool dispatches call.progress) :
    setup.Sound (setup.engine.resume setup.ports pool call).1 dispatches
      (setup.engine.resume setup.ports pool call).2.progress := by
  unfold resume
  cases hprogress : call.progress with
  | returned result =>
      rw [hprogress] at h
      dsimp only
      rw [hprogress]
      exact h
  | parallel waiting =>
      rw [hprogress] at h
      dsimp only
      split
      case h_1 =>
        rw [hprogress]
        exact h
      case h_2 results hresults =>
        refine (concluded_finalDecision _ _ _).trans ?_
        rw [settled_results hvalid h.2 hresults, h.1]
  | sequential results current ticket rest =>
      have hkeep := h
      rw [hprogress] at h
      obtain ⟨judged, hsplit, hresults, hholds⟩ := h
      dsimp only
      cases hsettled : pool.settled ticket with
      | none => exact hkeep
      | some outcome =>
          dsimp only
          have hrun := hholds.outcome hvalid hsettled
          have hmore : (results ++ [caught current outcome]).map GateResult.decision =
              (judged ++ [current]).map setup.verdict := by
            rw [List.map_append, List.map_append, hresults, hrun, List.map_singleton,
              List.map_singleton, caught_decision]
          by_cases hdeny :
              setup.engine.settings.failFast ∧ (caught current outcome).decision = .deny
          · rw [if_pos hdeny]
            refine (concluded_finalDecision _ _ _).trans ?_
            -- the denial that ends the call is also the strictest of all verdicts
            rw [strictest_of_deny, strictest_of_deny]
            · rw [hsplit, Multiset.mem_coe, List.map_append, List.map_cons]
              refine List.mem_append_right _ ?_
              rw [← caught_decision, ← hrun, hdeny.2]
              exact .head _
            · rw [Multiset.mem_coe, List.map_append, List.map_singleton, hdeny.2]
              exact List.mem_append_right _ (.head _)
          · rw [if_neg hdeny]
            cases rest with
            | nil =>
                refine (concluded_finalDecision _ _ _).trans ?_
                rw [hmore, ← hsplit]
            | cons following rest =>
                refine ⟨judged ++ [current], ?_, hmore, holds_submit _ _ _⟩
                rw [hsplit, List.append_assoc]
                rfl

/-! ## Runs -/

theorem Consistent.of_kept (h : setup.Consistent s) (hkept : setup.Kept s.pool after) (i : Nat)
    (call : Call) (hcall : s.calls[i]? = some call) :
    setup.Sound after (setup.dispatches i call.event) call.progress :=
  (h.calls i call hcall).mono hkept.holds

theorem Consistent.next (hskip : isEmergencySkipEnabled setup.ports.env setup.engine.settings =
      false) (h : setup.Consistent s) (label : Label) : setup.Consistent (setup.next s label) := by
  cases label with
  | handle event =>
      have hkept := handleEvent_kept h.valid (setup.requestId s.calls.length) event
      refine ⟨hkept.valid, fun i call hcall => ?_⟩
      obtain ⟨hevent, hsound⟩ := @handleEvent_sound setup s.pool hskip s.calls.length event
      by_cases hold : i < s.calls.length
      · exact h.of_kept hkept i call ((List.getElem?_append_left hold).symm.trans hcall)
      · obtain rfl : i = s.calls.length := by
          have hlt := (List.getElem?_eq_some_iff.mp hcall).1
          simp only [HookSetup.next, List.length_append, List.length_singleton] at hlt
          omega
        obtain rfl := Option.some.inj ((List.getElem?_concat_length ..).symm.trans hcall)
        rw [hevent]
        exact hsound
  | insert request =>
      have hkept := Kept.submit h.valid request
      exact ⟨hkept.valid, h.of_kept hkept⟩
  | finish ticket =>
      exact ⟨h.valid.finish ticket, fun i call hcall =>
        (h.calls i call hcall).mono fun _ _ hholds => hholds.finish h.valid ticket⟩
  | resume i =>
      simp only [HookSetup.next]
      cases hcalled : s.calls[i]? with
      | none => exact h
      | some call =>
          have hkept := resume_kept h.valid call
          refine ⟨hkept.valid, fun j other hother => ?_⟩
          by_cases hij : i = j
          · subst hij
            have hlt := (List.getElem?_eq_some_iff.mp hcalled).1
            obtain rfl := Option.some.inj ((List.getElem?_set_self hlt).symm.trans hother)
            rw [resume_event]
            exact resume_sound h.valid (h.calls i call hcalled)
          · exact h.of_kept hkept j other ((List.getElem?_set_ne hij).symm.trans hother)

theorem consistent_initial (setup : HookSetup) : setup.Consistent initial where
  valid := valid_empty _
  calls := fun _ _ h => (by cases h)

theorem consistent_run (hskip : isEmergencySkipEnabled setup.ports.env setup.engine.settings =
      false) (labels : List Label) : setup.Consistent (setup.run labels) := by
  induction labels using List.reverseRecOn with
  | nil => exact consistent_initial setup
  | append_singleton labels label ih =>
      rw [run, List.foldl_append]
      exact ih.next hskip label

/-! ## Every schedule comes to rest -/

/-- The engine makes a step by itself that does something. -/
def Advances (setup : HookSetup) (s t : State) : Prop :=
  ∃ label, Label.Internal label ∧ t = setup.next s label ∧ t ≠ s

/-- The most steps the engine can still make by itself. -/
def outstanding (s : State) : Nat :=
  s.pool.pending.length + (s.calls.map fun call => call.progress.weight).sum

theorem outstanding_finish (h : setup.Consistent s) (hmem : (ticket, request) ∈ s.pool.active) :
    outstanding (setup.next s (.finish ticket)) < outstanding s := by
  have hlength := h.valid.length_finish hmem
  simp only [outstanding, HookSetup.next]
  omega

theorem resume_weight (pool : GatePool) (call : Call) :
    setup.engine.resume setup.ports pool call = (pool, call) ∨
      (setup.engine.resume setup.ports pool call).1.pending.length +
          (setup.engine.resume setup.ports pool call).2.progress.weight <
        pool.pending.length + call.progress.weight := by
  unfold resume
  cases hprogress : call.progress with
  | returned result => exact .inl rfl
  | parallel waiting =>
      dsimp only
      split
      · exact .inl rfl
      · exact .inr (Nat.lt_succ_self _)
  | sequential results current ticket rest =>
      dsimp only
      cases pool.settled ticket with
      | none => exact .inl rfl
      | some outcome =>
          refine .inr ?_
          dsimp only
          split
          · simp only [Progress.weight]
            omega
          · cases rest with
            | nil => exact Nat.lt_succ_self _
            | cons following rest =>
                have hlength := (submit_pending (setup.engine.policy setup.ports) pool
                  following.request).length_eq
                simp only [Progress.weight, List.length_cons] at hlength ⊢
                omega

theorem sum_set {calls : List Call} {i : Nat} (h : calls[i]? = some call) (resumed : Call) :
    ((calls.set i resumed).map fun call => call.progress.weight).sum + call.progress.weight =
      (calls.map fun call => call.progress.weight).sum + resumed.progress.weight := by
  induction calls generalizing i with
  | nil => cases h
  | cons first rest ih =>
      cases i with
      | zero =>
          cases h
          simp only [List.set_cons_zero, List.map_cons, List.sum_cons]
          omega
      | succ i =>
          have := ih h
          simp only [List.set_cons_succ, List.map_cons, List.sum_cons]
          omega

theorem outstanding_resume (s : State) (i : Nat) :
    setup.next s (.resume i) = s ∨ outstanding (setup.next s (.resume i)) < outstanding s := by
  simp only [HookSetup.next]
  cases hcall : s.calls[i]? with
  | none => exact .inl rfl
  | some call =>
      have hweight : setup.engine.resume setup.ports s.pool call = (s.pool, call) ∨ _ :=
        resume_weight s.pool call
      rcases hweight with hsame | hless
      · refine .inl ?_
        obtain ⟨hlt, hget⟩ := List.getElem?_eq_some_iff.mp hcall
        dsimp only
        rw [hsame, ← hget, List.set_getElem_self]
      · refine .inr ?_
        have hsum := sum_set hcall (setup.engine.resume setup.ports s.pool call).2
        simp only [outstanding]
        omega

theorem Consistent.advances (h : setup.Consistent s) (hadvances : setup.Advances s t) :
    outstanding t < outstanding s := by
  obtain ⟨label, hinternal, rfl, hne⟩ := hadvances
  cases label with
  | handle event => exact hinternal.elim
  | insert request => exact hinternal.elim
  | finish ticket =>
      by_cases hmem : ∃ request, (ticket, request) ∈ s.pool.active
      · exact outstanding_finish h hmem.choose_spec
      · refine absurd ?_ hne
        simp only [HookSetup.next,
          finish_of_none fun request hrequest => hmem ⟨request, hrequest⟩]
  | resume i => exact (outstanding_resume s i).resolve_left hne

theorem resume_of_idle (hidle : pool.pending = [])
    (hsound : setup.Sound pool dispatches call.progress)
    (hsame : setup.engine.resume setup.ports pool call = (pool, call)) :
    call.progress.weight = 0 := by
  have hprogress := congrArg (fun resumed : GatePool × Call => resumed.2.progress.weight) hsame
  unfold resume at hprogress
  cases hcase : call.progress with
  | returned result => rfl
  | parallel waiting =>
      rw [hcase] at hprogress hsound
      obtain ⟨results, hresults⟩ : ∃ results,
          (waiting.mapM fun entry => (pool.settled entry.2).map (caught entry.1)) =
            some results := by
        have hholds := hsound.2
        clear hprogress hsound hcase hsame
        induction waiting with
        | nil => exact ⟨[], rfl⟩
        | cons entry rest ih =>
            obtain ⟨results, hresults⟩ := ih fun other hmem => hholds other (.tail _ hmem)
            refine ⟨caught entry.1 (setup.policy.run entry.1.request) :: results, ?_⟩
            rw [List.mapM_cons, (hholds entry (.head _)).settled hidle, hresults]
            rfl
      dsimp only at hprogress
      rw [hresults] at hprogress
      cases hprogress
  | sequential results current ticket rest =>
      rw [hcase] at hprogress hsound
      obtain ⟨judged, _, _, hholds⟩ := hsound
      dsimp only at hprogress
      rw [hholds.settled hidle] at hprogress
      dsimp only at hprogress
      split at hprogress
      · cases hprogress
      · cases rest with
        | nil => cases hprogress
        | cons following rest =>
            simp only [Progress.weight, List.length_cons] at hprogress
            omega

theorem Consistent.returned_of_rest (h : setup.Consistent s)
    (hconcurrency : setup.engine.scheduler.concurrency.AtLeast 1)
    (hrest : ∀ t, ¬ setup.Advances s t) (call : Call) (hcall : call ∈ s.calls) :
    ∃ result, call.progress = .returned result := by
  have hsame : ∀ label, Label.Internal label → setup.next s label = s := by
    intro label hinternal
    by_contra hne
    exact hrest _ ⟨label, hinternal, rfl, hne⟩
  have hactive : s.pool.active = [] := by
    refine List.eq_nil_iff_forall_not_mem.mpr fun job hmem => ?_
    have hless : outstanding (setup.next s (.finish job.1)) < _ := outstanding_finish h hmem
    rw [hsame (.finish job.1) trivial] at hless
    exact Nat.lt_irrefl _ hless
  have hidle := h.valid.pending_eq_nil (PriorityGateScheduler.policy_room hconcurrency _) hactive
  obtain ⟨i, hi⟩ := List.getElem?_of_mem hcall
  have hresumed := hsame (.resume i) trivial
  simp only [HookSetup.next, hi] at hresumed
  refine Progress.returned_of_weight (resume_of_idle hidle (h.calls i call hi) ?_)
  have hpool := congrArg State.pool hresumed
  have hcalls := congrArg (fun s : State => s.calls[i]?) hresumed
  dsimp only at hpool hcalls
  rw [List.getElem?_set_self (List.getElem?_eq_some_iff.mp hi).1, hi] at hcalls
  exact Prod.ext hpool (Option.some.inj hcalls)

/-! ## The law of decisions -/

/-- Two calls meet the same bindings, in whatever order and with whatever priorities, and every
gate comes to the same. -/
structure Rescheduled (a b : HookSetup) (i j : Nat) (event : HookEvent) : Prop where
  conditions : a.ports.evaluate = b.ports.evaluate
  bindings : ∃ entries, entries.Perm (b.entriesOf event).zipIdx ∧
    List.Forall₂ (fun left right =>
        left.1.condition = right.1.condition ∧ left.1.onFailure = right.1.onFailure ∧
        a.policy.run (dispatchOf a.engine.settings (a.requestId i) event left).request =
          b.policy.run (dispatchOf b.engine.settings (b.requestId j) event right).request)
      (a.entriesOf event).zipIdx entries

theorem Rescheduled.verdicts {a b : HookSetup} {i j : Nat} {event : HookEvent}
    (h : Rescheduled a b i j event) : a.verdicts i event = b.verdicts j event := by
  obtain ⟨entries, hperm, hsame⟩ := h.bindings
  have hconditions := h.conditions
  unfold HookSetup.verdicts
  rw [← Multiset.coe_eq_coe.mpr hperm, Multiset.filter_coe, Multiset.filter_coe,
    Multiset.map_coe, Multiset.map_coe]
  refine congrArg Multiset.ofList ?_
  clear hperm
  generalize (a.entriesOf event).zipIdx = mine at hsame
  induction hsame with
  | nil => rfl
  | @cons left right mine entries hhead _ ih =>
      obtain ⟨hcondition, hfailure, hrun⟩ := hhead
      have hholds : evaluateCondition a.ports left.1.condition event =
          evaluateCondition b.ports right.1.condition event := by
        rw [hcondition]
        unfold evaluateCondition
        rw [hconditions]
      have hverdict : a.verdict (dispatchOf a.engine.settings (a.requestId i) event left) =
          b.verdict (dispatchOf b.engine.settings (b.requestId j) event right) := by
        unfold verdict
        rw [hrun]
        cases b.policy.run _ with
        | ok result => rfl
        | error reason => exact congrArg (fun onFailure => Option.getD onFailure _) hfailure
      rw [List.filter_cons, List.filter_cons, hholds]
      split
      · rw [List.map_cons, List.map_cons, hverdict, ih]
      · exact ih

/-- The decision on an event is the strictest verdict of the bindings whose condition holds of
it.  Every call returns, and another mode, concurrency, priority or order changes nothing. -/
theorem finalDecision_eq_strictest (setup : HookSetup)
    (hskip : isEmergencySkipEnabled setup.ports.env setup.config.settings = false)
    (hconcurrency : setup.scheduler.concurrency.AtLeast 1) (labels : List Label) :
    (∀ i call result, (setup.run labels).calls[i]? = some call →
      call.progress = .returned result →
        result.finalDecision = strictest (setup.verdicts i call.event)) ∧
    (∀ t, setup.Advances (setup.run labels) t →
      outstanding t < outstanding (setup.run labels)) ∧
    ((∀ t, ¬ setup.Advances (setup.run labels) t) →
      ∀ call ∈ (setup.run labels).calls, ∃ result, call.progress = .returned result) ∧
    ∀ other : HookSetup,
      isEmergencySkipEnabled other.ports.env other.config.settings = false →
      ∀ i j labels' call call' result result',
        (setup.run labels).calls[i]? = some call → call.progress = .returned result →
        (other.run labels').calls[j]? = some call' → call'.progress = .returned result' →
        call'.event = call.event → Rescheduled setup other i j call.event →
          result'.finalDecision = result.finalDecision := by
  have hdecision : ∀ {setup : HookSetup} {labels : List Label},
      isEmergencySkipEnabled setup.ports.env setup.config.settings = false →
      ∀ i call result, (setup.run labels).calls[i]? = some call →
        call.progress = .returned result →
          result.finalDecision = strictest (setup.verdicts i call.event) := by
    intro setup labels hskip i call result hcall hreturned
    have hsound := (consistent_run hskip labels).calls i call hcall
    rw [hreturned] at hsound
    rw [← dispatches_verdicts]
    exact hsound
  have hconsistent := consistent_run hskip labels
  refine ⟨hdecision hskip, fun t => hconsistent.advances,
    hconsistent.returned_of_rest hconcurrency, ?_⟩
  intro other hother i j labels' call call' result result' hcall hresult hcall' hresult' hevent
    hsame
  rw [hdecision hskip i call result hcall hresult, hdecision hother j call' result' hcall' hresult',
    hevent, hsame.verdicts]

/-- Two bindings of one event, a gate that errs and one that denies, one after the other. -/
def exampleSetup : HookSetup where
  ports := {
    env := fun _ => none
    evaluate := fun _ _ => .ok true
    build := fun gateId _ request =>
      if gateId = "lint" then .error "timeout"
      else .ok {
        gateId := gateId, gatePoint := request.gatePoint, decision := .deny, reason := "" } }
  config := {
    version := defaultHookVersion
    settings := { defaultHookSettings with failFast := true }
    gates := [("lint", { type := .command }), ("review", { type := .prompt })]
    hooks := [(⟨"task.created", by decide⟩, [
      { gate := "lint", onFailure := some .ask }, { gate := "review" }])] }
  requestId := fun call place => toString call ++ "." ++ toString place

def exampleEvent : HookEvent where
  eventId := "event-1"
  eventType := ⟨"task.created", by decide⟩
  subjectId := "task-1"

/-- The gate that errs asks, as its binding says, and the one after it denies. -/
theorem finalDecision_created :
    strictest (exampleSetup.verdicts 0 exampleEvent) = .deny := by
  have hdecision := (finalDecision_eq_strictest exampleSetup (by decide) (by decide)
    [.handle exampleEvent, .finish 0, .resume 0, .finish 1, .resume 0]).1 0 _ _ rfl rfl
  exact hdecision.symm

end HookSetup

end Newide.Hook
