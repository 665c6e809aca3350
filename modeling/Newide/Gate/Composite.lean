import Newide.Foundation.Fallible
import Newide.Foundation.Records
import Newide.Foundation.References
import Newide.Gate.Runner

/-!
# Composite gates

`DecisionAggregator.aggregateComposite` and `CompositeRunner.run` of
`src/gate`, over the gates that a configuration defines.  What a
gate of another type comes to is a parameter, and so are none of the
composite ones: they are evaluated as deep as their references go.
-/

namespace Newide.Gate

open Hook Fallible References Record

/-! ## Results of sub-gates -/

/-- The result of a sub-gate, after the downgrade that an optional reference allows. -/
def adjustResult (subGateMap : Record String SubGateRef) (result : GateResult) : GateResult :=
  match get result.gateId subGateMap with
  | some config =>
      if config.required = some false ∧ result.decision = .deny then
        { result with
          decision := .allow
          reason := result.reason ++ " (ignored deny because optional)" }
      else result
  | none => result

def subGateMap (subGates : List SubGateRef) : Record String SubGateRef :=
  ofEntries (subGates.map fun subGate => (subGate.gateId, subGate))

def aggregateComposite (results : List GateResult) (subGates : List SubGateRef) :
    Except String GateResult :=
  if results = [] then
    .error "DecisionAggregator requires at least one GateResult for composite aggregation"
  else aggregate (results.map (adjustResult (subGateMap subGates)))

namespace CompositeRunner

/-- The result that stands for a sub-gate: its own, or one for the error it came to. -/
def subResult (definition : GateDefinition) (request : GateRequest) (subGate : SubGateRef) :
    Except String GateResult → GateResult
  | .ok result => result
  | .error message =>
      { gateId := subGate.gateId
        gatePoint := request.gatePoint
        requestId := some request.requestId
        decision := definition.outputConfig.onFail.getD .deny
        reason := "Failed to execute sub-gate " ++ subGate.gateId ++ ": " ++ message
        targetState := some "" }

def conclude (gateId : String) (request : GateRequest) (subGates : List SubGateRef)
    (subResults : List GateResult) : Except String GateResult :=
  (aggregateComposite subResults subGates).map fun aggregated =>
    buildResult gateId request {
      decision := aggregated.decision
      reason := "Composite gate evaluation: " ++ aggregated.reason
      requiredActions := aggregated.requiredActions }

/-- `run`, where `runSub` resolves a sub-gate and runs it; it is `none` if that never ends. -/
def run (runSub : GateRequest → Option (Except String GateResult)) (gateId : String)
    (definition : GateDefinition) (request : GateRequest) : Option (Except String GateResult) :=
  match definition.gates.getD [] with
  | [] =>
      some (.ok (buildResult gateId request
        ⟨.allow, "CompositeRunner has no sub-gates to evaluate.", [], ""⟩))
  | subGates =>
      (subGates.mapM fun subGate =>
        (runSub { request with gateId := subGate.gateId }).map
          (subResult definition request subGate)).map
        (conclude gateId request subGates)

end CompositeRunner

def undefinedGate (request : GateRequest) : Except String GateResult :=
  if request.gateId = "mock-allow-gate" ∨ request.gateId = "allow-gate" then
    .ok (PriorityGateScheduler.mockAllowGate request)
  else if request.gateId = "mock-deny-gate" ∨ request.gateId = "deny-gate" then
    .ok (PriorityGateScheduler.mockDenyGate request)
  else .error ("No definition or custom runner found for gate_id: " ++ request.gateId)

abbrev Outcomes := String → GateDefinition → GateRequest → Except String Verdict

section

variable (outcomes : Outcomes) (definitions : Record String GateDefinition)

def runGate : Nat → GateRequest → Option (Except String GateResult)
  | 0, _ => none
  | depth + 1, request =>
      match get request.gateId definitions with
      | some definition =>
          if definition.type = .composite then
            CompositeRunner.run (runGate depth) request.gateId definition request
          else some ((outcomes request.gateId definition request).map
            (buildResult request.gateId request))
      | none => some (undefinedGate request)

def Comes (request : GateRequest) (gateId : String) (outcome : Except String GateResult) : Prop :=
  ∃ depth, runGate outcomes definitions depth { request with gateId } = some outcome

/-- A composite gate refers to its sub-gates. -/
def RefersTo (a b : String) : Prop :=
  ∃ definition, get a definitions = some definition ∧ definition.type = .composite ∧
    b ∈ (definition.gates.getD []).map SubGateRef.gateId

end

/-! ## Running is evaluation -/

variable {decision : GateDecision}

section

variable {outcomes : Outcomes} {definitions : Record String GateDefinition}
  {request : GateRequest} {gateId : String} {definition : GateDefinition}

/-- What a composite gate comes to, if its sub-gates come to this. -/
def combine (gateId : String) (definition : GateDefinition) (request : GateRequest)
    (results : List (Except String GateResult)) : Except String GateResult :=
  match definition.gates.getD [] with
  | [] =>
      .ok (buildResult gateId request
        ⟨.allow, "CompositeRunner has no sub-gates to evaluate.", [], ""⟩)
  | subGates =>
      CompositeRunner.conclude gateId request subGates
        (List.zipWith (CompositeRunner.subResult definition request) subGates results)

def gateNode (outcomes : Outcomes) (definitions : Record String GateDefinition)
    (request : GateRequest) (gateId : String) : Node String (Except String GateResult) :=
  match get gateId definitions with
  | some definition =>
      if definition.type = .composite then
        .branch ((definition.gates.getD []).map SubGateRef.gateId)
          (combine gateId definition { request with gateId })
      else .leaf ((outcomes gateId definition { request with gateId }).map
        (buildResult gateId { request with gateId }))
  | none => .leaf (undefinedGate { request with gateId })

theorem mapM_map_zipWith {α β γ δ : Type} (name : α → β) (f : β → Option γ) (g : α → γ → δ)
    (as : List α) : (as.mapM fun a => (f (name a)).map (g a)) =
      ((as.map name).mapM f).map (List.zipWith g as) := by
  induction as with
  | nil => rfl
  | cons a as ih =>
      rw [List.mapM_cons, ih, List.map_cons, List.mapM_cons]
      cases f (name a) with
      | none => rfl
      | some c => cases (as.map name).mapM f <;> rfl

theorem runGate_eq_eval (depth : Nat) (gateId : String) :
    runGate outcomes definitions depth { request with gateId } =
      eval (gateNode outcomes definitions request) depth gateId := by
  induction depth generalizing gateId with
  | zero => rfl
  | succ depth ih =>
      rw [runGate, eval, gateNode]
      dsimp only
      cases hget : get gateId definitions with
      | none => rfl
      | some definition =>
          dsimp only
          by_cases htype : definition.type = .composite
          · rw [if_pos htype, if_pos htype]
            unfold CompositeRunner.run combine
            cases hgates : definition.gates.getD [] with
            | nil => rfl
            | cons subGate rest =>
                dsimp only
                rw [mapM_map_zipWith SubGateRef.gateId
                  (fun id => runGate outcomes definitions depth { request with gateId := id }),
                  Option.map_map]
                simp only [ih]
                rfl
          · rw [if_neg htype, if_neg htype]

variable {outcome : Except String GateResult}

theorem comes_iff_ends :
    Comes outcomes definitions request gateId outcome ↔
      Ends (gateNode outcomes definitions request) gateId outcome := by
  unfold Comes Ends
  simp only [runGate_eq_eval]

theorem Comes.unique {a b : Except String GateResult}
    (h : Comes outcomes definitions request gateId a)
    (h' : Comes outcomes definitions request gateId b) : a = b :=
  (comes_iff_ends.mp h).unique (comes_iff_ends.mp h')

theorem refs_gateNode (gateId other : String) :
    other ∈ refs (gateNode outcomes definitions request) gateId ↔
      RefersTo definitions gateId other := by
  unfold refs gateNode RefersTo
  cases hget : get gateId definitions with
  | none => exact ⟨fun h => (by cases h), fun ⟨_, h, _⟩ => (by cases h)⟩
  | some definition =>
      dsimp only
      by_cases htype : definition.type = .composite
      · rw [if_pos htype]
        refine ⟨fun h => ⟨definition, rfl, htype, h⟩, ?_⟩
        rintro ⟨_, hsome, _, h⟩
        rwa [Option.some.inj hsome]
      · rw [if_neg htype]
        refine ⟨fun h => (by cases h), ?_⟩
        rintro ⟨_, hsome, hcomposite, _⟩
        exact absurd (Option.some.inj hsome ▸ hcomposite) htype

theorem comes_iff_acyclic :
    (∃ outcome, Comes outcomes definitions request gateId outcome) ↔
      ¬ LeadsToCycle (RefersTo definitions) gateId := by
  have hrefers : Refers (gateNode outcomes definitions request) = RefersTo definitions := by
    funext a b
    exact propext (refs_gateNode a b)
  have hnames : ∀ k, refs (gateNode outcomes definitions request) k ≠ [] →
      k ∈ definitions.map Prod.fst := by
    intro k hrefs
    obtain ⟨other, hother⟩ := List.exists_mem_of_ne_nil _ hrefs
    obtain ⟨definition, hget, _⟩ := (refs_gateNode k other).mp hother
    exact List.mem_map_of_mem (get_eq_some_mem hget)
  rw [← hrefers, ← ends_iff hnames]
  simp only [comes_iff_ends]

/-! ## The names of results -/

variable {result : GateResult}

theorem undefinedGate_named (h : undefinedGate request = .ok result) :
    result.gateId = request.gateId := by
  unfold undefinedGate at h
  split at h
  · exact congrArg GateResult.gateId (Except.ok.inj h).symm
  · split at h
    · exact congrArg GateResult.gateId (Except.ok.inj h).symm
    · cases h

theorem run_named {runSub : GateRequest → Option (Except String GateResult)}
    (h : CompositeRunner.run runSub gateId definition request = some (.ok result)) :
    result.gateId = gateId := by
  unfold CompositeRunner.run at h
  split at h
  · exact congrArg GateResult.gateId (Except.ok.inj (Option.some.inj h)).symm
  · obtain ⟨subResults, _, hconclude⟩ := Option.map_eq_some_iff.mp h
    obtain ⟨aggregated, _, hresult⟩ := mapped_eq_ok.mp hconclude
    exact congrArg GateResult.gateId hresult.symm

theorem Comes.named
    (h : Comes outcomes definitions request gateId (.ok result)) : result.gateId = gateId := by
  obtain ⟨depth, hrun⟩ := h
  cases depth with
  | zero => cases hrun
  | succ depth =>
      rw [runGate] at hrun
      dsimp only at hrun
      cases hget : get gateId definitions with
      | none =>
          rw [hget] at hrun
          exact undefinedGate_named (Option.some.inj hrun)
      | some definition =>
          rw [hget] at hrun
          dsimp only at hrun
          by_cases htype : definition.type = .composite
          · rw [if_pos htype] at hrun
            exact run_named hrun
          · rw [if_neg htype] at hrun
            obtain ⟨verdict, _, hresult⟩ := mapped_eq_ok.mp (Option.some.inj hrun)
            exact congrArg GateResult.gateId hresult.symm

/-! ## What decides -/

/-- The decision a sub-gate counts with: its own, or the one for errors. -/
def decisionOf (onFail : Option GateDecision) : Except String GateResult → GateDecision
  | .ok result => result.decision
  | .error _ => onFail.getD .deny

/-- A denial through an optional reference counts as `allow`. -/
def counted (subGate : SubGateRef) (decision : GateDecision) : GateDecision :=
  if subGate.required = some false ∧ decision = .deny then .allow else decision

variable {subGate : SubGateRef}

theorem counted_of_ne (h : decision ≠ .deny) :
    counted subGate decision = decision :=
  if_neg fun hboth => h hboth.2

theorem counted_deny (subGate : SubGateRef) :
    counted subGate .deny = .deny ↔ subGate.required ≠ some false := by
  unfold counted
  by_cases h : subGate.required = some false
  · rw [if_pos ⟨h, rfl⟩]
    exact ⟨fun hdeny => (by cases hdeny), fun hne => absurd h hne⟩
  · rw [if_neg fun hboth => h hboth.1]
    exact ⟨fun _ => h, fun _ => rfl⟩

theorem counted_eq_deny :
    counted subGate decision = .deny ↔ decision = .deny ∧ subGate.required ≠ some false := by
  by_cases hdeny : decision = .deny
  · rw [hdeny, counted_deny]
    exact ⟨fun h => ⟨rfl, h⟩, fun h => h.2⟩
  · rw [counted_of_ne hdeny]
    exact ⟨fun h => absurd h hdeny, fun h => h.1⟩

def LastReference (subGates : List SubGateRef) (subGate : SubGateRef) : Prop :=
  ∃ pre post, subGates = pre ++ subGate :: post ∧ subGate.gateId ∉ post.map SubGateRef.gateId

variable {subGates : List SubGateRef}

theorem get_subGateMap {name : String} :
    get name (subGateMap subGates) = some subGate ↔
      subGate.gateId = name ∧ LastReference subGates subGate := by
  unfold subGateMap
  rw [get_ofEntries_eq_some]
  constructor
  · rintro ⟨pre, post, hmap, hnew⟩
    obtain ⟨before, rest, rfl, rfl, hrest⟩ := List.map_eq_append_iff.mp hmap
    obtain ⟨last, after, rfl, hlast, rfl⟩ := List.map_eq_cons_iff.mp hrest
    obtain ⟨rfl, rfl⟩ := Prod.mk.inj hlast
    rw [List.map_map] at hnew
    exact ⟨rfl, before, after, rfl, hnew⟩
  · rintro ⟨rfl, before, after, rfl, hnew⟩
    refine ⟨before.map fun other => (other.gateId, other),
      after.map fun other => (other.gateId, other), by simp, ?_⟩
    rw [List.map_map]
    exact hnew

theorem exists_lastReference
    (h : subGate ∈ subGates) : ∃ last, get subGate.gateId (subGateMap subGates) = some last := by
  refine Option.isSome_iff_exists.mp (mem_keys_iff.mp ?_)
  unfold subGateMap ofEntries
  rw [mem_keys_spread]
  refine .inr ?_
  rw [List.map_map]
  exact List.mem_map_of_mem (f := SubGateRef.gateId) h

theorem adjustResult_decision
    {last : SubGateRef} (h : get result.gateId (subGateMap subGates) = some last) :
    (adjustResult (subGateMap subGates) result).decision = counted last result.decision := by
  unfold adjustResult counted
  rw [h]
  dsimp only
  split <;> rfl

theorem subResult_decision (definition : GateDefinition) (request : GateRequest)
    (subGate : SubGateRef) (outcome : Except String GateResult) :
    (CompositeRunner.subResult definition request subGate outcome).decision =
      decisionOf definition.outputConfig.onFail outcome := by
  cases outcome <;> rfl

theorem subResult_named (h : ∀ result, outcome = .ok result → result.gateId = subGate.gateId) :
    (CompositeRunner.subResult definition request subGate outcome).gateId = subGate.gateId := by
  cases outcome with
  | error message => rfl
  | ok result => exact h result rfl

theorem strictest_eq_deny {decisions : List GateDecision} :
    strictest (Multiset.ofList decisions) = .deny ↔ .deny ∈ decisions := by
  refine ⟨fun h => ?_, fun h => strictest_of_deny h⟩
  induction decisions with
  | nil => cases h
  | cons decision rest ih =>
      rw [← Multiset.cons_coe, strictest_cons] at h
      by_cases hdeny : decision = .deny
      · exact hdeny ▸ List.mem_cons_self
      · refine List.mem_cons_of_mem _ (ih ?_)
        rcases max_choice decision (strictest (Multiset.ofList rest)) with hleft | hright
        · exact absurd (hleft.symm.trans h) hdeny
        · exact hright.symm.trans h

/-! ## The decision of a composite gate -/

theorem conclude_decision {subResults : List GateResult} (h : subResults ≠ []) : ∃ result,
      CompositeRunner.conclude gateId request subGates subResults = .ok result ∧
        result.decision = strictest (Multiset.ofList
          (subResults.map fun result => (adjustResult (subGateMap subGates) result).decision)) := by
  have hresults : subResults.map (adjustResult (subGateMap subGates)) ≠ [] := by
    simpa using h
  cases haggregate : aggregate (subResults.map (adjustResult (subGateMap subGates))) with
  | error message => exact absurd (aggregate_error haggregate) hresults
  | ok aggregated =>
      refine ⟨buildResult gateId request ⟨aggregated.decision,
        "Composite gate evaluation: " ++ aggregated.reason, aggregated.requiredActions, ""⟩, ?_, ?_⟩
      · unfold CompositeRunner.conclude aggregateComposite
        rw [if_neg h, haggregate]
        rfl
      · change aggregated.decision = _
        rw [aggregate_decision haggregate, List.map_map]
        rfl

theorem gateNode_composite (hget : get gateId definitions = some definition)
    (htype : definition.type = .composite) : gateNode outcomes definitions request gateId =
      .branch ((definition.gates.getD []).map SubGateRef.gateId)
        (combine gateId definition { request with gateId }) := by
  unfold gateNode
  rw [hget]
  exact if_pos htype

theorem comes_of_subResults (hget : get gateId definitions = some definition)
    (htype : definition.type = .composite) {results : List (Except String GateResult)}
    (hresults : List.Forall₂ (fun subGate => Comes outcomes definitions request
      (SubGateRef.gateId subGate)) (definition.gates.getD []) results) :
    ∃ result, Comes outcomes definitions request gateId (.ok result) ∧
      result.decision = strictest (Multiset.ofList
        (List.zipWith (fun subGate outcome =>
          (adjustResult (subGateMap (definition.gates.getD []))
            (CompositeRunner.subResult definition { request with gateId } subGate outcome)).decision)
          (definition.gates.getD []) results)) := by
  have hends : List.Forall₂ (Ends (gateNode outcomes definitions request))
      ((definition.gates.getD []).map SubGateRef.gateId) results :=
    List.forall₂_map_left_iff.mpr (hresults.imp fun _ _ => comes_iff_ends.mp)
  have hcomes := (ends_branch (gateNode_composite hget htype)).mpr ⟨results, hends, rfl⟩
  suffices hresult : ∃ result, combine gateId definition { request with gateId } results =
      .ok result ∧ result.decision = _ by
    obtain ⟨result, hcombine, hdecision⟩ := hresult
    exact ⟨result, comes_iff_ends.mpr (hcombine ▸ hcomes), hdecision⟩
  unfold combine
  cases hgates : definition.gates.getD [] with
  | nil => exact ⟨_, rfl, rfl⟩
  | cons subGate rest =>
      rw [hgates] at hresults
      cases results with
      | nil => cases hresults
      | cons outcome others =>
          obtain ⟨result, hconclude, hdecision⟩ := @conclude_decision { request with gateId } gateId
            (subGate :: rest) (List.zipWith (CompositeRunner.subResult definition
              { request with gateId }) (subGate :: rest) (outcome :: others))
            (List.cons_ne_nil _ _)
          refine ⟨result, hconclude, hdecision.trans ?_⟩
          rw [List.map_zipWith]

/-- The sub-gate comes to a denial. -/
def Denies (outcomes : Outcomes) (definitions : Record String GateDefinition)
    (request : GateRequest) (definition : GateDefinition) (subGate : SubGateRef) : Prop :=
  ∃ outcome, Comes outcomes definitions request subGate.gateId outcome ∧
    decisionOf definition.outputConfig.onFail outcome = .deny

/-- A composite gate ends, and its decision is the strictest of those its sub-gates count with, in
the order of the references. -/
def DecidesByRequired (outcomes : Outcomes) (definitions : Record String GateDefinition)
    (request : GateRequest) (gateId : String) (definition : GateDefinition) : Prop :=
  ∃ results result, List.Forall₂ (fun subGate => Comes outcomes definitions request
      (SubGateRef.gateId subGate)) (definition.gates.getD []) results ∧
    Comes outcomes definitions request gateId (.ok result) ∧
    result.decision = strictest (Multiset.ofList
      (List.zipWith (fun subGate outcome =>
        counted subGate (decisionOf definition.outputConfig.onFail outcome))
        (definition.gates.getD []) results)) ∧
    ∀ subGate ∈ definition.gates.getD [], subGate.required ≠ some false →
      Denies outcomes definitions request definition subGate → result.decision = .deny

/-- If a required reference is denied, one that is the last to its gate is. -/
def LastRequired (outcomes : Outcomes) (definitions : Record String GateDefinition)
    (request : GateRequest) (definition : GateDefinition) : Prop :=
  ∀ subGate ∈ definition.gates.getD [], subGate.required ≠ some false →
    Denies outcomes definitions request definition subGate →
      ∃ last, LastReference (definition.gates.getD []) last ∧ last.required ≠ some false ∧
        Denies outcomes definitions request definition last

variable {results : List (Except String GateResult)}

theorem adjusted_decision (hmem : subGate ∈ definition.gates.getD [])
    (hcomes : Comes outcomes definitions request subGate.gateId outcome) (gateId : String) :
    ∃ last, last.gateId = subGate.gateId ∧ LastReference (definition.gates.getD []) last ∧
      (adjustResult (subGateMap (definition.gates.getD []))
        (CompositeRunner.subResult definition { request with gateId } subGate outcome)).decision =
          counted last (decisionOf definition.outputConfig.onFail outcome) := by
  obtain ⟨last, hlast⟩ := exists_lastReference hmem
  obtain ⟨hname, hreference⟩ := get_subGateMap.mp hlast
  refine ⟨last, hname, hreference, ?_⟩
  have hnamed : (CompositeRunner.subResult definition { request with gateId } subGate
      outcome).gateId = subGate.gateId :=
    subResult_named fun result hresult => by
      rw [hresult] at hcomes
      exact hcomes.named
  rw [adjustResult_decision (hnamed ▸ hlast), subResult_decision]

theorem Comes.subResults (h : Comes outcomes definitions request gateId outcome)
    (hget : get gateId definitions = some definition)
    (htype : definition.type = .composite) :
    ∃ results, List.Forall₂ (fun subGate => Comes outcomes definitions request
      (SubGateRef.gateId subGate)) (definition.gates.getD []) results := by
  obtain ⟨results, hends, _⟩ := (ends_branch (gateNode_composite hget htype)).mp
    (comes_iff_ends.mp h)
  exact ⟨results, (List.forall₂_map_left_iff.mp hends).imp fun _ _ => comes_iff_ends.mpr⟩

theorem denies_iff (hresults : List.Forall₂ (fun subGate => Comes outcomes definitions request
      (SubGateRef.gateId subGate)) (definition.gates.getD []) results)
    (hmem : subGate ∈ definition.gates.getD []) :
    Denies outcomes definitions request definition subGate ↔
      ∃ outcome, (subGate, outcome) ∈ (definition.gates.getD []).zip results ∧
        decisionOf definition.outputConfig.onFail outcome = .deny := by
  constructor
  · rintro ⟨outcome, hcomes, hdeny⟩
    obtain ⟨found, hfound⟩ := forall₂_of_mem hresults hmem
    rw [hcomes.unique (List.forall₂_zip hresults hfound)] at hdeny
    exact ⟨found, hfound, hdeny⟩
  · rintro ⟨outcome, hzip, hdeny⟩
    exact ⟨outcome, List.forall₂_zip hresults hzip, hdeny⟩

theorem mem_zipWith_iff {α β γ : Type} {f : α → β → γ} {as : List α} {bs : List β} {c : γ} :
    c ∈ List.zipWith f as bs ↔ ∃ a b, (a, b) ∈ as.zip bs ∧ f a b = c := by
  rw [← List.map_uncurry_zip_eq_zipWith, List.mem_map]
  exact Prod.exists

theorem counted_strictest_deny (hresults : List.Forall₂ (fun subGate => Comes outcomes definitions
      request (SubGateRef.gateId subGate)) (definition.gates.getD []) results) :
    strictest (Multiset.ofList (List.zipWith (fun subGate outcome =>
        counted subGate (decisionOf definition.outputConfig.onFail outcome))
      (definition.gates.getD []) results)) = .deny ↔
      ∃ subGate ∈ definition.gates.getD [], subGate.required ≠ some false ∧
        Denies outcomes definitions request definition subGate := by
  rw [strictest_eq_deny, mem_zipWith_iff]
  constructor
  · rintro ⟨subGate, outcome, hzip, hdeny⟩
    obtain ⟨hdecision, hrequired⟩ := counted_eq_deny.mp hdeny
    have hmem := (List.of_mem_zip hzip).1
    exact ⟨subGate, hmem, hrequired, (denies_iff hresults hmem).mpr ⟨outcome, hzip, hdecision⟩⟩
  · rintro ⟨subGate, hmem, hrequired, hdenies⟩
    obtain ⟨outcome, hzip, hdecision⟩ := (denies_iff hresults hmem).mp hdenies
    exact ⟨subGate, outcome, hzip, counted_eq_deny.mpr ⟨hdecision, hrequired⟩⟩

theorem adjusted_strictest_deny (hresults : List.Forall₂ (fun subGate => Comes outcomes definitions
      request (SubGateRef.gateId subGate)) (definition.gates.getD []) results) :
    strictest (Multiset.ofList (List.zipWith (fun subGate outcome =>
        (adjustResult (subGateMap (definition.gates.getD []))
          (CompositeRunner.subResult definition { request with gateId } subGate outcome)).decision)
      (definition.gates.getD []) results)) = .deny ↔
      ∃ last, LastReference (definition.gates.getD []) last ∧ last.required ≠ some false ∧
        Denies outcomes definitions request definition last := by
  rw [strictest_eq_deny, mem_zipWith_iff]
  constructor
  · rintro ⟨subGate, outcome, hzip, hdeny⟩
    have hcomes := List.forall₂_zip hresults hzip
    obtain ⟨last, hname, hlast, hcounted⟩ :=
      adjusted_decision (List.of_mem_zip hzip).1 hcomes gateId
    obtain ⟨hdecision, hrequired⟩ := counted_eq_deny.mp (hcounted ▸ hdeny)
    exact ⟨last, hlast, hrequired, outcome, hname ▸ hcomes, hdecision⟩
  · rintro ⟨last, hlast, hrequired, hdenies⟩
    have hmem : last ∈ definition.gates.getD [] := by
      obtain ⟨pre, post, hgates, _⟩ := hlast
      rw [hgates]
      exact List.mem_append_right _ List.mem_cons_self
    obtain ⟨outcome, hzip, hdecision⟩ := (denies_iff hresults hmem).mp hdenies
    obtain ⟨other, hname, hother, hcounted⟩ :=
      adjusted_decision hmem (List.forall₂_zip hresults hzip) gateId
    have hsame : other = last := by
      have hget := get_subGateMap.mpr ⟨hname, hother⟩
      rw [get_subGateMap.mpr ⟨rfl, hlast⟩] at hget
      exact (Option.some.inj hget).symm
    refine ⟨last, outcome, hzip, hcounted.trans (counted_eq_deny.mpr ⟨hdecision, ?_⟩)⟩
    rwa [hsame]

theorem adjusted_eq_counted (hresults : List.Forall₂ (fun subGate => Comes outcomes definitions
      request (SubGateRef.gateId subGate)) (definition.gates.getD []) results)
    (hnone : ¬ ∃ subGate ∈ definition.gates.getD [], subGate.required ≠ some false ∧
        Denies outcomes definitions request definition subGate) :
    List.zipWith (fun subGate outcome =>
        (adjustResult (subGateMap (definition.gates.getD []))
          (CompositeRunner.subResult definition { request with gateId } subGate outcome)).decision)
      (definition.gates.getD []) results =
    List.zipWith (fun subGate outcome =>
        counted subGate (decisionOf definition.outputConfig.onFail outcome))
      (definition.gates.getD []) results := by
  rw [← List.map_uncurry_zip_eq_zipWith, ← List.map_uncurry_zip_eq_zipWith]
  refine List.map_congr_left fun pair hpair => ?_
  obtain ⟨subGate, outcome⟩ := pair
  have hmem := (List.of_mem_zip hpair).1
  have hcomes := List.forall₂_zip hresults hpair
  obtain ⟨last, hname, hlast, hcounted⟩ := adjusted_decision hmem hcomes gateId
  refine hcounted.trans ?_
  dsimp only [Function.uncurry]
  by_cases hdeny : decisionOf definition.outputConfig.onFail outcome = .deny
  · -- a denial counts as `allow` through both references, which are optional
    have hoptional : ∀ other ∈ definition.gates.getD [], other.gateId = subGate.gateId →
        counted other (decisionOf definition.outputConfig.onFail outcome) = .allow := by
      intro other hother hsame
      refine if_pos ⟨by_contra fun hrequired => hnone ?_, hdeny⟩
      exact ⟨other, hother, hrequired, outcome, hsame ▸ hcomes, hdeny⟩
    have hlastMem : last ∈ definition.gates.getD [] := by
      obtain ⟨pre, post, hgates, _⟩ := hlast
      rw [hgates]
      exact List.mem_append_right _ List.mem_cons_self
    rw [hoptional last hlastMem hname, hoptional subGate hmem rfl]
  · rw [counted_of_ne hdeny, counted_of_ne hdeny]

/-- A composite gate ends and is decided by its required references exactly when its references
lead into no cycle and the last ones deny where required ones do. -/
theorem decidesByRequired_iff (hget : get gateId definitions = some definition)
    (htype : definition.type = .composite) :
    DecidesByRequired outcomes definitions request gateId definition ↔
      ¬ LeadsToCycle (RefersTo definitions) gateId ∧
        LastRequired outcomes definitions request definition := by
  constructor
  · rintro ⟨results, result, hresults, hcomes, _, hdenies⟩
    refine ⟨comes_iff_acyclic.mp ⟨_, hcomes⟩, fun subGate hmem hrequired hdenied => ?_⟩
    obtain ⟨found, hfound, hdecision⟩ := comes_of_subResults hget htype hresults
    have hsame := Except.ok.inj (hfound.unique hcomes)
    rw [hsame, hdenies subGate hmem hrequired hdenied] at hdecision
    exact (adjusted_strictest_deny hresults).mp hdecision.symm
  · rintro ⟨hacyclic, hlast⟩
    obtain ⟨outcome, houtcome⟩ := comes_iff_acyclic.mpr hacyclic
    obtain ⟨results, hresults⟩ := houtcome.subResults hget htype
    obtain ⟨result, hcomes, hdecision⟩ := comes_of_subResults hget htype hresults
    have hstrictest : result.decision = strictest (Multiset.ofList (List.zipWith
        (fun subGate outcome => counted subGate (decisionOf definition.outputConfig.onFail outcome))
          (definition.gates.getD []) results)) := by
      by_cases hdenied : ∃ subGate ∈ definition.gates.getD [], subGate.required ≠ some false ∧
          Denies outcomes definitions request definition subGate
      · obtain ⟨subGate, hmem, hrequired, hdenies⟩ := hdenied
        rw [(counted_strictest_deny hresults).mpr ⟨subGate, hmem, hrequired, hdenies⟩, hdecision,
          (adjusted_strictest_deny hresults).mpr (hlast subGate hmem hrequired hdenies)]
      · rw [hdecision, adjusted_eq_counted hresults hdenied]
    refine ⟨results, result, hresults, hcomes, hstrictest, fun subGate hmem hrequired hdenies => ?_⟩
    rw [hstrictest]
    exact (counted_strictest_deny hresults).mpr ⟨subGate, hmem, hrequired, hdenies⟩

end

end Newide.Gate
