import Newide.Gate.CommandRunner

/-!
# Coverage gates

What a report has to carry for a coverage gate to allow: a number for each
threshold that is set, in the field that its dialect has for it.
-/

namespace Newide.Gate.CommandRunner

open Hook Record

/-! ## The numbers of a report -/

def numberIn : Option Yaml → Option NumberValue
  | some (.number n) => if n.value = .nan then none else some n.value
  | _ => none

def rateIn (ports : OutputPorts) (rate : Yaml) : Option NumberValue :=
  (numberIn (some rate)).bind fun value =>
    if ports.times100 value = .nan then none else some (ports.times100 value)

def lineNumber (ports : OutputPorts) (data : Yaml) : Option NumberValue :=
  if truthy (data.get "totals") then
    numberIn (nullishOr (member (data.get "totals") "percent_covered")
      (member (data.get "totals") "covered_percent"))
  else if truthy (data.get "total") then
    numberIn (member (member (data.get "total") "lines") "pct")
  else match data.get "line_rate" with
    | some rate => rateIn ports rate
    | none => numberIn (nullishOr (data.get "line_coverage") (nullishOr (data.get "line_percent")
        (data.get "percent_covered")))

/-- The number a report carries for branch coverage; where a dialect does not track branches
separately it is that for lines. -/
def branchNumber (ports : OutputPorts) (data : Yaml) : Option NumberValue :=
  if truthy (data.get "totals") then lineNumber ports data
  else if truthy (data.get "total") then
    numberIn (member (member (data.get "total") "branches") "pct")
  else match data.get "branch_rate" with
    | some rate => rateIn ports rate
    | none =>
        match nullishOr (data.get "branch_coverage") (nullishOr (data.get "branch_percent") none) with
        | some value => numberIn (some value)
        | none => lineNumber ports data

/-- A number that is at least the threshold, if there is one. -/
def Reaches (number : Option NumberValue) (threshold : Option YamlNumber) : Prop :=
  ∀ limit ∈ threshold, ∃ value ∈ number, less ⟨value, ""⟩ limit = false

/-- The text is a report that carries enough coverage. -/
def Covers (ports : OutputPorts) (threshold : GateThreshold) (stdout : String) : Prop :=
  ∃ report, ports.parse stdout = some report ∧ Reaches (lineNumber ports report) threshold.line ∧
    Reaches (branchNumber ports report) threshold.branch

/-! ## What the gate compares -/

theorem less_congr {a b limit : YamlNumber} (h : a.value = b.value) : less a limit = less b limit := by
  unfold less
  rw [h]

variable {field : Option Yaml} {number : Option NumberValue} {threshold : Option YamlNumber}

theorem numberOrZero_value {ports : OutputPorts} {value : NumberValue}
    (h : numberIn field = some value) : (numberOrZero ports field).value = value := by
  unfold numberIn at h
  split at h
  · split at h
    · cases h
    · exact Option.some.inj h
  · cases h

theorem coerced_value {ports : OutputPorts} {value : NumberValue} {number : YamlNumber}
    (hcoerced : coerced ports field = some number) (h : numberIn field = some value) :
    number.value = value := by
  unfold numberIn at h
  split at h
  · split at h
    · cases h
    · rw [← Option.some.inj hcoerced]
      exact Option.some.inj h
  · cases h

section

variable {ports : OutputPorts} {data : Yaml} {coverage : CoverageData} {value : NumberValue}

theorem percentOf_rate {rate : Yaml} {otherwise percent : Option Yaml}
    (hpercent : percentOf ports (some rate) otherwise = some percent)
    (h : rateIn ports rate = some value) : numberIn percent = some value := by
  unfold rateIn at h
  obtain ⟨number, hnumber, hrate⟩ := Option.bind_eq_some_iff.mp h
  unfold numberIn at hnumber
  split at hnumber
  case h_2 => cases hnumber
  case h_1 n heq =>
    split at hnumber
    · cases hnumber
    · cases heq
      rw [← Option.some.inj hnumber] at hrate
      split at hrate
      · cases hrate
      · rename_i hnan
        rw [← Option.some.inj hpercent]
        unfold numberIn computed
        dsimp only
        rw [if_neg hnan]
        exact hrate

theorem genericCoverage_spec (h : (genericCoverage ports data).getD none = some coverage) :
    ∃ linePct branchPct,
      percentOf ports (data.get "line_rate") (nullishOr (data.get "line_coverage")
        (nullishOr (data.get "line_percent") (data.get "percent_covered"))) = some linePct ∧
      percentOf ports (data.get "branch_rate") (nullishOr (data.get "branch_coverage")
        (nullishOr (data.get "branch_percent")
          (nullishOr linePct (some (.number (computed ports (.finite 0))))))) = some branchPct ∧
      coerced ports linePct = some coverage.line ∧
      coerced ports (nullishOr branchPct (some (.number (computed ports (.finite 0))))) =
        some coverage.branch := by
  cases hgeneric : genericCoverage ports data with
  | none =>
      rw [hgeneric] at h
      cases h
  | some found =>
      rw [hgeneric] at h
      obtain rfl : found = some coverage := h
      unfold genericCoverage at hgeneric
      obtain ⟨linePct, hline, hgeneric⟩ := Option.bind_eq_some_iff.mp hgeneric
      obtain ⟨branchPct, hbranch, hgeneric⟩ := Option.bind_eq_some_iff.mp hgeneric
      by_cases hsome : linePct.isSome = true
      · rw [if_pos hsome] at hgeneric
        obtain ⟨line, hcoercedLine, hgeneric⟩ := Option.bind_eq_some_iff.mp hgeneric
        obtain ⟨branch, hcoercedBranch, hgeneric⟩ := Option.bind_eq_some_iff.mp hgeneric
        have hcoverage := Option.some.inj (Option.some.inj hgeneric)
        refine ⟨linePct, branchPct, hline, hbranch, ?_, ?_⟩
        · rw [hcoercedLine, ← hcoverage]
        · rw [hcoercedBranch, ← hcoverage]
      · rw [if_neg hsome] at hgeneric
        cases hgeneric

theorem nullishOr_assoc (a b c : Option Yaml) :
    nullishOr (nullishOr a b) c = nullishOr a (nullishOr b c) := by
  cases a with
  | none => rfl
  | some value => cases value <;> rfl

theorem nullishOr_of_some {a b : Option Yaml} {own : Yaml} (h : nullishOr a none = some own) :
    nullishOr a b = some own := by
  cases a with
  | none => cases h
  | some value => cases value <;> cases h <;> rfl

theorem nullishOr_of_none {a b : Option Yaml} (h : nullishOr a none = none) :
    nullishOr a b = b := by
  cases a with
  | none => rfl
  | some value => cases value <;> first | rfl | cases h

theorem nullishOr_of_number {other : Option Yaml} (h : numberIn field = some value) :
    nullishOr field other = field := by
  unfold numberIn at h
  split at h
  · rfl
  · cases h

theorem linePct_number {linePct : Option Yaml}
    (htotals : ¬ truthy (data.get "totals") = true) (htotal : ¬ truthy (data.get "total") = true)
    (hline : percentOf ports (data.get "line_rate") (nullishOr (data.get "line_coverage")
      (nullishOr (data.get "line_percent") (data.get "percent_covered"))) = some linePct)
    (h : lineNumber ports data = some value) : numberIn linePct = some value := by
  unfold lineNumber at h
  rw [if_neg htotals, if_neg htotal] at h
  cases hrate : data.get "line_rate" with
  | some rate =>
      rw [hrate] at h hline
      exact percentOf_rate hline h
  | none =>
      rw [hrate] at h hline
      rw [← Option.some.inj hline]
      exact h

theorem coverageOf_line (hcoverage : coverageOf ports data = some coverage)
    (h : lineNumber ports data = some value) : coverage.line.value = value := by
  unfold coverageOf at hcoverage
  by_cases htotals : truthy (data.get "totals") = true
  · rw [if_pos htotals] at hcoverage
    unfold lineNumber at h
    rw [if_pos htotals] at h
    rw [← Option.some.inj hcoverage]
    exact numberOrZero_value h
  · rw [if_neg htotals] at hcoverage
    by_cases htotal : truthy (data.get "total") = true
    · rw [if_pos htotal] at hcoverage
      unfold lineNumber at h
      rw [if_neg htotals, if_pos htotal] at h
      rw [← Option.some.inj hcoverage]
      exact numberOrZero_value h
    · rw [if_neg htotal] at hcoverage
      obtain ⟨linePct, _, hline, _, hcoerced, _⟩ := genericCoverage_spec hcoverage
      exact coerced_value hcoerced (linePct_number htotals htotal hline h)

theorem coverageOf_branch (hcoverage : coverageOf ports data = some coverage)
    (h : branchNumber ports data = some value) : coverage.branch.value = value := by
  unfold coverageOf at hcoverage
  unfold branchNumber at h
  by_cases htotals : truthy (data.get "totals") = true
  · rw [if_pos htotals] at hcoverage h
    unfold lineNumber at h
    rw [if_pos htotals] at h
    rw [← Option.some.inj hcoverage]
    refine numberOrZero_value ?_
    rw [← h]
    congr 1
    cases hpercent : member (data.get "totals") "percent_covered" with
    | none => rfl
    | some percent => cases percent <;> rfl
  · rw [if_neg htotals] at hcoverage h
    by_cases htotal : truthy (data.get "total") = true
    · rw [if_pos htotal] at hcoverage h
      rw [← Option.some.inj hcoverage]
      exact numberOrZero_value h
    · rw [if_neg htotal] at hcoverage h
      obtain ⟨linePct, branchPct, hline, hbranch, _, hcoerced⟩ := genericCoverage_spec hcoverage
      have hnumber : numberIn branchPct = some value := by
        cases hrate : data.get "branch_rate" with
        | some rate =>
            rw [hrate] at h hbranch
            exact percentOf_rate hbranch h
        | none =>
            rw [hrate] at h hbranch
            rw [← Option.some.inj hbranch]
            rw [← nullishOr_assoc] at h ⊢
            cases hown : nullishOr (nullishOr (data.get "branch_coverage")
                (data.get "branch_percent")) none with
            | some own =>
                rw [hown] at h
                rw [nullishOr_of_some hown]
                exact h
            | none =>
                rw [hown] at h
                have hlineNumber := linePct_number htotals htotal hline h
                rw [nullishOr_of_none hown, nullishOr_of_number hlineNumber]
                exact hlineNumber
      rw [nullishOr_of_number hnumber] at hcoerced
      exact coerced_value hcoerced hnumber

end

/-! ## When the gate allows -/

/-- A coverage threshold that nothing else softens. -/
structure CoverageSetup (definition : GateDefinition) : Prop where
  command : definition.command.getD "" ≠ ""
  format : definition.outputConfig.format = some .coverageJson
  onBelowThreshold : definition.outputConfig.onBelowThreshold = none

def thresholdOf (definition : GateDefinition) : GateThreshold :=
  definition.outputConfig.threshold.getD {}

/-- The severity map lets errors pass. -/
def AllowsErrors (definition : GateDefinition) : Prop :=
  definition.outputConfig.severityMap.bind (get "error") = some .allow

/-- One of the coverages compares below its threshold. -/
def ComparesBelow (definition : GateDefinition) (coverage : CoverageData) : Prop :=
  isBelow coverage.line (thresholdOf definition).line = true ∨
    isBelow coverage.branch (thresholdOf definition).branch = true

section

variable {ports : OutputPorts} {texts : RunnerTexts} {inherited : String → String}
  {gateId : String} {definition : GateDefinition} {request : GateRequest} {stdout stderr : String}

theorem mapSeverity_error {lower : String → String} (hlower : lower "error" = "error")
    (config : GateOutputConfig) : mapSeverity lower "error" config =
      some ((config.severityMap.bind (get "error")).getD .deny) := by
  have hown : "error" ∉ inheritedNames := by decide
  have hdefault : get "error" severityDefaults = some .deny := by decide
  unfold mapSeverity lookUp
  rw [hlower, hdefault, if_neg hown]
  cases config.severityMap with
  | none => rfl
  | some table =>
      dsimp only [Option.bind_some]
      cases get "error" table <;> rfl

theorem evaluateCoverage_allow (hsetup : CoverageSetup definition) (coverage : CoverageData) :
    (evaluateCoverage definition coverage).decision = .allow ↔
      ¬ ComparesBelow definition coverage := by
  unfold evaluateCoverage ComparesBelow
  dsimp only
  rw [← Bool.or_eq_true]
  unfold thresholdOf
  by_cases hbelow : (isBelow coverage.line (definition.outputConfig.threshold.getD {}).line ||
      isBelow coverage.branch (definition.outputConfig.threshold.getD {}).branch) = true
  · rw [if_pos hbelow]
    dsimp only
    rw [hsetup.onBelowThreshold]
    exact ⟨fun h => (by cases h), fun h => absurd hbelow h⟩
  · rw [if_neg hbelow]
    exact ⟨fun _ => hbelow, fun _ => rfl⟩

theorem run_coverage (hsetup : CoverageSetup definition) (hlower : texts.lower "error" = "error") :
    ∃ result, run ports texts inherited gateId definition request ⟨stdout, stderr, 0, false⟩ =
        .ok result ∧
      (result.decision = .allow ↔
        match (ports.parse stdout).bind (coverageOf ports) with
        | some coverage => ¬ ComparesBelow definition coverage
        | none => AllowsErrors definition) := by
  have hparsed : parseGateOutput ports stdout .coverageJson =
      match (ports.parse stdout).bind (coverageOf ports) with
      | some coverage => { coverage := some coverage }
      | none => { findings := [{
          severity := .string "error"
          message := .string "Failed to parse coverage output as JSON" }] } := rfl
  rw [run_formatted hsetup.command hsetup.format, evaluateWithFormat_parsed (by simp)
    fun hfailed => hfailed.1 rfl, hparsed]
  cases hcoverage : (ports.parse stdout).bind (coverageOf ports) with
  | some coverage => exact ⟨_, rfl, evaluateCoverage_allow hsetup coverage⟩
  | none =>
      dsimp only
      obtain ⟨verdict, hverdict, hdecision⟩ := @evaluateFindings_ok [{
          severity := .string "error"
          message := .string "Failed to parse coverage output as JSON" }]
          texts inherited definition fun finding hmem => by
        rw [List.mem_singleton.mp hmem]
        exact ⟨"error", rfl⟩
      rw [if_neg (by simp), hverdict]
      refine ⟨_, rfl, ?_⟩
      change verdict.decision = .allow ↔ _
      rw [hdecision, List.map_singleton]
      unfold findingDecision AllowsErrors
      dsimp only
      rw [mapSeverity_error hlower]
      cases definition.outputConfig.severityMap.bind (get "error") with
      | none => exact ⟨fun h => (by cases h), fun h => (by cases h)⟩
      | some decision =>
          cases decision <;> simp [strictest]

/-- The gate allows on sufficient coverage only. -/
def PassesOnCoverage (ports : OutputPorts) (texts : RunnerTexts) (inherited : String → String)
    (gateId : String) (definition : GateDefinition) (request : GateRequest)
    (stdout stderr : String) : Prop :=
  ∀ result, run ports texts inherited gateId definition request ⟨stdout, stderr, 0, false⟩ =
    .ok result → result.decision = .allow → Covers ports (thresholdOf definition) stdout

/-- A field with a threshold holds a number, unless a coverage compares below its threshold; and
errors are not let pass, unless the report carries the coverage that is asked for. -/
def Legible (ports : OutputPorts) (definition : GateDefinition) (stdout : String) : Prop :=
  (∀ report coverage, ports.parse stdout = some report → coverageOf ports report = some coverage →
    ¬ ComparesBelow definition coverage →
      ((thresholdOf definition).line.isSome → (lineNumber ports report).isSome) ∧
      ((thresholdOf definition).branch.isSome → (branchNumber ports report).isSome)) ∧
  ((ports.parse stdout).bind (coverageOf ports) = none → AllowsErrors definition →
    Covers ports (thresholdOf definition) stdout)

theorem reaches_of_not_below {coverage : YamlNumber} (hsome : threshold.isSome → number.isSome)
    (hvalue : ∀ value, number = some value → coverage.value = value)
    (hbelow : ¬ isBelow coverage threshold = true) : Reaches number threshold := by
  intro limit hlimit
  rw [Option.mem_def.mp hlimit] at hsome hbelow
  obtain ⟨value, hnumber⟩ := Option.isSome_iff_exists.mp (hsome rfl)
  refine ⟨value, hnumber, ?_⟩
  have hcongr : less coverage limit = less ⟨value, ""⟩ limit := less_congr (hvalue value hnumber)
  rw [← hcongr]
  exact Bool.eq_false_of_not_eq_true hbelow

theorem isSome_of_reaches (h : Reaches number threshold) (hsome : threshold.isSome) :
    number.isSome := by
  obtain ⟨limit, hlimit⟩ := Option.isSome_iff_exists.mp hsome
  obtain ⟨value, hvalue, _⟩ := h limit hlimit
  rw [Option.mem_def.mp hvalue]
  rfl

end

def coverageGate : GateDefinition where
  type := .command
  outputConfig :=
    { format := some .coverageJson
      threshold := some { line := some (.ofNat 80) } }
  retryThreshold := .ofNat 3
  command := some "npm run coverage"

def numericReport : String := "\x7b\"line_rate\":0.9\x7d"

def textReport : String := "\x7b\"line_rate\":\"n/a\"\x7d"

def twoReports : OutputPorts where
  parse text :=
    if text = numericReport then
      some (.object [("line_rate", .number ⟨.finite (9 / 10), "0.9"⟩)])
    else if text = textReport then some (.object [("line_rate", .string "n/a")])
    else none
  stringify _ := ""
  toNumber _ := .nan
  numberText value := if value = .nan then "NaN" else "90"
  times100
    | .finite q => .finite (q * 100)
    | other => other

end Newide.Gate.CommandRunner
