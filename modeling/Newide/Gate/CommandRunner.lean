import Newide.Foundation.Fallible
import Newide.Gate.OutputParser

/-!
# Command gates

`CommandRunner.run` of `src/gate/command-runner.ts`, on what running the
command came to.
-/

namespace Newide.Gate

open Hook Fallible

structure CommandOutcome where
  stdout : String
  stderr : String
  exitCode : Int
  /-- The command was killed, as it is at its timeout. -/
  timedOut : Bool

variable {coverage : CoverageData} {findings : List Finding}

namespace CommandRunner

/-- `pickStrictest`; what is no decision has no rank. -/
def pickStrictest (decisions : List (Option GateDecision)) : GateDecision :=
  decisions.foldl (fun worst decision =>
    match decision with
    | some d => if decisionRank d > decisionRank worst then d else worst
    | none => worst) .allow

/-- The text of a mapped severity; what an object inherits has one of its own. -/
def mappedText (inherited : String → String) (severity : String) : Option GateDecision → String
  | some decision => decision.text
  | none => inherited severity

def countSeverities (lower inherited : String → String) :
    List (String × Option GateDecision) → Record String (Nat × String)
  | [] => []
  | found => found.foldl (fun counts finding =>
      match Record.get (lower finding.1) counts with
      | some (count, mapped) => Record.set counts (lower finding.1) (count + 1, mapped)
      | none => Record.set counts (lower finding.1) (1, mappedText inherited finding.1 finding.2))
      []

def buildFindingsReason (lower inherited : String → String)
    (found : List (String × Option GateDecision)) (final : GateDecision) : String :=
  let breakdown := (countSeverities lower inherited found).map fun entry =>
    toString entry.2.1 ++ " " ++ entry.1 ++ "(→" ++ entry.2.2 ++ ")"
  toString found.length ++ " finding(s): " ++ ", ".intercalate breakdown ++
    ". Final decision: " ++ final.text ++ "."

/-- The severity of a finding as the text that `toLowerCase` is called on. -/
def severityText (finding : Finding) : Except String String :=
  match finding.severity with
  | .string severity => .ok severity
  | _ => .error "finding.severity.toLowerCase is not a function"

section

variable (ports : OutputPorts) (texts : RunnerTexts) (inherited : String → String)
  (gateId : String) (definition : GateDefinition) (request : GateRequest)

def belowText (name : String) (coverage : YamlNumber) : Option YamlNumber → List String
  | some threshold => [name ++ " " ++ coverage.text ++ "% < " ++ threshold.text ++ "%"]
  | none => []

/-- `threshold !== undefined && coverage < threshold`. -/
def isBelow (coverage : YamlNumber) (threshold : Option YamlNumber) : Bool :=
  threshold.any fun limit => less coverage limit

def evaluateCoverage (coverage : CoverageData) : Verdict :=
  let config := definition.outputConfig
  let threshold := config.threshold.getD {}
  if isBelow coverage.line threshold.line || isBelow coverage.branch threshold.branch then
    let decision := config.onBelowThreshold.getD .deny
    let parts := belowText "line" coverage.line threshold.line ++
      belowText "branch" coverage.branch threshold.branch
    { decision
      reason := "Coverage below threshold: " ++ ", ".intercalate parts ++ ". Decision: " ++
        decision.text ++ "."
      requiredActions := ["improve-coverage"] }
  else
    { decision := .allow
      reason := "Coverage meets thresholds (line: " ++ coverage.line.text ++ "%, branch: " ++
        coverage.branch.text ++ "%)." }

/-- The mapped severities of findings, unless one of them is no text. -/
def evaluateFindings (findings : List Finding) : Except String Verdict := do
  let severities ← findings.mapM severityText
  let found := severities.map fun severity =>
    (severity, mapSeverity texts.lower severity definition.outputConfig)
  let strictest := pickStrictest (found.map Prod.snd)
  .ok {
    decision := strictest
    reason := buildFindingsReason texts.lower inherited found strictest
    requiredActions := if strictest = .allow then [] else ["inspect-gate-findings"] }

def evaluateWithFormat (outcome : CommandOutcome) (format : GateOutputFormat) :
    Except String Verdict :=
  if outcome.timedOut then
    .ok {
      decision := definition.onFail
      reason := "Command timed out. Format-driven evaluation skipped."
      requiredActions := ["inspect-logs"] }
  else if outcome.exitCode ≠ 0 ∧ trim outcome.stdout.toList = [] then
    .ok {
      decision := definition.onFail
      reason := "Command failed with exit code " ++ toString outcome.exitCode ++
        " and produced no stdout."
      requiredActions := ["inspect-logs"] }
  else
    let parsed := parseGateOutput ports outcome.stdout format
    match parsed.coverage with
    | some coverage => .ok (evaluateCoverage definition coverage)
    | none =>
        if parsed.findings.isEmpty then
          .ok {
            decision := .allow
            reason := format.name ++ " output contained no findings. Exit code: " ++
              toString outcome.exitCode ++ "." }
        else evaluateFindings texts inherited definition parsed.findings

/-- `run`, or the error it rejects with. -/
def run (outcome : CommandOutcome) : Except String GateResult :=
  if definition.command.getD "" = "" then
    .ok (buildResult gateId request {
      decision := .deny
      reason := "CommandRunner failed: No command specified in definition." })
  else match definition.outputConfig.format with
    | some format =>
        (evaluateWithFormat ports texts inherited definition outcome format).map
          (buildResult gateId request)
    | none =>
        if outcome.exitCode = 0 ∧ outcome.timedOut = false then
          .ok (buildResult gateId request {
            decision := .allow
            reason := "Command executed successfully." })
        else
          .ok (buildResult gateId request {
            decision := definition.onFail
            reason :=
              if outcome.timedOut then "Command timed out after " ++
                texts.inMs (definition.timeout.getD request.timeout) ++ "ms."
              else "Command execution failed with exit code " ++ toString outcome.exitCode ++
                ". Stderr: " ++ String.ofList (outcome.stderr.toList.take 500)
            requiredActions := ["inspect-logs"] })

end

/-! ## What was found -/

/-- What the output of a command accounts for: nothing without a format or after a failure
without output. -/
def accounted (ports : OutputPorts) (config : GateOutputConfig) (outcome : CommandOutcome) :
    ParsedGateOutput :=
  match config.format with
  | none => {}
  | some format =>
      if outcome.exitCode ≠ 0 ∧ trim outcome.stdout.toList = [] then {}
      else parseGateOutput ports outcome.stdout format

/-- What a finding is mapped to; what is no decision counts as none. -/
def findingDecision (lower : String → String) (config : GateOutputConfig) (finding : Finding) :
    GateDecision :=
  match finding.severity with
  | .string severity => (mapSeverity lower severity config).getD .allow
  | _ => .allow

def HasSeverity (finding : Finding) : Prop := ∃ severity, finding.severity = .string severity

theorem pickStrictest_eq (decisions : List (Option GateDecision)) :
    pickStrictest decisions =
      strictest (Multiset.ofList (decisions.map fun decision => decision.getD .allow)) := by
  suffices hfold : ∀ worst, decisions.foldl (fun worst decision =>
      match decision with
      | some d => if decisionRank d > decisionRank worst then d else worst
      | none => worst) worst =
        worst ⊔ strictest (Multiset.ofList (decisions.map fun decision => decision.getD .allow)) by
    exact (hfold .allow).trans (bot_sup_eq _)
  induction decisions with
  | nil => exact fun worst => (sup_bot_eq _).symm
  | cons decision rest ih =>
      intro worst
      rw [List.foldl_cons, ih, List.map_cons, ← Multiset.cons_coe, strictest_cons, ← sup_assoc]
      congr 1
      cases decision with
      | none => exact (sup_bot_eq _).symm
      | some d =>
          dsimp only [Option.getD_some]
          by_cases hlt : decisionRank d > decisionRank worst
          · rw [if_pos hlt]
            exact (sup_eq_right.mpr (le_iff_rank.mpr (Nat.le_of_lt hlt))).symm
          · rw [if_neg hlt]
            exact (sup_eq_left.mpr (le_iff_rank.mpr (Nat.not_lt.mp hlt))).symm

theorem severityText_eq_ok {finding : Finding} {severity : String} :
    severityText finding = .ok severity ↔ finding.severity = .string severity := by
  unfold severityText
  cases finding.severity <;> simp

theorem mapM_severityText (h : ∀ finding ∈ findings, HasSeverity finding) (lower : String → String)
    (config : GateOutputConfig) :
    ∃ severities, findings.mapM severityText = .ok severities ∧
      (severities.map fun severity => (mapSeverity lower severity config).getD .allow) =
        findings.map (findingDecision lower config) := by
  induction findings with
  | nil => exact ⟨[], rfl, rfl⟩
  | cons finding rest ih =>
      obtain ⟨severity, hseverity⟩ := h finding List.mem_cons_self
      obtain ⟨severities, hrest, hmap⟩ := ih fun other hother => h other (List.mem_cons_of_mem _ hother)
      refine ⟨severity :: severities, ?_, ?_⟩
      · rw [List.mapM_cons, severityText_eq_ok.mpr hseverity, hrest]
        rfl
      · rw [List.map_cons, List.map_cons, hmap]
        unfold findingDecision
        rw [hseverity]

theorem evaluateFindings_ok {texts : RunnerTexts} {inherited : String → String}
    {definition : GateDefinition} (h : ∀ finding ∈ findings, HasSeverity finding) :
    ∃ verdict, evaluateFindings texts inherited definition findings = .ok verdict ∧
      verdict.decision = strictest (Multiset.ofList
        (findings.map (findingDecision texts.lower definition.outputConfig))) := by
  obtain ⟨severities, hread, hmap⟩ := mapM_severityText h texts.lower definition.outputConfig
  unfold evaluateFindings
  rw [hread]
  refine ⟨_, rfl, ?_⟩
  dsimp only
  rw [pickStrictest_eq, List.map_map, List.map_map, ← hmap]
  rfl

theorem evaluateFindings_error {texts : RunnerTexts} {inherited : String → String}
    {definition : GateDefinition} {verdict : Verdict}
    (h : evaluateFindings texts inherited definition findings = .ok verdict) :
    ∀ finding ∈ findings, HasSeverity finding := by
  unfold evaluateFindings at h
  obtain ⟨severities, hread, _⟩ := bind_eq_ok.mp h
  intro finding hmem
  obtain ⟨severity, _, hseverity⟩ := mapM_mem_ok hread hmem
  exact ⟨severity, severityText_eq_ok.mp hseverity⟩

theorem findings_of_coverage {ports : OutputPorts} {stdout : String} {format : GateOutputFormat}
    (h : (parseGateOutput ports stdout format).coverage = some coverage) :
    (parseGateOutput ports stdout format).findings = [] := by
  cases format with
  | coverageJson =>
      unfold parseGateOutput parseCoverageJson at h ⊢
      dsimp only at h ⊢
      cases hcoverage : (ports.parse stdout).bind (coverageOf ports) with
      | some coverage => rfl
      | none =>
          rw [hcoverage] at h
          cases h
  | _ => cases h

section

variable {ports : OutputPorts} {texts : RunnerTexts} {inherited : String → String}
  {gateId : String} {definition : GateDefinition} {request : GateRequest}
  {outcome : CommandOutcome}

/-- A run that returns, denies a command that failed for no reason found, and otherwise decides by
what was found. -/
def FailsClosed (ports : OutputPorts) (texts : RunnerTexts) (inherited : String → String)
    (gateId : String) (definition : GateDefinition) (request : GateRequest)
    (outcome : CommandOutcome) : Prop :=
  ∃ result, run ports texts inherited gateId definition request outcome = .ok result ∧
    (outcome.timedOut = true ∨ (outcome.exitCode ≠ 0 ∧
        (accounted ports definition.outputConfig outcome).findings = [] ∧
        (accounted ports definition.outputConfig outcome).coverage = none) →
      result.decision = definition.onFail) ∧
    (outcome.timedOut = false →
      (accounted ports definition.outputConfig outcome).findings ≠ [] →
        result.decision = strictest (Multiset.ofList
          ((accounted ports definition.outputConfig outcome).findings.map
            (findingDecision texts.lower definition.outputConfig))))

/-- The command failed, but printed something in the format of the gate in which nothing is found. -/
def FailsUnseen (ports : OutputPorts) (config : GateOutputConfig) (outcome : CommandOutcome) :
    Prop :=
  outcome.exitCode ≠ 0 ∧ config.format.isSome ∧ trim outcome.stdout.toList ≠ [] ∧
    (accounted ports config outcome).findings = [] ∧
    (accounted ports config outcome).coverage = none

/-- Every severity found is a text, and no failure goes unseen unless failures are allowed. -/
def Accountable (ports : OutputPorts) (definition : GateDefinition) (outcome : CommandOutcome) :
    Prop :=
  outcome.timedOut = true ∨
    ((∀ finding ∈ (accounted ports definition.outputConfig outcome).findings,
        HasSeverity finding) ∧
      (FailsUnseen ports definition.outputConfig outcome → definition.onFail = .allow))

theorem failsClosed_of_run {result : GateResult}
    (hrun : run ports texts inherited gateId definition request outcome = .ok result) :
    FailsClosed ports texts inherited gateId definition request outcome ↔
      (outcome.timedOut = true ∨ (outcome.exitCode ≠ 0 ∧
          (accounted ports definition.outputConfig outcome).findings = [] ∧
          (accounted ports definition.outputConfig outcome).coverage = none) →
        result.decision = definition.onFail) ∧
      (outcome.timedOut = false →
        (accounted ports definition.outputConfig outcome).findings ≠ [] →
          result.decision = strictest (Multiset.ofList
            ((accounted ports definition.outputConfig outcome).findings.map
              (findingDecision texts.lower definition.outputConfig)))) := by
  constructor
  · rintro ⟨other, hother, h⟩
    rwa [Except.ok.inj (hrun.symm.trans hother)]
  · exact fun h => ⟨result, hrun, h⟩

theorem failsClosed_unformatted (hcommand : definition.command.getD "" ≠ "")
    (hformat : definition.outputConfig.format = none) :
    FailsClosed ports texts inherited gateId definition request outcome := by
  have hnothing : accounted ports definition.outputConfig outcome = {} := by
    unfold accounted
    rw [hformat]
  by_cases hsuccess : outcome.exitCode = 0 ∧ outcome.timedOut = false
  · have hrun : run ports texts inherited gateId definition request outcome = .ok (buildResult gateId
        request { decision := .allow, reason := "Command executed successfully." }) := by
      unfold run
      rw [if_neg hcommand, hformat]
      exact if_pos hsuccess
    refine (failsClosed_of_run hrun).mpr ⟨?_, ?_⟩
    · rintro (htimeout | ⟨hexit, _⟩)
      · cases hsuccess.2.symm.trans htimeout
      · exact absurd hsuccess.1 hexit
    · rw [hnothing]
      exact fun _ hfound => absurd rfl hfound
  · unfold FailsClosed run
    rw [if_neg hcommand, hformat]
    dsimp only
    rw [if_neg hsuccess, hnothing]
    exact ⟨_, rfl, fun _ => rfl, fun _ hfound => absurd rfl hfound⟩

variable {format : GateOutputFormat}

theorem accounted_eq (hformat : definition.outputConfig.format = some format)
    (houtput : ¬ (outcome.exitCode ≠ 0 ∧ trim outcome.stdout.toList = [])) :
    accounted ports definition.outputConfig outcome =
      parseGateOutput ports outcome.stdout format := by
  unfold accounted
  rw [hformat]
  exact if_neg houtput

theorem run_formatted (hcommand : definition.command.getD "" ≠ "")
    (hformat : definition.outputConfig.format = some format) :
    run ports texts inherited gateId definition request outcome =
      (evaluateWithFormat ports texts inherited definition outcome format).map
        (buildResult gateId request) := by
  unfold run
  rw [if_neg hcommand, hformat]

theorem failsClosed_early (hcommand : definition.command.getD "" ≠ "")
    (hformat : definition.outputConfig.format = some format)
    (h : outcome.timedOut = true ∨ outcome.exitCode ≠ 0 ∧ trim outcome.stdout.toList = []) :
    FailsClosed ports texts inherited gateId definition request outcome := by
  have hverdict : ∃ verdict : Verdict, evaluateWithFormat ports texts inherited definition outcome
      format = .ok verdict ∧ verdict.decision = definition.onFail := by
    unfold evaluateWithFormat
    by_cases htimeout : outcome.timedOut = true
    · rw [if_pos htimeout]
      exact ⟨_, rfl, rfl⟩
    · rw [if_neg htimeout, if_pos (h.resolve_left htimeout)]
      exact ⟨_, rfl, rfl⟩
  obtain ⟨verdict, heval, hfail⟩ := hverdict
  refine ⟨buildResult gateId request verdict, ?_, fun _ => hfail, fun hnot hfound => ?_⟩
  · rw [run_formatted hcommand hformat, heval]
    rfl
  · have hblank := h.resolve_left (by simp [hnot])
    refine absurd ?_ hfound
    unfold accounted
    rw [hformat]
    dsimp only
    rw [if_pos hblank]

end

section

variable {ports : OutputPorts} {texts : RunnerTexts} {inherited : String → String}
  {gateId : String} {definition : GateDefinition} {request : GateRequest}
  {outcome : CommandOutcome} {format : GateOutputFormat}

theorem evaluateWithFormat_parsed (htimeout : ¬ outcome.timedOut = true)
    (houtput : ¬ (outcome.exitCode ≠ 0 ∧ trim outcome.stdout.toList = [])) :
    evaluateWithFormat ports texts inherited definition outcome format =
      match (parseGateOutput ports outcome.stdout format).coverage with
      | some coverage => .ok (evaluateCoverage definition coverage)
      | none =>
          if (parseGateOutput ports outcome.stdout format).findings.isEmpty then
            .ok {
              decision := .allow
              reason := format.name ++ " output contained no findings. Exit code: " ++
                toString outcome.exitCode ++ "." }
          else evaluateFindings texts inherited definition
            (parseGateOutput ports outcome.stdout format).findings := by
  unfold evaluateWithFormat
  rw [if_neg htimeout, if_neg houtput]

theorem failsClosed_coverage (hcommand : definition.command.getD "" ≠ "")
    (hformat : definition.outputConfig.format = some format) (htimeout : ¬ outcome.timedOut = true)
    (houtput : ¬ (outcome.exitCode ≠ 0 ∧ trim outcome.stdout.toList = []))
    (hcoverage : (parseGateOutput ports outcome.stdout format).coverage = some coverage) :
    FailsClosed ports texts inherited gateId definition request outcome ∧
      Accountable ports definition outcome := by
  have hfindings := findings_of_coverage hcoverage
  have haccounted : accounted ports definition.outputConfig outcome =
      parseGateOutput ports outcome.stdout format := accounted_eq hformat houtput
  refine ⟨⟨buildResult gateId request (evaluateCoverage definition coverage), ?_, ?_, ?_⟩, .inr ⟨?_, ?_⟩⟩
  · rw [run_formatted hcommand hformat, evaluateWithFormat_parsed htimeout houtput, hcoverage]
    rfl
  · rintro (htimeout' | ⟨_, _, hnone⟩)
    · exact absurd htimeout' htimeout
    · rw [haccounted, hcoverage] at hnone
      cases hnone
  · rw [haccounted]
    exact fun _ hfound => absurd hfindings hfound
  · rw [haccounted, hfindings]
    exact fun finding hmem => (by cases hmem)
  · rintro ⟨_, _, _, _, hnone⟩
    rw [haccounted, hcoverage] at hnone
    cases hnone

theorem failsClosed_nothing (hcommand : definition.command.getD "" ≠ "")
    (hformat : definition.outputConfig.format = some format)
    (htimeout : ¬ outcome.timedOut = true)
    (houtput : ¬ (outcome.exitCode ≠ 0 ∧ trim outcome.stdout.toList = []))
    (hcoverage : (parseGateOutput ports outcome.stdout format).coverage = none)
    (hfindings : (parseGateOutput ports outcome.stdout format).findings = []) :
    FailsClosed ports texts inherited gateId definition request outcome ↔
      Accountable ports definition outcome := by
  have haccounted : accounted ports definition.outputConfig outcome =
      parseGateOutput ports outcome.stdout format := accounted_eq hformat houtput
  have hrun : ∃ result, run ports texts inherited gateId definition request outcome = .ok result ∧
      result.decision = .allow := by
    rw [run_formatted hcommand hformat, evaluateWithFormat_parsed htimeout houtput, hcoverage,
      hfindings]
    exact ⟨_, rfl, rfl⟩
  obtain ⟨result, hrun, hallow⟩ := hrun
  rw [failsClosed_of_run hrun, hallow, haccounted, hcoverage, hfindings]
  unfold Accountable FailsUnseen
  rw [haccounted, hcoverage, hfindings, hformat]
  constructor
  · rintro ⟨hfail, _⟩
    exact .inr ⟨fun _ hmem => (by cases hmem),
      fun hunseen => (hfail (.inr ⟨hunseen.1, rfl, rfl⟩)).symm⟩
  · rintro (htimeout' | ⟨_, hunseen⟩)
    · exact absurd htimeout' htimeout
    · refine ⟨?_, fun _ hfound => absurd rfl hfound⟩
      rintro (htimeout' | ⟨hexit, _⟩)
      · exact absurd htimeout' htimeout
      · exact (hunseen ⟨hexit, rfl, fun hblank => houtput ⟨hexit, hblank⟩, rfl, rfl⟩).symm

theorem failsClosed_findings (hcommand : definition.command.getD "" ≠ "")
    (hformat : definition.outputConfig.format = some format)
    (htimeout : ¬ outcome.timedOut = true)
    (houtput : ¬ (outcome.exitCode ≠ 0 ∧ trim outcome.stdout.toList = []))
    (hcoverage : (parseGateOutput ports outcome.stdout format).coverage = none)
    (hfindings : (parseGateOutput ports outcome.stdout format).findings ≠ []) :
    FailsClosed ports texts inherited gateId definition request outcome ↔
      Accountable ports definition outcome := by
  have haccounted : accounted ports definition.outputConfig outcome =
      parseGateOutput ports outcome.stdout format := accounted_eq hformat houtput
  have hrun : run ports texts inherited gateId definition request outcome =
      (evaluateFindings texts inherited definition
        (parseGateOutput ports outcome.stdout format).findings).map (buildResult gateId request) := by
    rw [run_formatted hcommand hformat, evaluateWithFormat_parsed htimeout houtput, hcoverage]
    dsimp only
    rw [if_neg fun hempty => hfindings (List.isEmpty_iff.mp hempty)]
  constructor
  · rintro ⟨result, hok, _⟩
    rw [hrun] at hok
    obtain ⟨verdict, hverdict, _⟩ := mapped_eq_ok.mp hok
    refine .inr ⟨?_, ?_⟩
    · rw [haccounted]
      exact evaluateFindings_error hverdict
    · rintro ⟨_, _, _, hnone, _⟩
      rw [haccounted] at hnone
      exact absurd hnone hfindings
  · rintro (htimeout' | ⟨hseverities, _⟩)
    · exact absurd htimeout' htimeout
    · rw [haccounted] at hseverities
      obtain ⟨verdict, hverdict, hdecision⟩ :=
        @evaluateFindings_ok _ texts inherited definition hseverities
      refine ⟨buildResult gateId request verdict, ?_, ?_, fun _ _ => ?_⟩
      · rw [hrun, hverdict]
        rfl
      · rintro (htimeout' | ⟨_, hnone, _⟩)
        · exact absurd htimeout' htimeout
        · rw [haccounted] at hnone
          exact absurd hnone hfindings
      · rw [haccounted]
        exact hdecision

end

/-- A command gate fails closed exactly when every severity it finds is a text and no failure of
the command goes unseen, unless failures are allowed. -/
theorem command_gate_fails_closed_iff (ports : OutputPorts) (texts : RunnerTexts)
    (inherited : String → String) (gateId : String) (definition : GateDefinition)
    (request : GateRequest) (outcome : CommandOutcome)
    (hcommand : definition.command.getD "" ≠ "") :
    FailsClosed ports texts inherited gateId definition request outcome ↔
      Accountable ports definition outcome := by
  cases hformat : definition.outputConfig.format with
  | none =>
      refine ⟨fun _ => .inr ⟨fun finding hmem => ?_, ?_⟩,
        fun _ => failsClosed_unformatted hcommand hformat⟩
      · unfold accounted at hmem
        rw [hformat] at hmem
        cases hmem
      · rintro ⟨_, hsome, _⟩
        rw [hformat] at hsome
        cases hsome
  | some format =>
      by_cases hearly : outcome.timedOut = true ∨
          outcome.exitCode ≠ 0 ∧ trim outcome.stdout.toList = []
      · refine ⟨fun _ => ?_, fun _ => failsClosed_early hcommand hformat hearly⟩
        rcases hearly with htimeout | hblank
        · exact .inl htimeout
        · refine .inr ⟨fun finding hmem => ?_, fun hunseen => absurd hblank.2 hunseen.2.2.1⟩
          unfold accounted at hmem
          rw [hformat] at hmem
          dsimp only at hmem
          rw [if_pos hblank] at hmem
          cases hmem
      · obtain ⟨htimeout, houtput⟩ := not_or.mp hearly
        cases hcoverage : (parseGateOutput ports outcome.stdout format).coverage with
        | some coverage =>
            have hboth : FailsClosed ports texts inherited gateId definition request outcome ∧
                Accountable ports definition outcome :=
              failsClosed_coverage hcommand hformat htimeout houtput hcoverage
            exact ⟨fun _ => hboth.2, fun _ => hboth.1⟩
        | none =>
            by_cases hfindings : (parseGateOutput ports outcome.stdout format).findings = []
            · exact failsClosed_nothing hcommand hformat htimeout houtput hcoverage hfindings
            · exact failsClosed_findings hcommand hformat htimeout houtput hcoverage hfindings

def testGate : GateDefinition where
  type := .command
  outputConfig := { format := some .text }
  retryThreshold := .ofNat 3
  command := some "npm test"

def testRequest : GateRequest := ⟨"test", "pre_commit", "r1", "s1", .ofNat 50, .ofNat 30, []⟩

def testTexts : RunnerTexts := ⟨id, fun _ => "4", fun _ => "30000"⟩

/-- A platform on which no text is JSON. -/
def noJson : OutputPorts where
  parse _ := none
  stringify _ := ""
  toNumber _ := .nan
  numberText _ := ""
  times100 value := value

theorem command_gate_fails_closed_silent :
    FailsClosed noJson testTexts id "test" testGate testRequest ⟨"", "", 1, false⟩ ↔
      Accountable noJson testGate ⟨"", "", 1, false⟩ :=
  command_gate_fails_closed_iff noJson testTexts id "test" testGate testRequest _ (by decide)

/-- A command fails with a message, and the gate allows. -/
theorem command_gate_allows_failure : ¬ ∀ (ports : OutputPorts) (texts : RunnerTexts)
    (inherited : String → String) (gateId : String) (definition : GateDefinition)
    (request : GateRequest) (outcome : CommandOutcome), definition.command.getD "" ≠ "" →
      FailsClosed ports texts inherited gateId definition request outcome := by
  intro h
  obtain ⟨result, hrun, hfails, _⟩ := h noJson testTexts id "test" testGate testRequest
    ⟨"1 test failed", "", 1, false⟩ (by decide)
  have hallows : (run noJson testTexts id "test" testGate testRequest
      ⟨"1 test failed", "", 1, false⟩).map GateResult.decision = .ok .allow := by
    decide +kernel
  rw [hrun] at hallows
  have hdeny := hfails (.inr ⟨by decide, by decide +kernel, by decide +kernel⟩)
  cases (Except.ok.inj hallows).symm.trans hdeny

end CommandRunner

end Newide.Gate
