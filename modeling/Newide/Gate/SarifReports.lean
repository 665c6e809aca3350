import Mathlib.Data.List.Forall2
import Newide.Gate.JunitReports

/-!
# SARIF reports

What `parseSarif` finds in a SARIF log.  A rule is looked up by its id, and
the text of an index is looked up as if it were one.
-/

namespace Newide.Gate.Sarif

open Hook

/-! ## Logs -/

def OptionalText (field : Option Yaml) : Prop := field = none ∨ ∃ text, field = some (.string text)

/-- A field that is left out, `null` or a list. -/
def OptionalList (field : Option Yaml) : Prop :=
  field = none ∨ field = some .null ∨ ∃ items, field = some (.array items)

def listIn : Option Yaml → List Yaml
  | some (.array items) => items
  | _ => []

structure IsRule (rule : Yaml) : Prop where
  id : ∃ id, rule.get "id" = some (.string id)
  level : OptionalText (member (rule.get "defaultConfiguration") "level")

structure IsResult (result : Yaml) : Prop where
  level : OptionalText (result.get "level")
  ruleId : OptionalText (result.get "ruleId")
  ruleIndex : result.get "ruleIndex" = none ∨
    ∃ i : Int, result.get "ruleIndex" = some (.number ⟨.finite i, toString i⟩)

def rulesField (run : Yaml) : Option Yaml :=
  member (member (member (some run) "tool") "driver") "rules"

structure IsRun (run : Yaml) : Prop where
  rules : OptionalList (rulesField run)
  results : OptionalList (run.get "results")
  eachRule : ∀ rule ∈ listIn (rulesField run), IsRule rule
  eachResult : ∀ result ∈ listIn (run.get "results"), IsResult result

structure IsSarif (log : Yaml) : Prop where
  runs : OptionalList (log.get "runs")
  eachRun : ∀ run ∈ listIn (log.get "runs"), IsRun run

def resultsOf (log : Yaml) : List (List Yaml × Yaml) :=
  (listIn (log.get "runs")).flatMap fun run =>
    (listIn (run.get "results")).map fun result => (listIn (rulesField run), result)

/-! ## Severities -/

def defaultLevel (rule : Yaml) : Yaml :=
  (member (rule.get "defaultConfiguration") "level").getD (.string "warning")

def NamedById (rules : List Yaml) (result rule : Yaml) : Prop :=
  rule ∈ rules ∧ ∃ id, rule.get "id" = some (.string id) ∧ result.get "ruleId" = some (.string id)

def NamedByIndex (rules : List Yaml) (result rule : Yaml) : Prop :=
  ∃ i : Nat, (∃ text, result.get "ruleIndex" = some (.number ⟨.finite i, text⟩)) ∧
    rules[i]? = some rule

/-- The level of a result, else the default level of the rule that it names by id or by index,
else `warning`. -/
def SeverityOf (rules : List Yaml) (result severity : Yaml) : Prop :=
  match result.get "level" with
  | some level => severity = level
  | none =>
      (∃ rule, NamedById rules result rule ∧ severity = defaultLevel rule) ∨
        (¬ ∃ rule, NamedById rules result rule) ∧
          ((∃ rule, NamedByIndex rules result rule ∧ severity = defaultLevel rule) ∨
            (¬ ∃ rule, NamedByIndex rules result rule) ∧ severity = .string "warning")

def hasId (text : String) (rule : Yaml) : Bool :=
  match rule.get "id" with
  | some (.string id) => decide (id = text)
  | _ => false

def levelFor (rules : List Yaml) (text : String) : Option Yaml :=
  (rules.reverse.find? (hasId text)).map defaultLevel

def indexText (result : Yaml) : String :=
  match result.get "ruleIndex" with
  | some (.number n) => n.text
  | _ => "-1"

/-- The result has a level, or names a rule by an id that is not empty, or else the rule whose id
is the text of its index has the level that is asked for. -/
def Resolves (rules : List Yaml) (result : Yaml) : Prop :=
  (result.get "level").isSome ∨
    (∃ id, id ≠ "" ∧ result.get "ruleId" = some (.string id) ∧
      ∃ rule ∈ rules, rule.get "id" = some (.string id)) ∨
    SeverityOf rules result ((levelFor rules (indexText result)).getD (.string "warning"))

/-! ## What the source looks up -/

def ruleEntry (rule : Yaml) : Option (Yaml × Yaml) :=
  match rule.get "id" with
  | some id =>
      if truthy (some id) then
        (nullishOr (member (rule.get "defaultConfiguration") "level")
          (some (.string "warning"))).map fun level => (id, level)
      else none
  | none => none

variable {rules : List Yaml} {rule result : Yaml}

theorem ruleEntry_eq {id : String} (hrule : IsRule rule)
    (hid : rule.get "id" = some (.string id)) :
    ruleEntry rule = if id = "" then none else some (.string id, defaultLevel rule) := by
  unfold ruleEntry defaultLevel
  rw [hid]
  dsimp only
  by_cases hempty : id = ""
  · rw [if_pos hempty, hempty]
    rfl
  · have htruthy : truthy (some (.string id)) = true := decide_eq_true hempty
    rw [if_neg hempty, if_pos htruthy]
    rcases hrule.level with hnone | ⟨text, hsome⟩
    · rw [hnone]
      rfl
    · rw [hsome]
      rfl

theorem find_entry {entries : List Yaml} (hrules : ∀ rule ∈ entries, IsRule rule) (text : String) :
    ((entries.filterMap ruleEntry).find? fun entry => sameKey entry.1 (.string text)).map Prod.snd =
      if text = "" then none else (entries.find? (hasId text)).map defaultLevel := by
  induction entries with
  | nil =>
      rw [List.filterMap_nil, List.find?_nil, List.find?_nil]
      exact (ite_self none).symm
  | cons rule entries ih =>
      have hrest := ih fun other hmem => hrules other (List.mem_cons_of_mem rule hmem)
      have hrule := hrules rule List.mem_cons_self
      obtain ⟨id, hid⟩ := hrule.id
      have hhas : hasId text rule = decide (id = text) := by
        unfold hasId
        rw [hid]
      rw [List.filterMap_cons, ruleEntry_eq hrule hid, List.find?_cons, hhas]
      by_cases hempty : id = ""
      · rw [if_pos hempty]
        dsimp only
        rw [hrest]
        by_cases htext : text = ""
        · rw [if_pos htext, if_pos htext]
        · have hne : decide (id = text) = false :=
            decide_eq_false fun heq => htext (heq.symm.trans hempty)
          rw [if_neg htext, if_neg htext, hne]
      · rw [if_neg hempty]
        dsimp only
        rw [List.find?_cons]
        by_cases heq : id = text
        · have hsame : sameKey (.string id) (.string text) = true := decide_eq_true heq
          have htext : text ≠ "" := fun h => hempty (heq.trans h)
          rw [hsame, decide_eq_true heq, if_neg htext]
          rfl
        · have hsame : sameKey (.string id) (.string text) = false := decide_eq_false heq
          rw [hsame, decide_eq_false heq]
          exact hrest

theorem getRule_eq (hrules : ∀ rule ∈ rules, IsRule rule) (text : String) :
    getRule (rules.filterMap ruleEntry) (.string text) =
      if text = "" then none else levelFor rules text := by
  unfold getRule levelFor
  rw [← List.filterMap_reverse]
  exact find_entry (fun rule hmem => hrules rule (List.mem_reverse.mp hmem)) text

theorem defaultLevel_text (hrule : IsRule rule) : ∃ text, defaultLevel rule = .string text := by
  unfold defaultLevel
  rcases hrule.level with hnone | ⟨text, hsome⟩
  · rw [hnone]
    exact ⟨"warning", rfl⟩
  · rw [hsome]
    exact ⟨text, rfl⟩

variable {text stdout : String} {log : Yaml} {ports : OutputPorts}

theorem hasId_iff : hasId text rule = true ↔ rule.get "id" = some (.string text) := by
  unfold hasId
  constructor
  · intro h
    split at h
    · rename_i id hid
      rw [hid, of_decide_eq_true h]
    · cases h
  · intro h
    rw [h]
    exact decide_eq_true rfl

theorem levelFor_eq_some {level : Yaml} (h : levelFor rules text = some level) :
    ∃ rule ∈ rules, rule.get "id" = some (.string text) ∧ level = defaultLevel rule := by
  obtain ⟨rule, hfind, hlevel⟩ := Option.map_eq_some_iff.mp h
  exact ⟨rule, List.mem_reverse.mp (List.mem_of_find?_eq_some hfind),
    hasId_iff.mp (List.find?_some hfind), hlevel.symm⟩

theorem levelFor_eq_none (h : levelFor rules text = none) :
    ¬ ∃ rule ∈ rules, rule.get "id" = some (.string text) := by
  rintro ⟨rule, hmem, hid⟩
  have hnone := List.find?_eq_none.mp (Option.map_eq_none_iff.mp h) rule
    (List.mem_reverse.mpr hmem)
  exact hnone (hasId_iff.mpr hid)

theorem nullishOr_levelFor (hrules : ∀ rule ∈ rules, IsRule rule) (text : String)
    (other : Option Yaml) :
    nullishOr (levelFor rules text) other = (levelFor rules text).or other := by
  cases hlevel : levelFor rules text with
  | none => rfl
  | some level =>
      obtain ⟨rule, hmem, _, rfl⟩ := levelFor_eq_some hlevel
      obtain ⟨found, hfound⟩ := defaultLevel_text (hrules rule hmem)
      rw [hfound]
      rfl

theorem toString_ne_empty (i : Int) : toString i ≠ "" := by
  intro h
  have hchars := congrArg String.toList h
  rw [Int.toString_eq_repr] at hchars
  unfold Int.repr at hchars
  split at hchars
  · rw [Nat.toList_repr] at hchars
    exact Nat.toDigits_ne_nil hchars
  · simp at hchars

theorem indexText_ne (hresult : IsResult result) : indexText result ≠ "" := by
  unfold indexText
  rcases hresult.ruleIndex with hnone | ⟨i, hsome⟩
  · rw [hnone]
    decide
  · rw [hsome]
    exact toString_ne_empty i

def levelById (rules : List Yaml) (result : Yaml) : Option Yaml :=
  match result.get "ruleId" with
  | some (.string id) => if id = "" then none else levelFor rules id
  | _ => none

theorem sarifSeverity_eq (hrules : ∀ rule ∈ rules, IsRule rule) (hresult : IsResult result)
    (hlevel : result.get "level" = none) :
    sarifSeverity (rules.filterMap ruleEntry) result =
      ((levelById rules result).or (levelFor rules (indexText result))).getD (.string "warning") := by
  have hindex : getRule (rules.filterMap ruleEntry) (.string (indexText result)) =
      levelFor rules (indexText result) := by
    rw [getRule_eq hrules, if_neg (indexText_ne hresult)]
  have hid : getRule (rules.filterMap ruleEntry)
      ((nullishOr (result.get "ruleId") (some (.string ""))).getD .null) =
        levelById rules result := by
    unfold levelById
    rcases hresult.ruleId with hnone | ⟨id, hsome⟩
    · rw [hnone]
      exact (getRule_eq hrules "").trans (if_pos rfl)
    · rw [hsome]
      exact getRule_eq hrules id
  have hfirst : ∀ other, nullishOr (levelById rules result) other =
      (levelById rules result).or other := by
    intro other
    unfold levelById
    split
    · split
      · rfl
      · exact nullishOr_levelFor hrules _ other
    · rfl
  unfold sarifSeverity
  change (nullishOr (result.get "level") (nullishOr (getRule _ _)
    (nullishOr (getRule _ (.string (indexText result))) _))).getD .null = _
  rw [hlevel, hid, hindex, hfirst, nullishOr_levelFor hrules]
  change ((levelById rules result).or ((levelFor rules (indexText result)).or _)).getD _ = _
  cases levelById rules result with
  | some level => rfl
  | none => cases levelFor rules (indexText result) <;> rfl

theorem severity_iff (hrules : ∀ rule ∈ rules, IsRule rule) (hresult : IsResult result) :
    SeverityOf rules result (sarifSeverity (rules.filterMap ruleEntry) result) ↔
      Resolves rules result := by
  rcases hresult.level with hlevel | ⟨level, hlevel⟩
  · rw [sarifSeverity_eq hrules hresult hlevel]
    unfold Resolves
    cases hbyId : levelById rules result with
    | some level =>
        unfold levelById at hbyId
        split at hbyId
        case h_2 => cases hbyId
        case h_1 id hid =>
          split at hbyId
          · cases hbyId
          · rename_i hnonempty
            obtain ⟨rule, hmem, hrule, rfl⟩ := levelFor_eq_some hbyId
            refine ⟨fun _ => .inr (.inl ⟨id, hnonempty, hid, rule, hmem, hrule⟩), fun _ => ?_⟩
            unfold SeverityOf
            rw [hlevel]
            exact .inl ⟨rule, ⟨hmem, id, hrule, hid⟩, rfl⟩
    | none =>
        have hno : ¬ ∃ id, id ≠ "" ∧ result.get "ruleId" = some (.string id) ∧
            ∃ rule ∈ rules, rule.get "id" = some (.string id) := by
          rintro ⟨id, hnonempty, hid, hrule⟩
          unfold levelById at hbyId
          rw [hid] at hbyId
          dsimp only at hbyId
          rw [if_neg hnonempty] at hbyId
          exact levelFor_eq_none hbyId hrule
        refine ⟨fun h => .inr (.inr h), ?_⟩
        rintro (hsome | hnamed | h)
        · rw [hlevel] at hsome
          cases hsome
        · exact absurd hnamed hno
        · exact h
  · refine ⟨fun _ => .inl ?_, fun _ => ?_⟩
    · rw [hlevel]
      rfl
    · unfold SeverityOf sarifSeverity
      rw [hlevel]
      rfl

/-! ## Reading a log -/

theorem iterate_list {field : Option Yaml} (h : OptionalList field) :
    iterate ((nullishOr field (some (.array []))).getD .null) = some (listIn field) := by
  rcases h with rfl | rfl | ⟨items, rfl⟩ <;> rfl

theorem readRun_eq {run : Yaml} (h : IsRun run) :
    readRun run = ⟨(listIn (run.get "results")).map
      (sarifFinding ((listIn (rulesField run)).filterMap ruleEntry)), true⟩ := by
  have hrules : sarifRules run = some ((listIn (rulesField run)).filterMap ruleEntry) := by
    have hiterate := iterate_list h.rules
    unfold rulesField at hiterate
    unfold sarifRules
    dsimp only
    rw [hiterate]
    rfl
  unfold readRun
  rw [hrules]
  dsimp only
  rw [iterate_list h.results]

theorem readAll_complete {α : Type} {read : α → Reading} {found : α → List Finding} {items : List α}
    (h : ∀ item ∈ items, read item = ⟨found item, true⟩) :
    readAll read items = ⟨items.flatMap found, true⟩ := by
  induction items with
  | nil => rfl
  | cons item items ih =>
      have hrest := ih fun other hmem => h other (List.mem_cons_of_mem item hmem)
      unfold readAll
      rw [h item List.mem_cons_self, hrest]
      rfl

theorem parseSarif_log (hparse : ports.parse stdout = some log) (h : IsSarif log) :
    (parseSarif ports stdout).findings = (resultsOf log).map fun pair =>
      sarifFinding (pair.1.filterMap ruleEntry) pair.2 := by
  have hread : readSarif log = ⟨(listIn (log.get "runs")).flatMap fun run =>
      (listIn (run.get "results")).map
        (sarifFinding ((listIn (rulesField run)).filterMap ruleEntry)), true⟩ := by
    unfold readSarif
    rw [iterate_list h.runs]
    exact readAll_complete fun run hmem => readRun_eq (h.eachRun run hmem)
  unfold parseSarif
  rw [hparse]
  dsimp only
  rw [hread]
  unfold Reading.findings resultsOf
  rw [if_pos rfl, List.map_flatMap]
  simp only [List.map_map]
  rfl

/-- A log is parsed faithfully: one finding for each result, in order, with its severity. -/
def Faithful (ports : OutputPorts) (stdout : String) (log : Yaml) : Prop :=
  List.Forall₂ (fun pair finding => SeverityOf pair.1 pair.2 finding.severity)
    (resultsOf log) (parseGateOutput ports stdout .sarif).findings

def AllResolve (log : Yaml) : Prop := ∀ pair ∈ resultsOf log, Resolves pair.1 pair.2

theorem faithful_iff (hparse : ports.parse stdout = some log) (h : IsSarif log) :
    Faithful ports stdout log ↔ AllResolve log := by
  unfold Faithful AllResolve
  change List.Forall₂ _ _ (parseSarif ports stdout).findings ↔ _
  rw [parseSarif_log hparse h, List.forall₂_map_right_iff, List.forall₂_same]
  refine forall₂_congr fun pair hmem => ?_
  obtain ⟨run, hrun, hpair⟩ := List.mem_flatMap.mp hmem
  obtain ⟨result, hresult, rfl⟩ := List.mem_map.mp hpair
  have hisRun := h.eachRun run hrun
  exact severity_iff hisRun.eachRule (hisRun.eachResult result hresult)

end Newide.Gate.Sarif

namespace Newide.Gate

open Hook

/-- Reports of both formats are parsed faithfully. -/
structure ReportsFaithful (ports : OutputPorts) (cases : List Junit.TestCase) (stdout : String)
    (log : Yaml) : Prop where
  junit : Junit.Faithful ports cases
  sarif : Sarif.Faithful ports stdout log

/-- A log of one result that names its rule by its place. -/
def indexLog : Yaml :=
  .object [("runs", .array [.object [
    ("tool", .object [("driver", .object [("rules", .array [.object [
      ("id", .string "R1"),
      ("defaultConfiguration", .object [("level", .string "error")])]])])]),
    ("results", .array [.object [("ruleIndex", .number ⟨.finite (0 : Int), toString (0 : Int)⟩)]])]])]

theorem indexLog_isSarif : Sarif.IsSarif indexLog where
  runs := .inr (.inr ⟨_, rfl⟩)
  eachRun run hrun := by
    obtain rfl := List.mem_singleton.mp hrun
    exact {
      rules := .inr (.inr ⟨_, rfl⟩)
      results := .inr (.inr ⟨_, rfl⟩)
      eachRule := fun rule hrule => by
        obtain rfl := List.mem_singleton.mp hrule
        exact ⟨⟨"R1", rfl⟩, .inr ⟨"error", rfl⟩⟩
      eachResult := fun result hresult => by
        obtain rfl := List.mem_singleton.mp hresult
        exact ⟨.inl rfl, .inl rfl, .inr ⟨0, rfl⟩⟩ }

def indexLogText : String :=
  "\x7b\"runs\":[\x7b\"tool\":\x7b\"driver\":\x7b\"rules\":[\x7b\"id\":\"R1\"," ++
    "\"defaultConfiguration\":\x7b\"level\":\"error\"\x7d\x7d]\x7d\x7d," ++
    "\"results\":[\x7b\"ruleIndex\":0\x7d]\x7d]\x7d"

def indexPorts : OutputPorts where
  parse text := if text = indexLogText then some indexLog else none
  stringify _ := ""
  toNumber _ := .nan
  numberText _ := ""
  times100 value := value

theorem indexPorts_parse : indexPorts.parse indexLogText = some indexLog := by
  unfold indexPorts
  dsimp only
  rw [if_pos rfl]

def passThenFail : List Junit.TestCase :=
  [⟨"ok".toList, "Suite".toList, .passed, true⟩, ⟨"bad".toList, "Suite".toList, .failed, true⟩]

end Newide.Gate
