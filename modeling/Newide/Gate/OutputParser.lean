import Mathlib.Algebra.Ring.Nat
import Newide.Gate.Runner

/-!
# The output of gate commands

`src/gate/output-parser.ts`: what the five output formats make of the text
that a command prints.  A JSON value is a YAML value; `JSON.parse`,
`JSON.stringify`, the number of a text, the text of a number and the
product with 100 are parameters.  The regular expressions of the JUnit
parser are read off directly; summaries are left out, as nothing reads them.
-/

namespace Newide.Gate

open Hook

structure Finding where
  /-- A string, but for SARIF levels that are none. -/
  severity : Yaml
  message : Yaml
  file : Option Yaml := none
  line : Option Yaml := none
  column : Option Yaml := none

structure CoverageData where
  line : YamlNumber
  branch : YamlNumber

structure ParsedGateOutput where
  findings : List Finding := []
  coverage : Option CoverageData := none

/-- The platform: `JSON.parse` and `JSON.stringify`, `Number(text)`, `String(number)` and
`number * 100`. -/
structure OutputPorts where
  parse : String → Option Yaml
  stringify : Yaml → String
  toNumber : String → NumberValue
  numberText : NumberValue → String
  times100 : NumberValue → NumberValue

/-! ## Values -/

/-- `a ?? b`. -/
def nullishOr (a b : Option Yaml) : Option Yaml :=
  match a with
  | none | some .null => b
  | some value => some value

def truthy : Option Yaml → Bool
  | none | some .null => false
  | some (.boolean b) => b
  | some (.number n) => n.value ≠ .finite 0 && n.value ≠ .nan
  | some (.string s) => s ≠ ""
  | some (.array _) | some (.object _) => true

/-- `value?.[key]`. -/
def member (value : Option Yaml) (key : String) : Option Yaml := value.bind fun v => v.get key

/-- `value?.[0]`; a string has its characters under its indices. -/
def first (value : Option Yaml) : Option Yaml :=
  match value with
  | some (.string s) => s.toList.head?.map fun c => .string (String.ofList [c])
  | value => member value "0"

mutual

/-- `String(value)`, unless it throws: an object of JSON whose `toString` is no function has no
text. -/
def textOf : Yaml → Option String
  | .null => some "null"
  | .boolean b => some (if b then "true" else "false")
  | .number n => some n.text
  | .string s => some s
  | .array items => (textsOfItems items).map fun texts => ",".intercalate texts
  | .object fields => if "toString" ∈ fields.map Prod.fst then none else some "[object Object]"

def textsOfItems : List Yaml → Option (List String)
  | [] => some []
  | .null :: items => (textsOfItems items).map fun texts => "" :: texts
  | item :: items => do
      let text ← textOf item
      let texts ← textsOfItems items
      some (text :: texts)

end

/-- `Number(value)`, unless it throws. -/
def numberOf (ports : OutputPorts) : Option Yaml → Option NumberValue
  | none => some .nan
  | some .null => some (.finite 0)
  | some (.boolean b) => some (.finite (if b then 1 else 0))
  | some (.number n) => some n.value
  | some value => (textOf value).map ports.toNumber

/-- The values a `for` loop goes through, unless there is nothing to iterate. -/
def iterate : Yaml → Option (List Yaml)
  | .array items => some items
  | .string s => some (s.toList.map fun c => .string (String.ofList [c]))
  | _ => none

/-- What was found until the end, or until something threw. -/
structure Reading where
  found : List Finding
  complete : Bool

/-- Go through a list until something throws. -/
def readAll {α : Type} (read : α → Reading) : List α → Reading
  | [] => ⟨[], true⟩
  | a :: rest =>
      let now := read a
      if now.complete then
        let later := readAll read rest
        ⟨now.found ++ later.found, later.complete⟩
      else now

/-- `stdout.slice(0, 1000)`. -/
def firstThousand (stdout : String) : Yaml := .string (String.ofList (stdout.toList.take 1000))

def errorFinding (stdout : String) : Finding where
  severity := .string "error"
  message := firstThousand stdout

/-- The findings of a reading; what threw is an error of its own. -/
def Reading.findings (reading : Reading) (stdout : String) : List Finding :=
  if reading.complete then reading.found else reading.found ++ [errorFinding stdout]

/-! ## SARIF -/

/-- Keys of a `Map`: no two objects are the same. -/
def sameKey : Yaml → Yaml → Bool
  | .null, .null => true
  | .boolean a, .boolean b => a = b
  | .number a, .number b => a.value = b.value
  | .string a, .string b => a = b
  | _, _ => false

/-- `rules.get(key)`; the last entry of a key counts. -/
def getRule (rules : List (Yaml × Yaml)) (key : Yaml) : Option Yaml :=
  (rules.reverse.find? fun rule => sameKey rule.1 key).map Prod.snd

/-- The default levels of the rules of a run by id, unless the rules cannot be iterated. -/
def sarifRules (run : Yaml) : Option (List (Yaml × Yaml)) := do
  let toolRules := (nullishOr (member (member (member (some run) "tool") "driver") "rules")
    (some (.array []))).getD .null
  let rules ← iterate toolRules
  some (rules.filterMap fun rule =>
    match rule.get "id" with
    | some id =>
        if truthy (some id) then
          (nullishOr (member (rule.get "defaultConfiguration") "level")
            (some (.string "warning"))).map fun level => (id, level)
        else none
    | none => none)

def sarifSeverity (rules : List (Yaml × Yaml)) (result : Yaml) : Yaml :=
  let ruleId := (nullishOr (result.get "ruleId") (some (.string ""))).getD .null
  let ruleIndexStr := match result.get "ruleIndex" with
    | some (.number n) => n.text
    | _ => "-1"
  (nullishOr (result.get "level") (nullishOr (getRule rules ruleId)
    (nullishOr (getRule rules (.string ruleIndexStr)) (some (.string "warning"))))).getD .null

def sarifFinding (rules : List (Yaml × Yaml)) (result : Yaml) : Finding :=
  let message := nullishOr (member (result.get "message") "text") (match result.get "message" with
    | some (.string s) => some (.string s)
    | _ => some (.string ""))
  let primaryLocation := member (first (nullishOr (result.get "locations") (some (.array []))))
    "physicalLocation"
  { severity := sarifSeverity rules result
    message := message.getD .null
    file := member (member primaryLocation "artifactLocation") "uri"
    line := member (member primaryLocation "region") "startLine"
    column := member (member primaryLocation "region") "startColumn" }

def readRun (run : Yaml) : Reading :=
  match sarifRules run with
  | none => ⟨[], false⟩
  | some rules =>
      match iterate ((nullishOr (run.get "results") (some (.array []))).getD .null) with
      | none => ⟨[], false⟩
      | some results => ⟨results.map (sarifFinding rules), true⟩

def readSarif (report : Yaml) : Reading :=
  match iterate ((nullishOr (report.get "runs") (some (.array []))).getD .null) with
  | none => ⟨[], false⟩
  | some runs => readAll readRun runs

def parseSarif (ports : OutputPorts) (stdout : String) : ParsedGateOutput where
  findings := match ports.parse stdout with
    | some report => (readSarif report).findings stdout
    | none => [errorFinding stdout]

/-! ## JUnit -/

/-- The text after a literal, if it begins with it in either case. -/
def afterLiteral : List Char → List Char → Option (List Char)
  | [], text => some text
  | _ :: _, [] => none
  | c :: literal, d :: text => if c.toLower = d.toLower then afterLiteral literal text else none

/-- A character of the class `\w`. -/
def isWord (c : Char) : Bool := c.isAlphanum || c = '_'

def atBoundary (text : List Char) : Bool := !(text.head?.any isWord)

/-- The text before and after the first place of a literal. -/
def splitLiteral (literal : List Char) : List Char → Option (List Char × List Char)
  | [] => if literal = [] then some ([], []) else none
  | c :: text =>
      match afterLiteral literal (c :: text) with
      | some rest => some ([], rest)
      | none => (splitLiteral literal text).map fun split => (c :: split.1, split.2)

def openingTag (name : String) (bounded : Bool) (text : List Char) :
    Option (List Char × List Char) :=
  match afterLiteral ('<' :: name.toList) text with
  | none => none
  | some rest =>
      if bounded && !atBoundary rest then none
      else match rest.dropWhile fun c => c ≠ '>' with
        | _ :: after => some (rest.takeWhile fun c => c ≠ '>', after)
        | [] => none

/-- The attributes and the body of the element that a text begins with, up to the first closing
tag, and what is after it. -/
def element (name : String) (bounded : Bool) (text : List Char) :
    Option (List Char × List Char × List Char) :=
  match openingTag name bounded text with
  | none => none
  | some (attrs, after) =>
      (splitLiteral (("</" ++ name ++ ">").toList) after).map fun split =>
        (attrs, split.1, split.2)

/-- All matches of an element, one after the other. -/
def elements (name : String) : Nat → List Char → List (List Char × List Char)
  | 0, _ => []
  | _ + 1, [] => []
  | fuel + 1, c :: text =>
      match element name true (c :: text) with
      | some (attrs, body, rest) => (attrs, body) :: elements name fuel rest
      | none => elements name fuel text

/-- The attributes of all opening tags, one after the other. -/
def openingTags (name : String) : Nat → List Char → List (List Char)
  | 0, _ => []
  | _ + 1, [] => []
  | fuel + 1, c :: text =>
      match openingTag name true (c :: text) with
      | some (attrs, rest) => attrs :: openingTags name fuel rest
      | none => openingTags name fuel text

def searchText {α : Type} (match' : List Char → Option α) : List Char → Option α
  | [] => match' []
  | c :: text =>
      match match' (c :: text) with
      | some found => some found
      | none => searchText match' text

/-- What stands in quotes after a name and an equals sign. -/
def quotedAfter (name : String) (text : List Char) : Option (List Char) := do
  let rest ← afterLiteral name.toList text
  match rest.dropWhile isTrimmed with
  | '=' :: rest =>
      match rest.dropWhile isTrimmed with
      | '"' :: rest => some rest
      | _ => none
  | _ => none

def extractIntAttr (attrs : List Char) (name : String) : Nat :=
  (searchText (fun text => do
    let rest ← quotedAfter name text
    let digits := rest.takeWhile Char.isDigit
    if digits ≠ [] ∧ (rest.drop digits.length).head? = some '"' then
      some (digits.foldl (fun n c => 10 * n + (c.toNat - 48)) 0)
    else none) attrs).getD 0

def extractStrAttr (attrs : List Char) (name : String) : List Char :=
  (searchText (fun text => do
    let rest ← quotedAfter name text
    if '"' ∈ rest then some (rest.takeWhile fun c => c ≠ '"') else none) attrs).getD []

def opens (name : String) (text : List Char) : Bool :=
  (searchText (fun text => do
    let rest ← afterLiteral ('<' :: name.toList) text
    if atBoundary rest then some () else none) text).isSome

/-- The trimmed body of the first element of this name, if there is any text. -/
def bodyText (name : String) (text : List Char) : Option (List Char) :=
  match searchText (element name false) text with
  | some (_, body, _) => if trim body = [] then none else some (trim body)
  | none => none

def testcaseFinding (attrs body : List Char) : Option Finding :=
  let name := extractStrAttr attrs "name"
  let className := extractStrAttr attrs "classname"
  if opens "failure" body || opens "error" body then
    let message := match bodyText "failure" body, bodyText "error" body with
      | some text, _ => text
      | none, some text => text
      | none, none => className ++ '.' :: name ++ " failed".toList
    some {
      severity := .string "error"
      message := .string (String.ofList message)
      file := some (.string (String.ofList (className.map fun c => if c = '.' then '/' else c))) }
  else none

def parseJunit (stdout : String) : ParsedGateOutput :=
  let text := stdout.toList
  let suites := openingTags "testsuite" text.length text
  let total := (suites.map fun attrs => extractIntAttr attrs "tests").sum
  let failures := (suites.map fun attrs => extractIntAttr attrs "failures").sum
  let errors := (suites.map fun attrs => extractIntAttr attrs "errors").sum
  let findings := (elements "testcase" text.length text).filterMap fun testcase =>
    testcaseFinding testcase.1 testcase.2
  { findings :=
      if findings = [] ∧ (failures > 0 ∨ errors > 0) then
        [{ severity := .string "error"
           message := .string (toString failures ++ " test(s) failed, " ++ toString errors ++
             " error(s) out of " ++ toString total ++ " total") }]
      else findings }

/-! ## Generic JSON -/

/-- An advisory in the style of `npm audit`, unless a text of it throws. -/
def advisoryFinding (key : String) (adv : Yaml) : Option Finding := do
  let severity ← textOf ((nullishOr (adv.get "severity") (some (.string "moderate"))).getD .null)
  let title ← textOf ((nullishOr (adv.get "title") (some (.string key))).getD .null)
  let moduleName ← textOf ((nullishOr (adv.get "module_name") (some (.string ""))).getD .null)
  let recommendation ←
    textOf ((nullishOr (adv.get "recommendation") (some (.string ""))).getD .null)
  some {
    severity := .string severity
    message := .string (title ++ " (" ++ moduleName ++ ") — " ++ recommendation)
    file := match first (member (first (adv.get "findings")) "paths") with
      | some (.string path) => some (.string path)
      | _ => none }

def isNumber : Option Yaml → Option Yaml
  | some (.number n) => some (.number n)
  | _ => none

/-- An item of a list of findings, unless a text of it throws. -/
def itemFinding (ports : OutputPorts) (item : Yaml) : Option Finding := do
  let sev := nullishOr (item.get "severity") (nullishOr (item.get "level")
    (nullishOr (item.get "category") (nullishOr (item.get "type") (some (.string "warning")))))
  let msg := nullishOr (item.get "message") (nullishOr (item.get "description")
    (nullishOr (item.get "title") (nullishOr (item.get "text")
      (some (.string (ports.stringify item))))))
  let severity ← textOf (sev.getD .null)
  let file ← if truthy (item.get "file") then (textOf ((item.get "file").getD .null)).map some
    else some none
  let filePath ← if truthy (item.get "filePath") then
      (textOf ((item.get "filePath").getD .null)).map some
    else some none
  some {
    severity := .string severity
    message := match msg with
      | some (.string text) => .string text
      | msg => .string (ports.stringify (msg.getD .null))
    file := (filePath.or file).map .string
    line := isNumber (item.get "line")
    column := isNumber (item.get "column") }

def readFinding (found : Option Finding) : Reading :=
  match found with
  | some finding => ⟨[finding], true⟩
  | none => ⟨[], false⟩

def readItem (ports : OutputPorts) (item : Yaml) : Reading :=
  match item with
  | .array _ | .object _ => readFinding (itemFinding ports item)
  | _ => ⟨[], true⟩

def infoFinding (stdout : String) : Finding where
  severity := .string "info"
  message := firstThousand stdout

def readCandidates (ports : OutputPorts) (stdout : String) (data : Yaml) : Reading :=
  match nullishOr (data.get "findings") (nullishOr (data.get "results")
      (nullishOr (data.get "violations") (nullishOr (data.get "issues")
        (data.get "diagnostics")))) with
  | some (.array items) => readAll (readItem ports) items
  | _ => ⟨[infoFinding stdout], true⟩

def readJson (ports : OutputPorts) (stdout : String) (data : Yaml) : Reading :=
  match data.get "advisories" with
  | some (.array items) => readAll (fun entry : String × Yaml =>
      readFinding (advisoryFinding entry.1 entry.2)) (Yaml.array items).entries
  | some (.object fields) => readAll (fun entry : String × Yaml =>
      readFinding (advisoryFinding entry.1 entry.2)) (Yaml.object fields).entries
  | _ => readCandidates ports stdout data

def parseJson (ports : OutputPorts) (stdout : String) : ParsedGateOutput where
  findings := match ports.parse stdout with
    | some data => (readJson ports stdout data).findings stdout
    | none => [errorFinding stdout]

/-! ## Coverage -/

/-- `typeof value === 'number' ? value : 0`. -/
def numberOrZero (ports : OutputPorts) : Option Yaml → YamlNumber
  | some (.number n) => n
  | _ => ⟨.finite 0, ports.numberText (.finite 0)⟩

def computed (ports : OutputPorts) (value : NumberValue) : YamlNumber :=
  ⟨value, ports.numberText value⟩

/-- `data.rate !== undefined ? Number(data.rate) * 100 : otherwise`, unless it throws. -/
def percentOf (ports : OutputPorts) (rate otherwise : Option Yaml) : Option (Option Yaml) :=
  match rate with
  | none => some otherwise
  | some rate => (numberOf ports (some rate)).map fun value =>
      some (.number (computed ports (ports.times100 value)))

/-- `Number(value)` as a percentage, unless it throws. -/
def coerced (ports : OutputPorts) (value : Option Yaml) : Option YamlNumber :=
  (numberOf ports value).map (computed ports)

/-- Coverage-like fields at the top of a report, unless reading them throws. -/
def genericCoverage (ports : OutputPorts) (data : Yaml) : Option (Option CoverageData) := do
  let linePct ← percentOf ports (data.get "line_rate")
    (nullishOr (data.get "line_coverage") (nullishOr (data.get "line_percent")
      (data.get "percent_covered")))
  let branchPct ← percentOf ports (data.get "branch_rate")
    (nullishOr (data.get "branch_coverage") (nullishOr (data.get "branch_percent")
      (nullishOr linePct (some (.number (computed ports (.finite 0)))))))
  if linePct.isSome then do
    let line ← coerced ports linePct
    let branch ← coerced ports
      (nullishOr branchPct (some (.number (computed ports (.finite 0)))))
    some (some ⟨line, branch⟩)
  else some none

/-- The coverage a report carries, in one of three dialects. -/
def coverageOf (ports : OutputPorts) (data : Yaml) : Option CoverageData :=
  if truthy (data.get "totals") then
    let totals := data.get "totals"
    let line := nullishOr (member totals "percent_covered") (member totals "covered_percent")
    let branch := nullishOr (member totals "percent_covered") line
    some ⟨numberOrZero ports line, numberOrZero ports branch⟩
  else if truthy (data.get "total") then
    let total := data.get "total"
    some ⟨numberOrZero ports (member (member total "lines") "pct"),
      numberOrZero ports (member (member total "branches") "pct")⟩
  else (genericCoverage ports data).getD none

def parseCoverageJson (ports : OutputPorts) (stdout : String) : ParsedGateOutput :=
  match (ports.parse stdout).bind (coverageOf ports) with
  | some coverage => { coverage := some coverage }
  | none =>
      { findings := [{
          severity := .string "error"
          message := .string "Failed to parse coverage output as JSON" }] }

/-! ## Any format -/

def parseGateOutput (ports : OutputPorts) (stdout : String) :
    GateOutputFormat → ParsedGateOutput
  | .sarif => parseSarif ports stdout
  | .junit => parseJunit stdout
  | .json => parseJson ports stdout
  | .text => {}
  | .coverageJson => parseCoverageJson ports stdout

end Newide.Gate
