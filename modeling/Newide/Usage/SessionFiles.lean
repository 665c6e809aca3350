import Mathlib.Algebra.BigOperators.Group.Finset.Basic
import Mathlib.Tactic.Abel
import Newide.Gate.OutputParser
import Newide.Usage.Summaries

/-!
# The session files of a driver

`collectClaudeSessionUsage` of `src/telemetry/collect-claude-session-usage.ts`:
which files are read, and what a file is billed for.  The home directories are
resolved, so the paths joined to them are.
-/

namespace Newide.Usage.Summaries

open Record Collation Hook Gate

/-! ## The lines of a file -/

/-- The entries by their keys, and the session that was matched. -/
structure BilledFile where
  entries : Record String LlmUsageEntry := []
  sessionId : Option String

/-- `Number(usage[key] ?? 0)`, if it is finite. -/
def amountOf (ports : OutputPorts) (usage : Yaml) (key : String) : Option ℚ :=
  match numberOf ports (nullishOr (usage.get key) (some (.number (.ofNat 0)))) with
  | some (.finite q) => some q
  | _ => none

def entryOf (ports : OutputPorts) (usage : Yaml) : Option LlmUsageEntry := do
  let input ← amountOf ports usage "input_tokens"
  let output ← amountOf ports usage "output_tokens"
  let cacheCreation ← amountOf ports usage "cache_creation_input_tokens"
  let cacheRead ← amountOf ports usage "cache_read_input_tokens"
  some {
    inputTokens := input
    outputTokens := output
    cacheCreationInputTokens := some cacheCreation
    cacheReadInputTokens := some cacheRead
    source := "claude_session_jsonl" }

/-- A text that is not empty. -/
def textIn (value : Option Yaml) : Option String :=
  match value with
  | some (.string s) => if s = "" then none else some s
  | _ => none

def messageIdOf (obj : Yaml) : Option String := textIn (member (obj.get "message") "id")

/-- The key of a line; `size` is that of the map. -/
def keyOf (obj : Yaml) (size : Nat) : Option String :=
  match messageIdOf obj with
  | some messageId => some ("message:" ++ messageId)
  | none =>
      match nullishOr (obj.get "uuid") none with
      | some uuid => (textOf uuid).map ("line:" ++ ·)
      | none => some ("line:" ++ toString size)

def usageOf (obj : Yaml) : Option Yaml :=
  let own := member (obj.get "message") "usage"
  match nullishOr own (obj.get "usage") with
  | some usage =>
      if Yaml.typeOf (some usage) = "object" ∧ Gate.truthy (some usage) ∧
          (textIn (obj.get "type") = some "assistant" ∨ Gate.truthy own) then some usage
      else none
  | none => none

/-- The line belongs to another session than the one that is expected. -/
def OtherSession (expected : Option String) (obj : Yaml) : Prop :=
  expected.isSome ∧ (textIn (obj.get "sessionId")).isSome ∧ textIn (obj.get "sessionId") ≠ expected

instance (expected : Option String) (obj : Yaml) : Decidable (OtherSession expected obj) := by
  unfold OtherSession
  infer_instance

/-- One line; without a result where reading the line throws. -/
def readLine (ports : OutputPorts) (expected : Option String) (file : BilledFile) (line : String) :
    Option BilledFile :=
  if trim line.toList = [] then some file
  else
    match ports.parse line with
    | none => some file
    | some .null => none
    | some obj =>
        if OtherSession expected obj then some file
        else
          let file := { file with sessionId := textIn (obj.get "sessionId") <|> file.sessionId }
          match (usageOf obj).bind (entryOf ports) with
          | none => some file
          | some entry => (keyOf obj file.entries.length).map fun key =>
              { file with entries := file.entries.set key entry }

/-- `text.split(/\r?\n/)` -/
def linesOf (text : String) : List String :=
  let parts := text.splitOn "\n"
  let withoutReturn (part : String) :=
    if part.toList.getLast? = some '\r' then String.ofList part.toList.dropLast else part
  parts.dropLast.map withoutReturn ++ parts.getLast?.toList

def readLines (ports : OutputPorts) (expected : Option String) :
    BilledFile → List String → Option BilledFile
  | file, [] => some file
  | file, line :: lines => do
      let next ← readLine ports expected file line
      readLines ports expected next lines

/-- `sumUsageFromClaudeJsonl` -/
def sumUsage (ports : OutputPorts) (text : String) (expected : Option String) :
    Option (List LlmUsageEntry × Option String) :=
  (readLines ports expected { sessionId := expected } (linesOf text)).map fun file =>
    (file.entries.map Prod.snd, file.sessionId)

/-! ## Every message counts once -/

def recordedFor (ports : OutputPorts) (expected : Option String) (messageId line : String) :
    Option LlmUsageEntry :=
  match ports.parse line with
  | none => none
  | some obj =>
      if trim line.toList = [] ∨ OtherSession expected obj ∨ messageIdOf obj ≠ some messageId then
        none
      else (usageOf obj).bind (entryOf ports)

variable {ports : OutputPorts} {expected : Option String} {file next : BilledFile}
  {messageId line : String} {lines : List String}

theorem keyOf_message {obj : Yaml} {size : Nat} {key : String} (h : keyOf obj size = some key) :
    key = "message:" ++ messageId ↔ messageIdOf obj = some messageId := by
  have hline (rest : String) : "line:" ++ rest ≠ "message:" ++ messageId := by
    intro heq
    have hfirst := congrArg (fun text : String => text.toList.head?) heq
    simp at hfirst
  unfold keyOf at h
  cases hid : messageIdOf obj with
  | some id =>
      rw [hid] at h
      obtain rfl := Option.some.inj h
      simp
  | none =>
      rw [hid] at h
      dsimp only at h
      split at h
      · obtain ⟨rest, _, rfl⟩ := Option.map_eq_some_iff.mp h
        simp [hline]
      · obtain rfl := Option.some.inj h
        simp [hline]

theorem get_readLine (hfile : file.entries.Distinct)
    (h : readLine ports expected file line = some next) : next.entries.Distinct ∧
      next.entries.get ("message:" ++ messageId) =
        (recordedFor ports expected messageId line <|>
          file.entries.get ("message:" ++ messageId)) := by
  unfold readLine at h
  unfold recordedFor
  split at h
  · rename_i hblank
    obtain rfl := Option.some.inj h
    refine ⟨hfile, ?_⟩
    cases ports.parse line <;> simp [hblank]
  · rename_i hblank
    split at h
    · rename_i hparse
      obtain rfl := Option.some.inj h
      exact ⟨hfile, by simp [hparse]⟩
    · cases h
    · rename_i obj _ hparse
      rw [hparse]
      split at h
      · rename_i hother
        obtain rfl := Option.some.inj h
        exact ⟨hfile, by simp [hother]⟩
      · rename_i hother
        dsimp only at h ⊢
        split at h
        · rename_i hnone
          obtain rfl := Option.some.inj h
          refine ⟨hfile, ?_⟩
          rw [hnone]
          split <;> simp
        · rename_i entry hentry
          obtain ⟨key, hkey, rfl⟩ := Option.map_eq_some_iff.mp h
          refine ⟨hfile.set _ _, ?_⟩
          rw [get_set hfile, hentry]
          by_cases hid : messageIdOf obj = some messageId
          · rw [if_pos ((keyOf_message hkey).mpr hid).symm, if_neg (by simp [hblank, hother, hid])]
            rfl
          · rw [if_neg fun heq => hid ((keyOf_message hkey).mp heq.symm), if_pos (.inr (.inr hid))]
            rfl

/-- The first line of a message that is written as two, and the second. -/
def messageLine (output : Nat) : Yaml :=
  .object [("type", .string "assistant"), ("message", .object
    [("id", .string "m"), ("usage", .object [("output_tokens", .number (.ofNat output))])])]

def messagePorts : OutputPorts where
  parse line := if line = "first" then some (messageLine 1) else some (messageLine 2)
  stringify _ := ""
  toNumber _ := .nan
  numberText _ := ""
  times100 := id

structure ClaudeHost where
  /-- `claudeHomeCandidates()` -/
  homes : List String
  ports : OutputPorts
  join : List String → String
  basename : String → String
  /-- `path.basename(file, '.jsonl')` -/
  stem : String → String
  resolve : String → String
  existsSync : String → Bool
  readFile : String → Option String
  /-- `readdir`, with whether an entry is a directory. -/
  readdir : String → Option (List (String × Bool))
  mtimeMs : String → Option ℚ

structure SessionUsageInput where
  sessionId : Option String := none
  sessionIds : List String := []
  worktreePath : String

namespace ClaudeHost

variable (host : ClaudeHost)

def resolveClaudeRoot (home : String) : String :=
  if host.basename home = ".claude" then home else host.join [home, ".claude"]

def claudeRoots : List String :=
  ((host.homes.map host.resolveClaudeRoot).filter host.existsSync).reverse.dedup.reverse

def encodeClaudeProjectDirCandidates (worktreePath : String) : List String :=
  let resolved := (host.resolve worktreePath).toList
  [String.ofList (resolved.map fun c => if c.isAlphanum then c else '-'),
    String.ofList ((resolved.filter (· ≠ ':')).map fun c =>
      if c = '\\' ∨ c = '/' then '-' else c)].dedup

def isJsonl (path : String) : Bool := ".jsonl".toList.isSuffixOf path.toList

def findSessionJsonl (claudeRoot sessionId : String) : List String :=
  let projectsRoot := host.join [claudeRoot, "projects"]
  if host.existsSync projectsRoot then
    ((((host.readdir projectsRoot).getD []).filter (·.2)).map fun entry =>
      host.join [projectsRoot, entry.1, sessionId ++ ".jsonl"]).filter host.existsSync
  else []

/-- The three latest files of a project, unless something about it cannot be read. -/
def latestFiles (projectDir : String) : List String :=
  if host.existsSync projectDir then
    let ranked : Option (List (String × ℚ)) := do
      let entries ← host.readdir projectDir
      ((entries.filter fun entry => isJsonl entry.1).map fun entry =>
        host.join [projectDir, entry.1]).mapM fun path => (host.mtimeMs path).map (path, ·)
    ((sortOn (fun a b => compare b a) Prod.snd (ranked.getD [])).take 3).map Prod.fst
  else []

/-- `distinctSessionIds` of both inputs. -/
def sessionIdsOf (input : SessionUsageInput) : List String :=
  ((input.sessionIds ++ input.sessionId.toList).filter (· ≠ "")).reverse.dedup.reverse

def candidates (input : SessionUsageInput) : List String :=
  let sessionIds := sessionIdsOf input
  let projectDirs := host.claudeRoots.flatMap fun claudeRoot =>
    (host.encodeClaudeProjectDirCandidates input.worktreePath).map fun encoded =>
      host.join [claudeRoot, "projects", encoded]
  if sessionIds = [] then projectDirs.flatMap host.latestFiles
  else
    (host.claudeRoots.flatMap fun claudeRoot => sessionIds.flatMap fun sessionId =>
      host.findSessionJsonl claudeRoot sessionId ++
        [host.join [claudeRoot, "sessions", sessionId ++ ".json"]]) ++
    projectDirs.flatMap fun projectDir => sessionIds.map fun sessionId =>
      host.join [projectDir, sessionId ++ ".jsonl"]

/-- What a file is billed for, if it can be read. -/
def usageIn (input : SessionUsageInput) (path : String) :
    Option (List LlmUsageEntry × Option String) :=
  if host.existsSync path then do
    let text ← host.readFile path
    sumUsage host.ports text
      (if host.stem path ∈ sessionIdsOf input then some (host.stem path) else none)
  else none

end ClaudeHost

/-! ## Collecting -/

def addSessionBilledUsage (previous : Option (UsageField → ℚ)) (entries : List LlmUsageEntry) :
    UsageField → ℚ :=
  let next := previous.getD 0
  let input := next .inputTokens + (entries.map (·.inputTokens)).sum
  let output := next .outputTokens + (entries.map (·.outputTokens)).sum
  let cacheCreation := next .cacheCreationInputTokens +
    (entries.map (·.cacheCreationInputTokens.getD 0)).sum
  let cacheRead := next .cacheReadInputTokens + (entries.map (·.cacheReadInputTokens.getD 0)).sum
  let totalInput := input + cacheCreation + cacheRead
  fun
    | .inputTokens => input
    | .outputTokens => output
    | .cacheCreationInputTokens => cacheCreation
    | .cacheReadInputTokens => cacheRead
    | .totalInputTokens => totalInput
    | .totalTokens => totalInput + output
    | .callCount => next .callCount + entries.length

/-- The one text there is. -/
def only : List String → Option String
  | [text] => some text
  | _ => none

structure CollectedUsage where
  seenPaths : List String := []
  entries : List LlmUsageEntry := []
  contributingPaths : List String := []
  bySession : Record String (UsageField → ℚ) := []

namespace ClaudeHost

variable (host : ClaudeHost) (input : SessionUsageInput)

def collectFile (collected : CollectedUsage) (candidate : String) : CollectedUsage :=
  if candidate ∈ collected.seenPaths ∨ ¬ isJsonl candidate then collected
  else
    let collected := { collected with seenPaths := collected.seenPaths ++ [candidate] }
    match host.usageIn input candidate with
    | none | some ([], _) => collected
    | some (entries, session) =>
        let sessionId := session.getD (host.stem candidate)
        { collected with
          entries := collected.entries ++ entries
          contributingPaths := collected.contributingPaths ++ [candidate]
          bySession := collected.bySession.set sessionId
            (addSessionBilledUsage (collected.bySession.get sessionId) entries) }

def collectClaudeSessionUsage : TokenUsageSummary :=
  let collected := (host.candidates input).foldl (host.collectFile input) {}
  if collected.entries = [] then
    emptyTokenUsageSummary (input.sessionId.filter (· ≠ ""))
  else
    { toRunTokenUsageSummary collected.entries (only (collected.bySession.map Prod.fst))
        (only collected.contributingPaths) with
      bySession := sortOn compare Prod.fst (collected.bySession.mapValues fun _ => numbers) }

/-! ## Every file counts once -/

/-- The totals of a slice are those of its fields. -/
def Totalled (f : UsageField → ℚ) : Prop :=
  f .totalInputTokens = f .inputTokens + f .cacheCreationInputTokens + f .cacheReadInputTokens ∧
    f .totalTokens = f .totalInputTokens + f .outputTokens

theorem totalled_summarize (entries : List LlmUsageEntry) : Totalled (summarize entries) :=
  ⟨rfl, rfl⟩

theorem Totalled.add {f g : UsageField → ℚ} (hf : Totalled f) (hg : Totalled g) :
    Totalled (f + g) := by
  constructor
  · simp only [Pi.add_apply, hf.1, hg.1]
    ring
  · simp only [Pi.add_apply, hf.2, hg.2]
    ring

theorem addSessionBilledUsage_eq {previous : Option (UsageField → ℚ)}
    (h : Totalled (previous.getD 0)) (entries : List LlmUsageEntry) :
    addSessionBilledUsage previous entries = previous.getD 0 + summarize entries := by
  obtain ⟨hinput, htotal⟩ := h
  funext field
  cases field with
  | totalInputTokens =>
      simp only [addSessionBilledUsage, summarize, Pi.add_apply, hinput]
      ring
  | totalTokens =>
      simp only [addSessionBilledUsage, summarize, Pi.add_apply, htotal, hinput]
      ring
  | _ => rfl

def billed (path : String) : List LlmUsageEntry := ((host.usageIn input path).getD ([], none)).1

/-- What was collected is what the paths seen are billed for, and so is what the sessions hold. -/
structure Billed (paths : List String) (collected : CollectedUsage) : Prop where
  nodup : collected.seenPaths.Nodup
  mem : ∀ path, path ∈ collected.seenPaths ↔ path ∈ paths ∧ isJsonl path = true
  entries : summarize collected.entries =
    (collected.seenPaths.map fun path => summarize (host.billed input path)).sum
  distinct : collected.bySession.Distinct
  totalled : ∀ entry ∈ collected.bySession, Totalled entry.2
  sessions : (collected.bySession.map Prod.snd).sum = summarize collected.entries

theorem sum_set {r : Record String (UsageField → ℚ)} (h : r.Distinct) (key : String)
    (f : UsageField → ℚ) :
    ((r.set key ((r.get key).getD 0 + f)).map Prod.snd).sum = (r.map Prod.snd).sum + f := by
  induction r with
  | nil => simp [set_new]
  | cons entry r ih =>
      obtain ⟨hfirst, hrest⟩ := List.nodup_cons.mp h
      by_cases hkey : entry.1 = key
      · subst hkey
        rw [set_cons_self entry hfirst, get_cons, if_pos rfl]
        simp only [List.map_cons, List.sum_cons, Option.getD_some]
        abel
      · rw [set_cons_ne entry hkey, get_cons, if_neg hkey]
        simp only [List.map_cons, List.sum_cons, ih hrest]
        abel

variable {host input} {paths : List String} {collected : CollectedUsage}

theorem Billed.collectFile (h : Billed host input paths collected) (candidate : String) :
    Billed host input (paths ++ [candidate]) (host.collectFile input collected candidate) := by
  unfold ClaudeHost.collectFile
  split
  · rename_i hskip
    refine { h with mem := fun path => ?_ }
    rw [h.mem, List.mem_append, List.mem_singleton]
    constructor
    · rintro ⟨hin, hjsonl⟩
      exact ⟨.inl hin, hjsonl⟩
    · rintro ⟨hin | rfl, hjsonl⟩
      · exact ⟨hin, hjsonl⟩
      · rcases hskip with hseen | hnot
        · exact (h.mem _).mp hseen
        · exact absurd hjsonl (by simpa using hnot)
  · rename_i hnew
    obtain ⟨hseen, hjsonl⟩ := not_or.mp hnew
    have hmem (path : String) : path ∈ collected.seenPaths ++ [candidate] ↔
        path ∈ paths ++ [candidate] ∧ isJsonl path = true := by
      have hcandidate : isJsonl candidate = true := by simpa using hjsonl
      simp only [List.mem_append, List.mem_singleton, h.mem]
      grind
    have hnodup : (collected.seenPaths ++ [candidate]).Nodup :=
      List.nodup_append.mpr ⟨h.nodup, List.nodup_singleton _, fun path hpath other hother heq => by
        rw [heq, List.mem_singleton.mp hother] at hpath
        exact hseen hpath⟩
    have hsum (more : List LlmUsageEntry) (hmore : host.billed input candidate = more) :
        ((collected.seenPaths ++ [candidate]).map fun path =>
          summarize (host.billed input path)).sum =
            summarize (collected.entries ++ more) := by
      rw [List.map_append, List.sum_append, ← h.entries, summarize_append, List.map_singleton,
        List.sum_singleton, hmore]
    dsimp only
    split
    · rename_i hnone
      refine { h with nodup := hnodup, mem := hmem, entries := ?_ }
      rw [hsum [] (by simp [billed, hnone]), List.append_nil]
    · rename_i session hnone
      refine { h with nodup := hnodup, mem := hmem, entries := ?_ }
      rw [hsum [] (by simp [billed, hnone]), List.append_nil]
    · rename_i entries session _ husage
      have htotalled : Totalled ((collected.bySession.get (session.getD (host.stem candidate))).getD
          0) := by
        cases hget : collected.bySession.get (session.getD (host.stem candidate)) with
        | none => exact ⟨by simp, by simp⟩
        | some f => exact h.totalled _ (get_eq_some_mem hget)
      have hadd := addSessionBilledUsage_eq htotalled entries
      refine ⟨hnodup, hmem, (hsum entries (by simp [billed, husage])).symm, h.distinct.set _ _,
        fun entry hentry => ?_, ?_⟩
      · rcases mem_set h.distinct hentry with hsame | hold
        · rw [hsame, hadd]
          exact htotalled.add (totalled_summarize _)
        · exact h.totalled entry hold
      · rw [hadd, sum_set h.distinct, h.sessions, summarize_append]

theorem billed_foldl : Billed host input paths (paths.foldl (host.collectFile input) {}) := by
  induction paths using List.reverseRecOn with
  | nil => exact ⟨List.nodup_nil, by simp, by simp, List.nodup_nil, by simp, by simp⟩
  | append_singleton paths last ih =>
      rw [List.foldl_append]
      exact ih.collectFile last

theorem sum_numbers (slices : List (UsageField → ℚ)) :
    (slices.map numbers).sum = numbers slices.sum := by
  induction slices with
  | nil => rfl
  | cons slice slices ih =>
      rw [List.map_cons, List.sum_cons, ih, List.sum_cons, numbers_add]

end ClaudeHost

end Newide.Usage.Summaries
