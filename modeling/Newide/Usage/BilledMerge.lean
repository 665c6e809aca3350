import Newide.Usage.Summaries

/-!
# Merging the billed usage into a summary

`src/app/run-token-usage-merge.ts`: `summary.json` is read back and the
scraped usage of the driver is merged into its `token_usage`, once.  The
fields that no run touches are `rest`.
-/

namespace Newide.Usage.Summaries

open Record Collation

/-! ## The summary file -/

inductive BilledTokenUsageMergeStatus where
  | merged | unchanged | alreadyMerged | skippedNoWorktree | skippedNoSessionUsage | scrapeFailed

structure BilledTokenUsageMergeResult where
  status : BilledTokenUsageMergeStatus
  totalTokensBefore : WithTop ℚ
  totalTokensAfter : WithTop ℚ

/-- A session of `driver_context_usage`, or of `driver_usage`. -/
structure ContextSession where
  sessionId : Option String := none
  roleId : Option String := none
  reportedCost : Option String := none

/-- The fields that are only read. -/
structure SummaryRest where
  worktreePath : Option String := none
  sessionId : Option String := none
  contextSessions : List ContextSession := []
  others : Record String String := []

structure BilledSession where
  sessionId : String
  counts : Counts
  roleId : Option String
  reportedCost : Option String

structure DriverBilledUsage where
  counts : Counts
  reportedCosts : List String
  sessions : List BilledSession

/-- `raw` -/
structure RunSummary where
  tokenUsage : Option TokenUsageSummary := none
  driverBilledUsage : Option DriverBilledUsage := none
  driverBilledMerge : Option BilledTokenUsageMergeResult := none
  rest : SummaryRest := {}

structure CollectInput where
  worktreePath : String
  sessionId : Option String
  sessionIds : List String

/-- `collectClaudeSessionUsage`, or none where it throws. -/
abbrev CollectClaudeSessionUsage := CollectInput → Option TokenUsageSummary

/-! ## One run -/

def nonEmptyString (value : Option String) : Option String :=
  value.filter fun text => text.toList.any fun c => !c.isWhitespace

/-- `NaN` is `null` in the file, and `Number(null ?? 0)` is 0. -/
def isPopulatedRunTokenUsage (usage : TokenUsageSummary) : Bool :=
  0 < (usage.counts .totalTokens).untopD 0 || 0 < (usage.counts .callCount).untopD 0

def collectDriverSessionIds (rest : SummaryRest) : List String :=
  ((rest.sessionId :: rest.contextSessions.map (·.sessionId)).filterMap nonEmptyString).eraseDups

def buildDriverBilledUsage (merged : TokenUsageSummary) (rest : SummaryRest) :
    Option DriverBilledUsage :=
  let sessions := sortOn compare Prod.fst merged.bySession
  if sessions = [] then none
  else
    let context (id : String) := rest.contextSessions.reverse.find? fun session =>
      nonEmptyString session.sessionId = some id
    some
      { counts := (merged.bySource.get "claude_session_jsonl").getD (sessions.map Prod.snd).sum
        reportedCosts := rest.contextSessions.filterMap (·.reportedCost)
        sessions := sessions.map fun session =>
          { sessionId := session.1
            counts := session.2
            roleId := (context session.1).bind (nonEmptyString ·.roleId)
            reportedCost := (context session.1).bind (·.reportedCost) } }

/-- `x <= y`; no comparison with `NaN` holds. -/
def isAtMost (x : WithTop ℚ) (y : ℚ) : Bool := x ≠ ⊤ && x ≤ y

def resolveBilledMerge (collect : CollectClaudeSessionUsage) (rest : SummaryRest)
    (existing : Option TokenUsageSummary) (before : ℚ) :
    BilledTokenUsageMergeResult × Option TokenUsageSummary :=
  let noChange (status : BilledTokenUsageMergeStatus) :
      BilledTokenUsageMergeResult × Option TokenUsageSummary := (⟨status, before, before⟩, none)
  if existing.any fun usage => usage.sources.contains "claude_session_jsonl" then
    noChange .alreadyMerged
  else
    match nonEmptyString rest.worktreePath with
    | none => noChange .skippedNoWorktree
    | some worktreePath =>
        match collect
          { worktreePath
            sessionId := nonEmptyString rest.sessionId
            sessionIds := collectDriverSessionIds rest } with
        | none => noChange .scrapeFailed
        | some scraped =>
            if isUsable scraped = false then noChange .skippedNoSessionUsage
            else
              let merged := mergeTokenUsageSummaries (existing.toList ++ [scraped])
              if isAtMost (merged.counts .totalTokens) before then noChange .unchanged
              else (⟨.merged, before, merged.counts .totalTokens⟩, some merged)

def mergeBilledTokenUsage (collect : CollectClaudeSessionUsage) (raw : RunSummary) : RunSummary :=
  let existing := raw.tokenUsage.filter isPopulatedRunTokenUsage
  let before := existing.elim 0 fun usage => (usage.counts .totalTokens).untopD 0
  match resolveBilledMerge collect raw.rest existing before with
  | (result, none) => { raw with driverBilledMerge := some result }
  | (result, some merged) =>
      { raw with
        driverBilledMerge := some result
        tokenUsage := some merged
        driverBilledUsage :=
          buildDriverBilledUsage merged raw.rest <|> raw.driverBilledUsage }

def mergeRuns (collects : List CollectClaudeSessionUsage) (raw : RunSummary) : RunSummary :=
  collects.foldl (fun raw collect => mergeBilledTokenUsage collect raw) raw

/-- `total_tokens` -/
def RunSummary.total (raw : RunSummary) : WithTop ℚ :=
  raw.tokenUsage.elim 0 fun usage => usage.counts .totalTokens

/-! ## What one run can do -/

def Merges (collect : CollectClaudeSessionUsage) (raw : RunSummary) : Prop :=
  (mergeBilledTokenUsage collect raw).driverBilledMerge.map (·.status) = some .merged

/-- Token usage that was folded from these entries, if there is any. -/
def Produced (raw : RunSummary) (entries : List LlmUsageEntry) : Prop :=
  match raw.tokenUsage with
  | none => entries = []
  | some usage => SameSummary usage (toRunTokenUsageSummary entries)

/-- What `collectClaudeSessionUsage` can return. -/
def Collected (result : TokenUsageSummary) : Prop :=
  ∃ entries : List LlmUsageEntry, (∀ entry ∈ entries, entry.source = "claude_session_jsonl") ∧
    SameSummary result (toRunTokenUsageSummary entries)

def HasLeg (raw : RunSummary) : Prop :=
  ∃ usage, raw.tokenUsage = some usage ∧ isPopulatedRunTokenUsage usage ∧
    "claude_session_jsonl" ∈ usage.sources

/-- Only the status is written. -/
structure Leaves (raw after : RunSummary) : Prop where
  tokenUsage : after.tokenUsage = raw.tokenUsage
  driverBilledUsage : after.driverBilledUsage = raw.driverBilledUsage

variable {raw : RunSummary} {entries : List LlmUsageEntry} {collect : CollectClaudeSessionUsage}
  {collects : List CollectClaudeSessionUsage}

theorem le_of_isAtMost {x y : ℚ} (h : isAtMost x y = false) : (y : WithTop ℚ) ≤ x := by
  unfold isAtMost at h
  rw [decide_eq_true (WithTop.coe_ne_top (a := x)), Bool.true_and, decide_eq_false_iff_not] at h
  exact le_of_not_ge h

theorem mergeBilledTokenUsage_rest : (mergeBilledTokenUsage collect raw).rest = raw.rest := by
  unfold mergeBilledTokenUsage
  dsimp only
  split <;> rfl

theorem HasLeg.leaves (h : HasLeg raw) :
    Leaves raw (mergeBilledTokenUsage collect raw) ∧ ¬ Merges collect raw := by
  obtain ⟨usage, husage, hpopulated, hleg⟩ := h
  have hexisting : raw.tokenUsage.filter isPopulatedRunTokenUsage = some usage := by
    rw [husage, Option.filter_some, if_pos hpopulated]
  have hcontains : (some usage).any (fun usage : TokenUsageSummary =>
      usage.sources.contains "claude_session_jsonl") = true := List.contains_iff_mem.mpr hleg
  have hstep : ∃ before : ℚ, mergeBilledTokenUsage collect raw =
      { raw with driverBilledMerge := some ⟨.alreadyMerged, before, before⟩ } := by
    unfold mergeBilledTokenUsage resolveBilledMerge
    simp only [hexisting, hcontains, if_true]
    exact ⟨_, rfl⟩
  obtain ⟨before, hstep⟩ := hstep
  unfold Merges
  rw [hstep]
  exact ⟨⟨rfl, rfl⟩, by simp⟩

theorem Produced.total (h : Produced raw entries) :
    raw.total = numbers (summarize entries) .totalTokens := by
  unfold Produced at h
  unfold RunSummary.total
  split at h
  · rename_i hnone
    rw [hnone, h, summarize_nil]
    rfl
  · rename_i usage husage
    rw [husage, Option.elim_some, h.counts, counts_toRun]

theorem Produced.existing (h : Produced raw entries) : ∃ parts : List (List LlmUsageEntry),
    parts.flatten = entries ∧
      List.Forall₂ SameSummary (raw.tokenUsage.filter isPopulatedRunTokenUsage).toList
        (parts.map fun part => toRunTokenUsageSummary part) ∧
      ((raw.tokenUsage.filter isPopulatedRunTokenUsage).elim 0 fun usage =>
        (usage.counts .totalTokens).untopD 0) = summarize entries .totalTokens := by
  unfold Produced at h
  split at h
  · rename_i hnone
    rw [hnone, h, summarize_nil]
    exact ⟨[], rfl, .nil, rfl⟩
  rename_i usage husage
  have hcounts := h.counts.trans counts_toRun
  rw [husage]
  by_cases hempty : entries = []
  · have hunpopulated : isPopulatedRunTokenUsage usage = false := by
      simp [isPopulatedRunTokenUsage, hcounts, hempty]
    rw [Option.filter_some, hunpopulated, hempty, summarize_nil]
    exact ⟨[], rfl, .nil, rfl⟩
  · have hcalls : (0 : ℚ) < summarize entries .callCount :=
      Nat.cast_pos.mpr (List.length_pos_iff.mpr hempty)
    have hpopulated : isPopulatedRunTokenUsage usage = true := by
      refine Bool.or_eq_true_iff.mpr (.inr (decide_eq_true ?_))
      rw [hcounts]
      exact hcalls
    rw [Option.filter_some, if_pos hpopulated]
    refine ⟨[entries], List.append_nil entries, .cons h .nil, ?_⟩
    rw [Option.elim_some, hcounts]
    rfl

/-- The merge of a collected result adds its total, and brings the leg of the driver. -/
structure Bills (raw after : RunSummary) (result : TokenUsageSummary) : Prop where
  total : after.total = raw.total + result.counts .totalTokens
  grows : raw.total ≤ after.total
  leg : HasLeg after

theorem resolveBilledMerge_cases (rest : SummaryRest) (existing : Option TokenUsageSummary)
    (before : ℚ) :
    (∃ result, resolveBilledMerge collect rest existing before = (result, none) ∧
        result.status ≠ .merged) ∨
      ∃ input scraped, collect input = some scraped ∧ isUsable scraped ∧
        let merged := mergeTokenUsageSummaries (existing.toList ++ [scraped])
        isAtMost (merged.counts .totalTokens) before = false ∧
          resolveBilledMerge collect rest existing before =
            (⟨.merged, before, merged.counts .totalTokens⟩, some merged) := by
  unfold resolveBilledMerge
  dsimp only
  split_ifs
  · exact .inl ⟨_, rfl, by simp⟩
  split
  · exact .inl ⟨_, rfl, by simp⟩
  split
  · exact .inl ⟨_, rfl, by simp⟩
  rename_i scraped hscraped
  split_ifs with husable hmost
  · exact .inl ⟨_, rfl, by simp⟩
  · exact .inl ⟨_, rfl, by simp⟩
  · exact .inr ⟨_, scraped, hscraped, by simpa using husable, by simpa using hmost, rfl⟩

theorem Produced.step (h : Produced raw entries) (hproper : Proper entries)
    (hordinary : Ordinary entries)
    (hcollected : ∀ input result, collect input = some result → Collected result) :
    Leaves raw (mergeBilledTokenUsage collect raw) ∧ ¬ Merges collect raw ∨
      Merges collect raw ∧ ∃ input result, collect input = some result ∧
        Bills raw (mergeBilledTokenUsage collect raw) result := by
  obtain ⟨parts, hflatten, hparts, hbefore⟩ := h.existing
  unfold Merges mergeBilledTokenUsage
  dsimp only
  rw [hbefore]
  rcases @resolveBilledMerge_cases collect raw.rest
    (raw.tokenUsage.filter isPopulatedRunTokenUsage) (summarize entries .totalTokens) with
    ⟨result, hresolve, hstatus⟩ | ⟨input, scraped, hscraped, husable, hmost, hresolve⟩
  · rw [hresolve]
    exact .inl ⟨⟨rfl, rfl⟩, by simpa using hstatus⟩
  rw [hresolve]
  refine .inr ⟨rfl, input, scraped, hscraped, ?_⟩
  obtain ⟨calls, hleg, hsame⟩ := hcollected input scraped hscraped
  -- the merged summary is that of the entries and the calls together
  have hflat : (parts ++ [calls]).flatten = entries ++ calls := by simp [hflatten]
  have hmerged : SameSummary
      (mergeTokenUsageSummaries
        ((raw.tokenUsage.filter isPopulatedRunTokenUsage).toList ++ [scraped]))
      (mergedParts (parts ++ [calls])) := by
    refine merge_congr ?_
    rw [List.map_append]
    exact List.rel_append hparts (.cons hsame .nil)
  have hproper : Proper (parts ++ [calls]).flatten := by
    rw [hflat]
    intro entry hentry
    rcases List.mem_append.mp hentry with hin | hin
    · exact hproper entry hin
    · rw [hleg entry hin]
      rfl
  have hordinary : Ordinary (parts ++ [calls]).flatten := by
    rw [hflat]
    intro entry hentry
    rcases List.mem_append.mp hentry with hin | hin
    · exact hordinary entry hin
    · rw [hleg entry hin]
      decide
  have hwhole := mergedParts_same hproper hordinary
  have hcounts := (hmerged.counts.trans hwhole.counts).trans counts_toRun
  rw [hflat] at hcounts
  have hcalls : calls ≠ [] := by
    rw [isUsable, hsame.counts] at husable
    exact isUsable_toRun.mp husable
  have hne : entries ++ calls ≠ [] := fun h => hcalls (List.append_eq_nil_iff.mp h).2
  constructor
  · refine (congrFun hcounts .totalTokens).trans ?_
    rw [summarize_append, numbers_add, Pi.add_apply, h.total, hsame.counts, counts_toRun]
  · rw [hcounts] at hmost
    refine h.total.trans_le ((le_of_isAtMost hmost).trans_eq ?_)
    exact (congrFun hcounts .totalTokens).symm
  · refine ⟨_, rfl, ?_, ?_⟩
    · have hpos : (0 : ℚ) < summarize (entries ++ calls) .callCount :=
        Nat.cast_pos.mpr (List.length_pos_iff.mpr hne)
      refine Bool.or_eq_true_iff.mpr (.inr (decide_eq_true ?_))
      rw [hcounts]
      exact hpos
    · rw [hmerged.sources, hwhole.sources, hflat, sources_toRun hne, mem_sortOn, mem_sourcesOf]
      obtain ⟨call, hcall⟩ := List.exists_mem_of_ne_nil _ hcalls
      exact ⟨call, List.mem_append_right _ hcall, hleg call hcall⟩

/-! ## All runs -/

theorem mergeRuns_snoc : mergeRuns (collects ++ [collect]) raw =
    mergeBilledTokenUsage collect (mergeRuns collects raw) := by
  rw [mergeRuns, List.foldl_append]
  rfl

/-- None of the runs merges, and the usage is as at the start. -/
structure Waits (collects : List CollectClaudeSessionUsage) (raw : RunSummary) : Prop where
  leaves : Leaves raw (mergeRuns collects raw)
  never : ∀ earlier collect, earlier ++ [collect] <+: collects →
    ¬ Merges collect (mergeRuns earlier raw)

/-- One run is the first to merge, and no later one touches the usage. -/
def MergesOnce (collects : List CollectClaudeSessionUsage) (raw : RunSummary) : Prop :=
  ∃ earlier collect later input result, collects = earlier ++ collect :: later ∧
    Waits earlier raw ∧ Merges collect (mergeRuns earlier raw) ∧ collect input = some result ∧
    Leaves (mergeRuns (earlier ++ [collect]) raw) (mergeRuns collects raw) ∧
    Bills raw (mergeRuns collects raw) result

theorem Leaves.total {after : RunSummary} (h : Leaves raw after) : after.total = raw.total := by
  rw [RunSummary.total, h.tokenUsage, RunSummary.total]

theorem Waits.snoc (h : Waits collects raw)
    (hleaves : Leaves (mergeRuns collects raw)
      (mergeBilledTokenUsage collect (mergeRuns collects raw)))
    (hnot : ¬ Merges collect (mergeRuns collects raw)) : Waits (collects ++ [collect]) raw := by
  constructor
  · rw [mergeRuns_snoc]
    exact ⟨hleaves.tokenUsage.trans h.leaves.tokenUsage,
      hleaves.driverBilledUsage.trans h.leaves.driverBilledUsage⟩
  · intro earlier last hearlier
    rcases List.prefix_concat_iff.mp hearlier with heq | hin
    · obtain ⟨rfl, hlast⟩ := List.append_inj' heq rfl
      cases hlast
      exact hnot
    · exact h.never earlier last hin

/-- The step lemma: the runs so far, and one more. -/
theorem runs_step (hproduced : Produced raw entries) (hproper : Proper entries)
    (hordinary : Ordinary entries)
    (hcollected : ∀ input result, collect input = some result → Collected result)
    (h : Waits collects raw ∨ MergesOnce collects raw) :
    (Waits (collects ++ [collect]) raw ∨ MergesOnce (collects ++ [collect]) raw) ∧
      (mergeRuns collects raw).total ≤ (mergeRuns (collects ++ [collect]) raw).total := by
  rcases h with hwaits | ⟨earlier, first, later, input, result, rfl, hearlier, hfirst, hresult,
    hlater, hbills⟩
  · have hsofar : Produced (mergeRuns collects raw) entries := by
      unfold Produced
      rw [hwaits.leaves.tokenUsage]
      exact hproduced
    rcases hsofar.step hproper hordinary hcollected with
      ⟨hleaves, hnot⟩ | ⟨hmerges, input, result, hresult, hbills⟩
    · exact ⟨.inl (hwaits.snoc hleaves hnot), by rw [mergeRuns_snoc, hleaves.total]⟩
    · rw [← mergeRuns_snoc] at hbills
      refine ⟨.inr ⟨collects, collect, [], input, result, rfl, hwaits, hmerges, hresult,
        ⟨rfl, rfl⟩, ?_⟩, hbills.grows⟩
      exact ⟨hwaits.leaves.total ▸ hbills.total, hwaits.leaves.total ▸ hbills.grows, hbills.leg⟩
  · have hleaves : Leaves (mergeRuns (earlier ++ first :: later) raw)
        (mergeRuns (earlier ++ first :: later ++ [collect]) raw) := by
      rw [mergeRuns_snoc]
      exact hbills.leg.leaves.1
    refine ⟨.inr ⟨earlier, first, later ++ [collect], input, result, by simp, hearlier, hfirst,
      hresult, ⟨hleaves.tokenUsage.trans hlater.tokenUsage,
        hleaves.driverBilledUsage.trans hlater.driverBilledUsage⟩, ?_⟩, hleaves.total.ge⟩
    refine ⟨hleaves.total.trans hbills.total, hbills.grows.trans_eq hleaves.total.symm, ?_⟩
    obtain ⟨usage, husage, hleg⟩ := hbills.leg
    exact ⟨usage, hleaves.tokenUsage.trans husage, hleg⟩

/-- Seven tokens of one source so far. -/
def labelledSummary (source : String) : RunSummary where
  tokenUsage := some (toRunTokenUsageSummary [{ inputTokens := 5, outputTokens := 2, source }])
  rest := { worktreePath := some "/worktree" }

def driverResult : TokenUsageSummary :=
  toRunTokenUsageSummary
    [{ inputTokens := 15, outputTokens := 5, source := "claude_session_jsonl" }]

theorem driverResult_collected : Collected driverResult := by
  refine ⟨_, fun entry hentry => ?_, ⟨rfl, rfl, rfl, fun s => rfl⟩⟩
  rw [List.mem_singleton.mp hentry]

end Newide.Usage.Summaries
