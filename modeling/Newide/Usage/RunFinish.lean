import Mathlib.Logic.Function.Basic
import Newide.Usage.TokenLedger

/-!
# Run finish and backfill

Who writes the ledger: `FileRunTerminalOutputWriter.finalize` of
`src/app/run-terminal-output-writer.ts` at the end of a run, and
`backfillTokenUsageLedger` of `src/app/run-usage-history.ts` from the run
directories.  Both await between their reads and their writes, so the
state holds where each of those in flight stands; a restart, or an
input-output failure, cuts one off where it stands.
-/

namespace Newide.Usage

/-! ## The run directory -/

/-- `summary.json`: its task, the legs of `token_usage`, and the sessions of
`driver_billed_usage`. -/
structure RunSummary where
  taskId : String := ""
  proxyLeg : Option RunUsageTokens := none
  driverLeg : Option RunUsageTokens := none
  driverSessions : List DriverSessionRow := []
deriving DecidableEq

structure RunDir where
  runId : String
  summary : RunSummary := {}
  timeline : List LedgerTimelineEvent := []

/-- `isPopulatedRunTokenUsage` -/
def isPopulated (leg : RunUsageTokens) : Bool :=
  0 < leg.totalTokens ∨ 0 < leg.callCount

/-- What the session files say, when they can be read. -/
structure Scrape where
  leg : RunUsageTokens
  sessions : List DriverSessionRow := []

/-- The total of `mergeTokenUsageSummaries`, counted anew from the parts. -/
def mergedTotal (legs : List RunUsageTokens) : Nat :=
  (legs.map (·.inputTokens)).sum + (legs.map (·.cacheCreationInputTokens)).sum +
    (legs.map (·.cacheReadInputTokens)).sum + (legs.map (·.outputTokens)).sum

def mergeBilledTokenUsage (raw : RunSummary) (scrape : Option Scrape) : RunSummary :=
  let existing := raw.proxyLeg.filter isPopulated
  match raw.driverLeg, scrape with
  | some _, _ => raw
  | none, none => raw
  | none, some scraped =>
      if isPopulated scraped.leg = false then raw
      else if mergedTotal (existing.toList ++ [scraped.leg]) ≤ legTotal existing then raw
      else
        { raw with
          proxyLeg := existing
          driverLeg := some scraped.leg
          driverSessions := scraped.sessions }

/-! ## Parties in flight -/

inductive FinishPoint where
  /-- `result.json`, `summary.json` and `timeline.json` are yet to be written. -/
  | writing
  | readingExtras
  | writingExtras (raw : RunSummary)
  | readingBilled
  | writingBilled (raw : RunSummary)
  | readingLedger
  | appending (raw : RunSummary)
deriving DecidableEq

structure Finish where
  runId : String
  taskId : String
  timeline : List LedgerTimelineEvent
  point : FinishPoint := .writing

def Finish.firstDir (finish : Finish) : RunDir where
  runId := finish.runId
  summary :=
    { taskId := finish.taskId
      proxyLeg := resolveTokenUsageFromTimeline finish.timeline }
  timeline := finish.timeline

structure Backfill where
  recordedAt : String
  /-- The directories yet to be read. -/
  rest : List String
  /-- The summary read last, not yet held against the ledger. -/
  held : Option (String × RunSummary) := none
  batch : List TokenUsageLedgerEntry := []
  /-- For the statements only: the runs cut off before this backfill began. -/
  covers : List String := []

structure UsageState where
  dirs : List RunDir := []
  ledger : TokenUsageLedger := []
  finishes : Nat → Option Finish := fun _ => none
  backfills : Nat → Option Backfill := fun _ => none
  /-- For the statements only: the runs whose proxy leg a backfill has taken up. -/
  takenUp : List String := []
  /-- For the statements only: the runs whose finish was cut off behind the summary and that
  neither a later finish nor a later backfill has made up for. -/
  cutOff : List String := []

namespace UsageState

def dir? (s : UsageState) (runId : String) : Option RunDir :=
  Rows.lookup (·.runId) runId s.dirs

def setFinish (s : UsageState) (id : Nat) (finish : Option Finish) : UsageState :=
  { s with finishes := Function.update s.finishes id finish }

def setBackfill (s : UsageState) (id : Nat) (backfill : Option Backfill) : UsageState :=
  { s with backfills := Function.update s.backfills id backfill }

/-- `wx`: what is there stays. -/
def writeIfMissing (s : UsageState) (finish : Finish) : UsageState :=
  match s.dir? finish.runId with
  | some _ => s
  | none => { s with dirs := s.dirs ++ [finish.firstDir] }

def writeSummary (s : UsageState) (runId : String) (raw : RunSummary) : UsageState :=
  { s with dirs := Rows.update (·.runId) runId (fun dir => { dir with summary := raw }) s.dirs }

def append (s : UsageState) (entries : List TokenUsageLedgerEntry) : UsageState :=
  { s with ledger := appendTokenUsage s.ledger entries }

variable {s : UsageState} {finish : Finish} {runId : String} {raw : RunSummary} {dir : RunDir}

theorem dir?_writeIfMissing (hnone : s.dir? finish.runId = none) :
    (s.writeIfMissing finish).dir? runId =
      if runId = finish.runId then some finish.firstDir else s.dir? runId := by
  have hnew : Rows.lookup RunDir.runId finish.firstDir.runId s.dirs = none := hnone
  unfold writeIfMissing
  rw [hnone]
  exact Rows.lookup_append_new hnew

theorem writeIfMissing_eq (hdir : s.dir? finish.runId = some dir) :
    s.writeIfMissing finish = s := by
  unfold writeIfMissing
  rw [hdir]

theorem dir?_writeSummary {other : String} : (s.writeSummary runId raw).dir? other =
    if other = runId then (s.dir? other).map fun dir => { dir with summary := raw }
    else s.dir? other :=
  Rows.lookup_update fun _ => rfl

end UsageState

/-! ## The finish of a run -/

/-- What a finish meets outside: whether there are extras to merge, what the scrape finds, and
the clock. -/
structure FinishInput where
  extrasChanged : Bool := false
  scrape : Option Scrape := none
  now : String := ""

/-- The summary a finish writes back or bills in its next step. -/
def FinishPoint.used? (point : FinishPoint) (input : FinishInput) : Option RunSummary :=
  match point with
  | .writingExtras raw => if input.extrasChanged then some raw else none
  | .writingBilled raw | .appending raw => some raw
  | _ => none

def FinishPoint.bills : FinishPoint → Bool
  | .appending _ => true
  | _ => false

/-- The rows of `appendUsageLedger`. -/
def finishEntries (finish : Finish) (raw : RunSummary) (now : String) :
    List TokenUsageLedgerEntry :=
  buildTokenUsageLedgerEntries
    { runId := finish.runId
      taskId := finish.taskId
      timeline := some finish.timeline
      driverBilledLeg := readLeg raw.driverLeg
      driverBilledUsage := raw.driverSessions
      recordedAt := now }

/-- Go on to a point that follows a read of the summary; without one, to `otherwise`. -/
def readSummary (s : UsageState) (id : Nat) (finish : Finish) (next : RunSummary → FinishPoint)
    (otherwise : Option Finish) : UsageState :=
  match s.dir? finish.runId with
  | some dir => s.setFinish id (some { finish with point := next dir.summary })
  | none => s.setFinish id otherwise

def stepFinish (s : UsageState) (id : Nat) (finish : Finish) (input : FinishInput) : UsageState :=
  match finish.point with
  | .writing =>
      (s.writeIfMissing finish).setFinish id (some { finish with point := .readingExtras })
  | .readingExtras =>
      readSummary s id finish .writingExtras (some { finish with point := .readingBilled })
  | .writingExtras raw =>
      (if input.extrasChanged then s.writeSummary finish.runId raw else s).setFinish id
        (some { finish with point := .readingBilled })
  | .readingBilled =>
      readSummary s id finish .writingBilled (some { finish with point := .readingLedger })
  | .writingBilled raw =>
      (s.writeSummary finish.runId (mergeBilledTokenUsage raw input.scrape)).setFinish id
        (some { finish with point := .readingLedger })
  | .readingLedger => readSummary s id finish .appending none
  | .appending raw =>
      let appended := (s.append (finishEntries finish raw input.now)).setFinish id none
      { appended with cutOff := appended.cutOff.filter (· ≠ finish.runId) }

/-! ## The backfill -/

/-- `nonEmptyString` of the task id. -/
def hasTaskId (summary : RunSummary) : Bool :=
  summary.taskId.toList.any fun c => !c.isWhitespace

def backfillEntries (ledger : TokenUsageLedger) (runId : String) (summary : RunSummary)
    (recordedAt : String) : List TokenUsageLedgerEntry :=
  if hasTaskId summary then
    buildTokenUsageLedgerEntries
      { runId
        taskId := summary.taskId
        proxyLeg :=
          if presentLedgerSource ledger runId .proxy then none else readLeg summary.proxyLeg
        driverBilledLeg :=
          if presentLedgerSource ledger runId .claudeSessionJsonl then none
          else readLeg summary.driverLeg
        driverBilledUsage := summary.driverSessions
        recordedAt }
  else []

/-- After the last directory the whole batch is appended, without another await. -/
def settleBackfill (s : UsageState) (id : Nat) (backfill : Backfill) : UsageState :=
  if backfill.rest = [] then
    let appended := (s.append backfill.batch).setBackfill id none
    { appended with cutOff := appended.cutOff.filter (· ∉ backfill.covers) }
  else s.setBackfill id (some backfill)

/-- The backfill reads the next summary, or holds the last one read against the ledger. -/
def stepBackfill (s : UsageState) (id : Nat) (backfill : Backfill) : UsageState :=
  match backfill.held, backfill.rest with
  | some (runId, summary), _ =>
      let entries := backfillEntries s.ledger runId summary backfill.recordedAt
      let taken := { s with
        takenUp := if bill entries runId .proxy = [] then s.takenUp else runId :: s.takenUp }
      settleBackfill taken id
        { backfill with held := none, batch := backfill.batch ++ entries }
  | none, [] => settleBackfill s id backfill
  | none, runId :: rest =>
      match s.dir? runId with
      | some dir => s.setBackfill id (some { backfill with rest, held := some (runId, dir.summary) })
      | none => settleBackfill s id { backfill with rest }

/-! ## The system -/

inductive UsageLabel where
  | beginFinish (id : Nat) (runId taskId : String) (timeline : List LedgerTimelineEvent)
  | finish (id : Nat) (input : FinishInput)
  | cutFinish (id : Nat)
  /-- `readdir` may list directories that have no summary yet. -/
  | beginBackfill (id : Nat) (recordedAt : String) (listing : List String)
  | backfill (id : Nat)
  | cutBackfill (id : Nat)

/-- A listing names every directory once. -/
def UsageState.Lists (s : UsageState) (listing : List String) : Prop :=
  listing.Nodup ∧ ∀ dir ∈ s.dirs, dir.runId ∈ listing

instance (s : UsageState) (listing : List String) : Decidable (s.Lists listing) :=
  inferInstanceAs (Decidable (_ ∧ ∀ dir ∈ s.dirs, dir.runId ∈ listing))

/-- A run whose finish is cut off behind the summary is owed its rows again. -/
def cutFinishAt (s : UsageState) (id : Nat) (finish : Finish) : UsageState :=
  let cut := s.setFinish id none
  if finish.point = .writing then cut
  else
    { cut with
      cutOff := finish.runId :: cut.cutOff
      backfills := fun other => (cut.backfills other).map fun backfill =>
        { backfill with covers := backfill.covers.filter (· ≠ finish.runId) } }

def UsageState.next (s : UsageState) : UsageLabel → UsageState
  | .beginFinish id runId taskId timeline =>
      match s.finishes id with
      | none => s.setFinish id (some { runId, taskId, timeline })
      | some _ => s
  | .finish id input =>
      match s.finishes id with
      | none => s
      | some finish => stepFinish s id finish input
  | .cutFinish id =>
      match s.finishes id with
      | none => s
      | some finish => cutFinishAt s id finish
  | .beginBackfill id recordedAt listing =>
      match s.backfills id with
      | none =>
          if s.Lists listing then
            let covers := s.cutOff.filter fun runId =>
              (s.dir? runId).any fun dir => hasTaskId dir.summary
            s.setBackfill id (some { recordedAt, rest := listing, covers })
          else s
      | some _ => s
  | .backfill id =>
      match s.backfills id with
      | none => s
      | some backfill => stepBackfill s id backfill
  | .cutBackfill id => s.setBackfill id none

end Newide.Usage
