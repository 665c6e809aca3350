import Newide.Usage.RunFinish

/-!
# What is expected of a bill

The invariant of the ledger, run by run: the bill of each source is
missing or the one expected, which whoever comes first decides; what is
in flight holds nothing else.  A step of one run leaves the invariant of
the others.
-/

namespace Newide.Usage

open UsageState

/-! ## What is expected of a run -/

namespace UsageState

variable (s : UsageState) (runId : String)

/-- The directory of a run; one that is not there is as good as empty. -/
def dirOf : RunDir :=
  (s.dir? runId).getD { runId }

def legOf : UsageSource → Option RunUsageTokens
  | .proxy => (s.dirOf runId).summary.proxyLeg
  | .claudeSessionJsonl => (s.dirOf runId).summary.driverLeg

/-- The bill of a source, once there is one: whoever comes first decides how the proxy leg is
split. -/
def expected : UsageSource → RoleTokens
  | .proxy =>
      if runId ∈ s.takenUp then rollupLeg (s.dirOf runId).summary.proxyLeg
      else rollupProxyByRole (s.dirOf runId).timeline
  | .claudeSessionJsonl =>
      rollupDriverByRole (s.dirOf runId).summary.driverLeg (s.dirOf runId).summary.driverSessions

/-- A source has been billed, or has nothing to bill. -/
def Settled (source : UsageSource) : Prop :=
  bill s.ledger runId source ≠ [] ∨ legTotal (s.legOf runId source) = 0

/-- No finish of the run is behind its summary. -/
def Quiet : Prop :=
  ∀ id finish, s.finishes id = some finish → finish.runId = runId → finish.point = .writing

end UsageState

/-- A bill is missing or the one expected. -/
def Fits (byRole want : RoleTokens) : Prop :=
  byRole = [] ∨ byRole = want

structure RunBilled (s : UsageState) (runId : String) : Prop where
  leg : (s.dirOf runId).summary.proxyLeg = resolveTokenUsageFromTimeline (s.dirOf runId).timeline
  ledger : ∀ source, Fits (bill s.ledger runId source) (s.expected runId source)
  calls : ∀ id finish, s.finishes id = some finish → finish.runId = runId →
    ∀ dir, s.dir? runId = some dir → proxyCalls finish.timeline = proxyCalls dir.timeline
  agree : ∀ id id' finish finish', s.finishes id = some finish → s.finishes id' = some finish' →
    finish.runId = runId → finish'.runId = runId →
      proxyCalls finish.timeline = proxyCalls finish'.timeline
  started : ∀ id finish, s.finishes id = some finish → finish.runId = runId →
    finish.point ≠ .writing → (s.dir? runId).isSome
  takenLeg : runId ∈ s.takenUp → (readLeg (s.dirOf runId).summary.proxyLeg).isSome
  settled : runId ∉ s.cutOff → s.Quiet runId → ∀ source, s.Settled runId source

structure BackfillFits (s : UsageState) (backfill : Backfill) (runId : String) : Prop where
  batch : ∀ source, Fits (bill backfill.batch runId source) (s.expected runId source)
  taken : bill backfill.batch runId .proxy ≠ [] → runId ∈ s.takenUp
  held : ∀ raw, backfill.held = some (runId, raw) → (s.dir? runId).isSome ∧
    raw.taskId = (s.dirOf runId).summary.taskId ∧
    raw.proxyLeg = (s.dirOf runId).summary.proxyLeg ∧
    (raw.driverLeg = none ∨ raw = (s.dirOf runId).summary)
  unread : (runId ∈ backfill.rest ∨ ∃ raw, backfill.held = some (runId, raw)) →
    ∀ source, bill backfill.batch runId source = []
  task : runId ∈ backfill.covers →
    (s.dir? runId).isSome ∧ hasTaskId (s.dirOf runId).summary = true
  covered : runId ∈ backfill.covers → s.Quiet runId →
    runId ∈ backfill.rest ∨ backfill.held = some (runId, (s.dirOf runId).summary) ∨
      ∀ source, s.Settled runId source ∨ bill backfill.batch runId source ≠ []

structure Backfill.WellListed (backfill : Backfill) : Prop where
  nodup : backfill.rest.Nodup
  apart : ∀ runId raw, backfill.held = some (runId, raw) → runId ∉ backfill.rest

structure BilledOnce (s : UsageState) : Prop where
  runs : ∀ runId, RunBilled s runId
  backfills : ∀ id backfill, s.backfills id = some backfill → ∀ runId, BackfillFits s backfill runId
  listed : ∀ id backfill, s.backfills id = some backfill → backfill.WellListed

section Expected

variable {s : UsageState} {runId : String} {source : UsageSource} {summary : RunSummary}

theorem RunBilled.billed_expected (h : RunBilled s runId) :
    billed (s.expected runId source) = legTotal (s.legOf runId source) := by
  cases source with
  | proxy =>
      unfold expected legOf
      dsimp only
      split
      · exact billed_rollupLeg
      · rw [billed_rollupProxyByRole, h.leg]
  | claudeSessionJsonl => exact billed_rollupDriverByRole

theorem expected_distinct : Rows.Distinct Prod.fst (s.expected runId source) := by
  cases source with
  | proxy =>
      unfold expected
      dsimp only
      split
      · exact rollupLeg_distinct
      · exact rollupProxyByRole_distinct
  | claudeSessionJsonl => exact rollupDriverByRole_distinct

theorem RunBilled.total_le (h : RunBilled s runId) :
    ledgerTotal s.ledger runId source ≤ legTotal (s.legOf runId source) := by
  unfold ledgerTotal
  rcases h.ledger source with hnone | hbill
  · rw [hnone]
    exact Nat.zero_le _
  · rw [hbill, h.billed_expected]

theorem RunBilled.total_eq (h : RunBilled s runId) (hsettled : s.Settled runId source) :
    ledgerTotal s.ledger runId source = legTotal (s.legOf runId source) := by
  rcases hsettled with hbilled | hzero
  · unfold ledgerTotal
    rw [(h.ledger source).resolve_left hbilled, h.billed_expected]
  · exact Nat.le_antisymm h.total_le (hzero ▸ Nat.zero_le _)

@[simp] theorem readLeg_readLeg (leg : Option RunUsageTokens) :
    readLeg (readLeg leg) = readLeg leg := by
  simp [readLeg, Option.filter_filter]

@[simp] theorem rollupLeg_readLeg (leg : Option RunUsageTokens) :
    rollupLeg (readLeg leg) = rollupLeg leg := by
  simp [rollupLeg]

@[simp] theorem rollupDriverByRole_readLeg (leg : Option RunUsageTokens)
    (sessions : List DriverSessionRow) :
    rollupDriverByRole (readLeg leg) sessions = rollupDriverByRole leg sessions := by
  simp [rollupDriverByRole]

@[simp] theorem rollupDriverByRole_none (sessions : List DriverSessionRow) :
    rollupDriverByRole none sessions = [] :=
  rfl

variable {t : UsageState}

theorem expected_congr (hdir : t.dirOf runId = s.dirOf runId)
    (htaken : runId ∈ t.takenUp ↔ runId ∈ s.takenUp) :
    t.expected runId source = s.expected runId source := by
  cases source with
  | proxy => simp only [expected, hdir, htaken]
  | claudeSessionJsonl => simp only [expected, hdir]

theorem legOf_congr (hdir : t.dirOf runId = s.dirOf runId) :
    t.legOf runId source = s.legOf runId source := by
  cases source with
  | proxy => simp only [legOf, hdir]
  | claudeSessionJsonl => simp only [legOf, hdir]

theorem settled_congr (hdir : t.dirOf runId = s.dirOf runId)
    (hbill : bill t.ledger runId source = bill s.ledger runId source) :
    t.Settled runId source ↔ s.Settled runId source := by
  unfold UsageState.Settled
  rw [hbill, legOf_congr hdir]

end Expected

/-! ## Steps that leave the directory of a run -/

/-- The directory of a run stands, and its proxy leg is not taken up. -/
structure SameDir (s t : UsageState) (runId : String) : Prop where
  dir : t.dir? runId = s.dir? runId
  taken : runId ∈ t.takenUp ↔ runId ∈ s.takenUp

section Same

variable {s t : UsageState} {runId : String} {source : UsageSource} {backfill : Backfill}

theorem SameDir.dirOf (h : SameDir s t runId) : t.dirOf runId = s.dirOf runId := by
  unfold UsageState.dirOf
  rw [h.dir]

theorem SameDir.expected (h : SameDir s t runId) :
    t.expected runId source = s.expected runId source :=
  expected_congr h.dirOf h.taken

theorem RunBilled.stands (hb : RunBilled s runId) (h : SameDir s t runId)
    (hfinishes : ∀ id finish, t.finishes id = some finish → finish.runId = runId →
      s.finishes id = some finish)
    (hledger : ∀ source, Fits (bill t.ledger runId source) (s.expected runId source))
    (hsettled : runId ∉ t.cutOff → t.Quiet runId → ∀ source, t.Settled runId source) :
    RunBilled t runId where
  leg := by
    rw [h.dirOf]
    exact hb.leg
  ledger source := by
    rw [h.expected]
    exact hledger source
  calls id finish hfinish hrun dir hdir :=
    hb.calls id finish (hfinishes id finish hfinish hrun) hrun dir (h.dir ▸ hdir)
  started id finish hfinish hrun hpoint := by
    rw [h.dir]
    exact hb.started id finish (hfinishes id finish hfinish hrun) hrun hpoint
  agree id id' finish finish' hfinish hfinish' hrun hrun' :=
    hb.agree id id' finish finish' (hfinishes id finish hfinish hrun)
      (hfinishes id' finish' hfinish' hrun') hrun hrun'
  takenLeg htaken := by
    rw [h.dirOf]
    exact hb.takenLeg (h.taken.mp htaken)
  settled := hsettled

/-- A backfill holds the same of the run; what it covers still is settled, or will be. -/
theorem BackfillFits.stands (hb : BackfillFits s backfill runId) (h : SameDir s t runId)
    {covers : List String} (hcovers : runId ∈ covers → runId ∈ backfill.covers)
    (hsettled : runId ∈ covers → t.Quiet runId →
      (s.Quiet runId ∧ ∀ source, s.Settled runId source → t.Settled runId source) ∨
        ∀ source, t.Settled runId source) :
    BackfillFits t { backfill with covers } runId where
  batch source := by
    rw [h.expected]
    exact hb.batch source
  taken hbill := h.taken.mpr (hb.taken hbill)
  held raw hraw := by
    rw [h.dir, h.dirOf]
    exact hb.held raw hraw
  unread := hb.unread
  task hcovered := by
    rw [h.dir, h.dirOf]
    exact hb.task (hcovers hcovered)
  covered hcovered hquiet := by
    rw [h.dirOf]
    rcases hsettled hcovered hquiet with ⟨hbefore, hstill⟩ | hall
    · refine (hb.covered (hcovers hcovered) hbefore).imp_right (Or.imp_right fun hall source => ?_)
      exact (hall source).imp_left (hstill source)
    · exact .inr (.inr fun source => .inl (hall source))

/-! ## Steps of other runs -/

structure SameRun (s t : UsageState) (runId : String) : Prop where
  dir : t.dir? runId = s.dir? runId
  ledger : ∀ source, bill t.ledger runId source = bill s.ledger runId source
  finishes : ∀ id finish, finish.runId = runId →
    (t.finishes id = some finish ↔ s.finishes id = some finish)
  taken : runId ∈ t.takenUp ↔ runId ∈ s.takenUp

theorem SameRun.sameDir (h : SameRun s t runId) : SameDir s t runId := ⟨h.dir, h.taken⟩

theorem SameRun.settled (h : SameRun s t runId) :
    t.Settled runId source ↔ s.Settled runId source :=
  settled_congr h.sameDir.dirOf (h.ledger source)

theorem SameRun.quiet (h : SameRun s t runId) (hquiet : t.Quiet runId) : s.Quiet runId :=
  fun id finish hfinish hrun => hquiet id finish ((h.finishes id finish hrun).mpr hfinish) hrun

theorem RunBilled.same (hb : RunBilled s runId) (h : SameRun s t runId)
    (hcut : runId ∈ s.cutOff → runId ∈ t.cutOff) : RunBilled t runId :=
  hb.stands h.sameDir (fun id finish hfinish hrun => (h.finishes id finish hrun).mp hfinish)
    (fun source => h.ledger source ▸ hb.ledger source) fun hnot hquiet source =>
      h.settled.mpr (hb.settled (mt hcut hnot) (h.quiet hquiet) source)

theorem BackfillFits.same (hb : BackfillFits s backfill runId) (h : SameRun s t runId) :
    BackfillFits t backfill runId :=
  hb.stands h.sameDir (fun hcovers => hcovers) fun _ hquiet =>
    .inl ⟨h.quiet hquiet, fun _ => h.settled.mpr⟩

end Same

end Newide.Usage
