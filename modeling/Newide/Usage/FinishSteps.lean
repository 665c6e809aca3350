import Newide.Usage.LegInvariant

/-!
# The steps of a finish

A finish on its way leaves the summary of its run, or merges the driver
leg into it once; at its end it appends exactly the bill expected.  So
each of its steps keeps the invariant of the ledger.
-/

namespace Newide.Usage

open UsageState

/-! ## Steps of a finish -/

variable {byRole : RoleTokens} {f : Finish} {next : Option Finish} {other : Nat}
  {source : UsageSource}

section FinishSteps

variable {s t : UsageState} {id : Nat} {finish : Finish} {dir : RunDir} {summary : RunSummary}
  {point : FinishPoint} {runId : String}

theorem dirOf_of_dir (h : s.dir? runId = some dir) : s.dirOf runId = dir := by
  simp [dirOf, h]

theorem fits_nil (h : Fits byRole []) : byRole = [] :=
  h.elim (fun heq => heq) fun heq => heq

/-- A finish on its way: the summary of its run is as it was, or has got its driver leg. -/
structure Advance (s t : UsageState) (id : Nat) (finish : Finish) (point : FinishPoint)
    (dir : RunDir) (summary : RunSummary) : Prop where
  stood : s.finishes id = some finish
  before : s.dir? finish.runId = some dir
  after : t.dir? finish.runId = some { dir with summary }
  others : ∀ runId, runId ≠ finish.runId → t.dir? runId = s.dir? runId
  ledger : t.ledger = s.ledger
  finishes : t.finishes = Function.update s.finishes id (some { finish with point })
  backfills : t.backfills = s.backfills
  takenUp : t.takenUp = s.takenUp
  cutOff : t.cutOff = s.cutOff
  taskId : summary.taskId = dir.summary.taskId
  proxyLeg : summary.proxyLeg = dir.summary.proxyLeg
  driverLeg : summary = dir.summary ∨ dir.summary.driverLeg = none
  behind : point ≠ .writing

theorem finishes_update_other (hfinish : s.finishes id = some finish)
    (hnext : ∀ f, next = some f → f.runId = finish.runId) (hne : runId ≠ finish.runId) (other : Nat)
    (f : Finish) (hrun : f.runId = runId) :
    Function.update s.finishes id next other = some f ↔ s.finishes other = some f := by
  by_cases heq : other = id
  · subst heq
    rw [Function.update_self, hfinish]
    constructor
    · intro hf
      exact absurd (hrun.symm.trans (hnext f hf)) hne
    · intro hf
      exact absurd (hrun.symm.trans (Option.some.inj hf ▸ rfl)) hne
  · rw [Function.update_of_ne heq]

theorem finish_cases (hf : Function.update s.finishes id next other = some f) :
    next = some f ∨ s.finishes other = some f := by
  by_cases heq : other = id
  · subst heq
    rw [Function.update_self] at hf
    exact .inl hf
  · rw [Function.update_of_ne heq] at hf
    exact .inr hf

theorem Advance.same (h : Advance s t id finish point dir summary) (hne : runId ≠ finish.runId) :
    SameRun s t runId where
  dir := h.others runId hne
  ledger source := by rw [h.ledger]
  finishes other f hrun := by
    rw [h.finishes]
    refine finishes_update_other h.stood (fun f hf => ?_) hne other f hrun
    cases hf
    rfl
  taken := by rw [h.takenUp]

theorem Advance.expected_fits (h : Advance s t id finish point dir summary)
    (hfits : Fits byRole (s.expected finish.runId source)) :
    Fits byRole (t.expected finish.runId source) := by
  have hbefore := dirOf_of_dir h.before
  have hafter := dirOf_of_dir h.after
  cases source with
  | proxy =>
      simp only [expected, hbefore, hafter, h.takenUp, h.proxyLeg] at hfits ⊢
      exact hfits
  | claudeSessionJsonl =>
      simp only [expected, hbefore, hafter] at hfits ⊢
      rcases h.driverLeg with hsame | hnone
      · rw [hsame]
        exact hfits
      · rw [hnone] at hfits
        exact .inl (fits_nil hfits)

theorem Advance.not_quiet (h : Advance s t id finish point dir summary) :
    ¬ t.Quiet finish.runId := by
  intro hquiet
  have hnow : t.finishes id = some { finish with point } := by
    rw [h.finishes, Function.update_self]
  exact h.behind (hquiet id _ hnow rfl)

theorem Advance.before_of (h : Advance s t id finish point dir summary)
    (hf : t.finishes other = some f) : ∃ id' f', s.finishes id' = some f' ∧ f'.runId = f.runId ∧
      f'.timeline = f.timeline := by
  rw [h.finishes] at hf
  rcases finish_cases hf with hnow | hold
  · cases hnow
    exact ⟨id, finish, h.stood, rfl, rfl⟩
  · exact ⟨other, f, hold, rfl, rfl⟩

theorem Advance.runBilled (h : Advance s t id finish point dir summary)
    (hb : RunBilled s finish.runId) : RunBilled t finish.runId where
  leg := by
    have hleg := hb.leg
    rw [dirOf_of_dir h.before] at hleg
    rw [dirOf_of_dir h.after]
    exact h.proxyLeg.trans hleg
  ledger source := by
    rw [h.ledger]
    exact h.expected_fits (hb.ledger source)
  calls other f hf hrun dir' hdir' := by
    obtain ⟨id', f', hf', hrunId, htimeline⟩ := h.before_of hf
    obtain rfl := Option.some.inj (h.after.symm.trans hdir')
    rw [← htimeline]
    exact hb.calls id' f' hf' (hrunId.trans hrun) dir h.before
  agree other other' f f' hf hf' hrun hrun' := by
    obtain ⟨id, g, hg, hrunId, htimeline⟩ := h.before_of hf
    obtain ⟨id', g', hg', hrunId', htimeline'⟩ := h.before_of hf'
    rw [← htimeline, ← htimeline']
    exact hb.agree id id' g g' hg hg' (hrunId.trans hrun) (hrunId'.trans hrun')
  started _ _ _ _ _ := by
    rw [h.after]
    rfl
  takenLeg htaken := by
    have hleg := hb.takenLeg (h.takenUp ▸ htaken)
    rw [dirOf_of_dir h.before] at hleg
    rw [dirOf_of_dir h.after]
    exact h.proxyLeg ▸ hleg
  settled _ hquiet := absurd hquiet h.not_quiet

theorem Advance.backfillFits (h : Advance s t id finish point dir summary) {backfill : Backfill}
    (hb : BackfillFits s backfill finish.runId) : BackfillFits t backfill finish.runId where
  batch source := h.expected_fits (hb.batch source)
  taken hbill := h.takenUp ▸ hb.taken hbill
  held raw hraw := by
    obtain ⟨_, htask, hproxy, hdriver⟩ := hb.held raw hraw
    rw [dirOf_of_dir h.before] at htask hproxy hdriver
    rw [h.after, dirOf_of_dir h.after]
    refine ⟨rfl, htask.trans h.taskId.symm, hproxy.trans h.proxyLeg.symm, ?_⟩
    rcases hdriver with hnone | hsame
    · exact .inl hnone
    · rcases h.driverLeg with hkept | hnone
      · exact .inr (hsame.trans hkept.symm)
      · exact .inl (hsame ▸ hnone)
  unread := hb.unread
  task hcovers := by
    obtain ⟨_, htask⟩ := hb.task hcovers
    rw [dirOf_of_dir h.before] at htask
    rw [h.after, dirOf_of_dir h.after]
    refine ⟨rfl, ?_⟩
    unfold hasTaskId at htask ⊢
    exact h.taskId.symm ▸ htask
  covered _ hquiet := absurd hquiet h.not_quiet

theorem BilledOnce.advance (hb : BilledOnce s) (h : Advance s t id finish point dir summary) :
    BilledOnce t where
  runs runId := by
    by_cases heq : runId = finish.runId
    · subst heq
      exact h.runBilled (hb.runs _)
    · exact (hb.runs runId).same (h.same heq) fun hcut => h.cutOff ▸ hcut
  backfills other backfill hbackfill runId := by
    rw [h.backfills] at hbackfill
    by_cases heq : runId = finish.runId
    · subst heq
      exact h.backfillFits (hb.backfills other backfill hbackfill _)
    · exact (hb.backfills other backfill hbackfill runId).same (h.same heq)
  listed other backfill hbackfill := hb.listed other backfill (h.backfills ▸ hbackfill)

theorem BilledOnce.create (hb : BilledOnce s) (hfinish : s.finishes id = some finish)
    (hnone : s.dir? finish.runId = none) :
    BilledOnce ((s.writeIfMissing finish).setFinish id
      (some { finish with point := .readingExtras })) := by
  have hempty := hb.runs finish.runId
  have hdefault : s.dirOf finish.runId = { runId := finish.runId } := by
    simp [dirOf, hnone]
  have hnotTaken : finish.runId ∉ s.takenUp := by
    intro htaken
    have hleg := hempty.takenLeg htaken
    rw [hdefault] at hleg
    cases hleg
  have hexpected : ∀ source, s.expected finish.runId source = [] := by
    intro source
    cases source with
    | proxy =>
        simp only [expected, if_neg hnotTaken, hdefault]
        rfl
    | claudeSessionJsonl =>
        simp only [expected, hdefault]
        rfl
  generalize ht : (s.writeIfMissing finish).setFinish id
    (some { finish with point := .readingExtras }) = t
  have hparts : t.dir? finish.runId = some finish.firstDir ∧
      (∀ runId, runId ≠ finish.runId → t.dir? runId = s.dir? runId) ∧ t.ledger = s.ledger ∧
      t.finishes = Function.update s.finishes id (some { finish with point := .readingExtras }) ∧
      t.backfills = s.backfills ∧ t.takenUp = s.takenUp ∧ t.cutOff = s.cutOff := by
    subst ht
    refine ⟨?_, fun runId hne => ?_, ?_⟩
    · exact (dir?_writeIfMissing hnone).trans (if_pos rfl)
    · exact (dir?_writeIfMissing hnone).trans (if_neg hne)
    · unfold writeIfMissing
      rw [hnone]
      exact ⟨rfl, rfl, rfl, rfl, rfl⟩
  obtain ⟨hafter, hothers, hledger, hfinishes, hbackfills, htaken, hcut⟩ := hparts
  have hsame : ∀ runId, runId ≠ finish.runId → SameRun s t runId := fun runId hne =>
    { dir := hothers runId hne
      ledger := fun source => by rw [hledger]
      finishes := fun other f hrun => by
        rw [hfinishes]
        refine finishes_update_other hfinish (fun f hf => ?_) hne other f hrun
        cases hf
        rfl
      taken := by rw [htaken] }
  have hnow : t.finishes id = some { finish with point := .readingExtras } := by
    rw [hfinishes, Function.update_self]
  have hnotQuiet : ¬ t.Quiet finish.runId := fun hquiet => by
    have := hquiet id _ hnow rfl
    cases this
  have hcalls : ∀ other f, t.finishes other = some f → f.runId = finish.runId →
      proxyCalls f.timeline = proxyCalls finish.timeline := by
    intro other f hf hrun
    rw [hfinishes] at hf
    rcases finish_cases hf with hnow | hold
    · cases hnow
      rfl
    · exact hempty.agree other id f finish hold hfinish hrun rfl
  have hdirOf := dirOf_of_dir hafter
  refine
    { runs := fun runId => ?_
      backfills := fun other backfill hbackfill runId => ?_
      listed := fun other backfill hbackfill =>
        hb.listed other backfill (hbackfills ▸ hbackfill) }
  · by_cases heq : runId = finish.runId
    · subst heq
      exact
        { leg := by
            rw [hdirOf]
            rfl
          ledger := fun source => by
            rw [hledger]
            exact .inl (fits_nil (hexpected source ▸ hempty.ledger source))
          calls := fun other f hf hrun dir hdir => by
            obtain rfl := Option.some.inj (hafter.symm.trans hdir)
            exact hcalls other f hf hrun
          agree := fun other other' f f' hf hf' hrun hrun' =>
            (hcalls other f hf hrun).trans (hcalls other' f' hf' hrun').symm
          started := fun _ _ _ _ _ => by
            rw [hafter]
            rfl
          takenLeg := fun hmem => absurd (htaken ▸ hmem) hnotTaken
          settled := fun _ hquiet => absurd hquiet hnotQuiet }
    · exact (hb.runs runId).same (hsame runId heq) fun hmem => hcut ▸ hmem
  · rw [hbackfills] at hbackfill
    have hfits := hb.backfills other backfill hbackfill runId
    by_cases heq : runId = finish.runId
    · subst heq
      exact
        { batch := fun source => .inl (fits_nil (hexpected source ▸ hfits.batch source))
          taken := fun hbill => absurd (hfits.taken hbill) hnotTaken
          held := fun raw hraw => by
            have hsome := (hfits.held raw hraw).1
            rw [hnone] at hsome
            cases hsome
          unread := hfits.unread
          task := fun hcovers => by
            have hsome := (hfits.task hcovers).1
            rw [hnone] at hsome
            cases hsome
          covered := fun _ hquiet => absurd hquiet hnotQuiet }
    · exact hfits.same (hsame runId heq)

/-! ## Appending -/

theorem rollupProxyByRole_congr {a b : List LedgerTimelineEvent} (h : proxyCalls a = proxyCalls b) :
    rollupProxyByRole a = rollupProxyByRole b := by
  unfold rollupProxyByRole
  rw [h]

theorem resolveTokenUsage_congr {a b : List LedgerTimelineEvent} (h : proxyCalls a = proxyCalls b) :
    resolveTokenUsageFromTimeline a = resolveTokenUsageFromTimeline b := by
  simp only [resolveTokenUsageFromTimeline, h]

theorem bill_fits {ledger : TokenUsageLedger} {entries : List TokenUsageLedgerEntry}
    {want : RoleTokens} (hd : Rows.Distinct Prod.fst want)
    (hledger : Fits (bill ledger runId source) want)
    (hentries : Fits (bill entries runId source) want) :
    Fits (bill (appendTokenUsage ledger entries) runId source) want ∧
      (bill ledger runId source ≠ [] ∨ bill entries runId source ≠ [] →
        bill (appendTokenUsage ledger entries) runId source ≠ []) := by
  by_cases hnone : bill entries runId source = []
  · rw [bill_append_other hnone]
    exact ⟨hledger, fun h => h.resolve_right (not_not.mpr hnone)⟩
  · have hbill := hentries.resolve_left hnone
    have happend : bill (appendTokenUsage ledger entries) runId source =
        bill entries runId source := by
      refine bill_append (hbill ▸ hd) (hledger.imp_right fun h => ?_)
      rw [h, hbill]
    rw [happend]
    exact ⟨hentries, fun _ => hnone⟩

theorem bill_finishEntries (hb : RunBilled s finish.runId)
    (hfinish : s.finishes id = some finish) (hdir : s.dir? finish.runId = some dir) (now : String)
    (hregular : finish.runId ∈ s.takenUp → Unattributed finish.timeline) (source : UsageSource) :
    bill (finishEntries finish dir.summary now) finish.runId source =
      s.expected finish.runId source := by
  have hdirOf := dirOf_of_dir hdir
  have hcalls := hb.calls id finish hfinish rfl dir hdir
  refine bill_build_self.trans ?_
  cases source with
  | claudeSessionJsonl =>
      simp only [expected, hdirOf, rollupDriverByRole_readLeg]
  | proxy =>
      simp only [expected, hdirOf]
      split
      · next htaken =>
          have hleg := hb.leg
          have hread := hb.takenLeg htaken
          rw [hdirOf] at hleg hread
          rw [hleg, ← resolveTokenUsage_congr hcalls] at hread ⊢
          obtain ⟨total, htotal⟩ := Option.isSome_iff_exists.mp hread
          exact rollupProxyByRole_unattributed (hregular htaken) htotal
      · exact rollupProxyByRole_congr hcalls

theorem BilledOnce.appended (hb : BilledOnce s) (hfinish : s.finishes id = some finish)
    (hlook : s.dir? finish.runId = some dir) (hpoint : finish.point = .appending dir.summary)
    (input : FinishInput) (hregular : finish.runId ∈ s.takenUp → Unattributed finish.timeline) :
    BilledOnce (stepFinish s id finish input) := by
  have hrun := hb.runs finish.runId
  have hentries := bill_finishEntries hrun hfinish hlook input.now hregular
  generalize ht : stepFinish s id finish input = t
  simp only [stepFinish, hpoint, append, setFinish] at ht
  have hothers : ∀ runId, runId ≠ finish.runId → SameRun s t runId := by
    intro runId hne
    subst ht
    refine ⟨rfl, fun source => ?_, ?_, Iff.rfl⟩
    · exact bill_append_other (bill_build_other fun h => hne h.symm)
    · intro other f hf
      have hnone : ∀ g : Finish, none = some g → g.runId = finish.runId := by
        intro g hg
        cases hg
      exact finishes_update_other hfinish hnone hne other f hf
  have hdir : SameDir s t finish.runId := by
    subst ht
    exact ⟨rfl, Iff.rfl⟩
  have hbefore : ∀ other f, t.finishes other = some f → s.finishes other = some f := by
    intro other f hf
    subst ht
    refine (finish_cases hf).resolve_left fun hnone => ?_
    cases hnone
  have hbill : ∀ source, Fits (bill t.ledger finish.runId source) (s.expected finish.runId source) ∧
      t.Settled finish.runId source := by
    intro source
    have hwant := hentries source
    have hfits := bill_fits expected_distinct (hrun.ledger source) (.inr hwant)
    subst ht
    refine ⟨hfits.1, ?_⟩
    by_cases hnone : s.expected finish.runId source = []
    · refine .inr ?_
      have hzero : billed (s.expected finish.runId source) = _ := hrun.billed_expected
      rw [hnone] at hzero
      rw [legOf_congr hdir.dirOf]
      exact hzero.symm
    · exact .inl (hfits.2 (.inr (hwant ▸ hnone)))
  have hbackfills : t.backfills = s.backfills := by
    subst ht
    rfl
  have hcut : t.cutOff = s.cutOff.filter (· ≠ finish.runId) := by
    subst ht
    rfl
  refine
    { runs := fun runId => ?_
      backfills := fun other backfill hbackfill runId => ?_
      listed := fun other backfill hbackfill =>
        hb.listed other backfill (hbackfills ▸ hbackfill) }
  · by_cases heq : runId = finish.runId
    · subst heq
      exact hrun.stands hdir (fun other f hf _ => hbefore other f hf) (fun source => (hbill source).1)
        fun _ _ source => (hbill source).2
    · refine (hb.runs runId).same (hothers runId heq) fun hmem => ?_
      rw [hcut]
      exact List.mem_filter.mpr ⟨hmem, by simpa using heq⟩
  · rw [hbackfills] at hbackfill
    have hfits := hb.backfills other backfill hbackfill runId
    by_cases heq : runId = finish.runId
    · subst heq
      exact hfits.stands hdir (fun hcovers => hcovers) fun _ _ => .inr fun source => (hbill source).2
    · exact hfits.same (hothers runId heq)

/-! ## Every step of a finish -/

theorem filter_populated (timeline : List LedgerTimelineEvent) :
    (resolveTokenUsageFromTimeline timeline).filter isPopulated =
      resolveTokenUsageFromTimeline timeline := by
  cases hleg : resolveTokenUsageFromTimeline timeline with
  | none => rfl
  | some leg =>
      have hcount : 0 < leg.callCount := by
        simp only [resolveTokenUsageFromTimeline] at hleg
        split at hleg
        · cases hleg
        · next hcalls =>
            cases hleg
            exact List.length_pos_of_ne_nil hcalls
      exact Option.filter_some_pos (by simp [isPopulated, hcount])

theorem mergeBilled_cases {timeline : List LedgerTimelineEvent} (raw : RunSummary)
    (hleg : raw.proxyLeg = resolveTokenUsageFromTimeline timeline) (scrape : Option Scrape) :
    (mergeBilledTokenUsage raw scrape).taskId = raw.taskId ∧
      (mergeBilledTokenUsage raw scrape).proxyLeg = raw.proxyLeg ∧
      (mergeBilledTokenUsage raw scrape = raw ∨ raw.driverLeg = none) := by
  cases hdriver : raw.driverLeg with
  | some leg => simp [mergeBilledTokenUsage, hdriver]
  | none =>
      cases scrape with
      | none => simp [mergeBilledTokenUsage, hdriver]
      | some scraped =>
          simp only [mergeBilledTokenUsage, hdriver]
          split
          · exact ⟨rfl, rfl, .inr trivial⟩
          · split
            · exact ⟨rfl, rfl, .inr trivial⟩
            · refine ⟨rfl, ?_, .inr trivial⟩
              rw [hleg]
              exact filter_populated timeline

theorem BilledOnce.moved (hb : BilledOnce s) (hfinish : s.finishes id = some finish)
    (hdir : s.dir? finish.runId = some dir) (hbehind : point ≠ .writing) :
    BilledOnce (s.setFinish id (some { finish with point })) :=
  hb.advance
    { stood := hfinish
      before := hdir
      after := hdir
      others := fun _ _ => rfl
      ledger := rfl
      finishes := rfl
      backfills := rfl
      takenUp := rfl
      cutOff := rfl
      taskId := rfl
      proxyLeg := rfl
      driverLeg := .inl rfl
      behind := hbehind }

theorem BilledOnce.wrote (hb : BilledOnce s) (hfinish : s.finishes id = some finish)
    (hdir : s.dir? finish.runId = some dir) (hbehind : point ≠ .writing)
    (htask : summary.taskId = dir.summary.taskId)
    (hproxy : summary.proxyLeg = dir.summary.proxyLeg)
    (hdriver : summary = dir.summary ∨ dir.summary.driverLeg = none) :
    BilledOnce ((s.writeSummary finish.runId summary).setFinish id
      (some { finish with point })) := by
  refine hb.advance
    { stood := hfinish
      before := hdir
      after := ?_
      others := fun runId hne => dir?_writeSummary.trans (if_neg hne)
      ledger := rfl
      finishes := rfl
      backfills := rfl
      takenUp := rfl
      cutOff := rfl
      taskId := htask
      proxyLeg := hproxy
      driverLeg := hdriver
      behind := hbehind }
  refine dir?_writeSummary.trans ?_
  rw [if_pos rfl, hdir]
  rfl

theorem BilledOnce.stepFinish (hb : BilledOnce s) (hfinish : s.finishes id = some finish)
    (input : FinishInput)
    (hfresh : ∀ raw, finish.point.used? input = some raw → raw = (s.dirOf finish.runId).summary)
    (hregular : ∀ raw, finish.point = .appending raw → finish.runId ∈ s.takenUp →
      Unattributed finish.timeline) : BilledOnce (stepFinish s id finish input) := by
  have hrun := hb.runs finish.runId
  by_cases hwriting : finish.point = .writing
  · simp only [Usage.stepFinish, hwriting]
    cases hdir : s.dir? finish.runId with
    | none => exact hb.create hfinish hdir
    | some dir =>
        rw [writeIfMissing_eq hdir]
        exact hb.moved hfinish hdir nofun
  obtain ⟨dir, hdir⟩ :=
    Option.isSome_iff_exists.mp (hrun.started id finish hfinish rfl hwriting)
  rw [dirOf_of_dir hdir] at hfresh
  cases hpoint : finish.point with
  | writing => exact absurd hpoint hwriting
  | readingExtras =>
      simp only [Usage.stepFinish, hpoint, readSummary, hdir]
      exact hb.moved hfinish hdir nofun
  | writingExtras raw =>
      simp only [Usage.stepFinish, hpoint]
      split
      · next hchanged =>
          obtain rfl := hfresh raw (by simp [hpoint, FinishPoint.used?, hchanged])
          exact hb.wrote hfinish hdir nofun rfl rfl (.inl rfl)
      · exact hb.moved hfinish hdir nofun
  | readingBilled =>
      simp only [Usage.stepFinish, hpoint, readSummary, hdir]
      exact hb.moved hfinish hdir nofun
  | writingBilled raw =>
      obtain rfl := hfresh raw (by rw [hpoint]; rfl)
      have hleg := hrun.leg
      rw [dirOf_of_dir hdir] at hleg
      obtain ⟨htask, hproxy, hdriver⟩ := mergeBilled_cases dir.summary hleg input.scrape
      simp only [Usage.stepFinish, hpoint]
      exact hb.wrote hfinish hdir nofun htask hproxy hdriver
  | readingLedger =>
      simp only [Usage.stepFinish, hpoint, readSummary, hdir]
      exact hb.moved hfinish hdir nofun
  | appending raw =>
      obtain rfl := hfresh raw (by rw [hpoint]; rfl)
      exact hb.appended hfinish hdir hpoint input (hregular _ hpoint)

end FinishSteps

end Newide.Usage
