import Newide.Usage.FinishSteps

/-!
# Beginnings, cuts and backfills

Whoever begins holds nothing yet, and a cut takes only what was in
flight.  A backfill holds what it read against the ledger before it
bills, so each of its steps keeps the invariant too.
-/

namespace Newide.Usage

/-! ## Beginnings and ends -/

variable {finish : Finish} {other : String}

section Parties

variable {s t : UsageState} {id : Nat} {runId : String}

/-- Parties that are cut off, and covers that are given up. -/
structure Cuts (s t : UsageState) : Prop where
  dirs : t.dirs = s.dirs
  ledger : t.ledger = s.ledger
  takenUp : t.takenUp = s.takenUp
  finishes : ∀ id finish, t.finishes id = some finish → s.finishes id = some finish
  backfills : ∀ id backfill, t.backfills id = some backfill → ∃ old covers,
    s.backfills id = some old ∧ backfill = { old with covers } ∧
      ∀ runId, runId ∈ covers → runId ∈ old.covers
  cutOff : ∀ runId, runId ∈ s.cutOff → runId ∈ t.cutOff
  quiet : ∀ runId, t.Quiet runId → s.Quiet runId ∨
    runId ∈ t.cutOff ∧ ∀ id backfill, t.backfills id = some backfill → runId ∉ backfill.covers

theorem Cuts.sameDir (h : Cuts s t) : SameDir s t runId :=
  ⟨by simp only [UsageState.dir?, h.dirs], by rw [h.takenUp]⟩

theorem Cuts.settled (h : Cuts s t) {source : UsageSource} :
    t.Settled runId source ↔ s.Settled runId source :=
  settled_congr h.sameDir.dirOf (by rw [h.ledger])

theorem BilledOnce.cut (hb : BilledOnce s) (h : Cuts s t) : BilledOnce t where
  runs runId := by
    have hrun := hb.runs runId
    refine hrun.stands h.sameDir (fun id finish hfinish _ => h.finishes id finish hfinish)
      (fun source => h.ledger ▸ hrun.ledger source) fun hnot hquiet source => ?_
    rcases h.quiet runId hquiet with hbefore | ⟨hcut, _⟩
    · exact h.settled.mpr (hrun.settled (mt (h.cutOff runId) hnot) hbefore source)
    · exact absurd hcut hnot
  backfills id backfill hbackfill runId := by
    obtain ⟨old, covers, hold, rfl, hle⟩ := h.backfills id backfill hbackfill
    refine (hb.backfills id old hold runId).stands h.sameDir (hle runId) fun hcovers hquiet => ?_
    rcases h.quiet runId hquiet with hbefore | ⟨_, hnot⟩
    · exact .inl ⟨hbefore, fun _ => h.settled.mpr⟩
    · exact absurd hcovers (hnot id _ hbackfill)
  listed id backfill hbackfill := by
    obtain ⟨old, covers, hold, rfl, _⟩ := h.backfills id backfill hbackfill
    exact ⟨(hb.listed id old hold).nodup, (hb.listed id old hold).apart⟩

theorem update_none_eq {ι : Type} {f : Nat → Option ι} {other : Nat} {x : ι}
    (h : Function.update f id none other = some x) : other ≠ id ∧ f other = some x := by
  by_cases heq : other = id
  · subst heq
    rw [Function.update_self] at h
    cases h
  · rw [Function.update_of_ne heq] at h
    exact ⟨heq, h⟩

theorem BilledOnce.cutFinish (hb : BilledOnce s) (hfinish : s.finishes id = some finish) :
    BilledOnce (cutFinishAt s id finish) := by
  unfold cutFinishAt
  by_cases hwriting : finish.point = .writing
  · rw [if_pos hwriting]
    refine hb.cut ⟨rfl, rfl, rfl, fun other f hf => (update_none_eq hf).2, ?_, fun _ h => h, ?_⟩
    · exact fun other backfill hbackfill => ⟨backfill, backfill.covers, hbackfill, rfl, fun _ h => h⟩
    · refine fun runId hquiet => .inl fun other f hf hrun => ?_
      by_cases heq : other = id
      · subst heq
        obtain rfl := Option.some.inj (hf.symm.trans hfinish)
        exact hwriting
      · exact hquiet other f ((Function.update_of_ne heq _ _).trans hf) hrun
  · rw [if_neg hwriting]
    refine hb.cut ⟨rfl, rfl, rfl, fun other f hf => (update_none_eq hf).2, ?_,
      fun _ h => List.mem_cons_of_mem _ h, ?_⟩
    · intro other backfill hbackfill
      obtain ⟨old, hold, rfl⟩ := Option.map_eq_some_iff.mp hbackfill
      exact ⟨old, _, hold, rfl, fun runId hmem => (List.mem_filter.mp hmem).1⟩
    · intro runId hquiet
      by_cases heq : runId = finish.runId
      · subst heq
        refine .inr ⟨List.mem_cons_self, fun other backfill hbackfill hmem => ?_⟩
        obtain ⟨old, _, rfl⟩ := Option.map_eq_some_iff.mp hbackfill
        simpa using (List.mem_filter.mp hmem).2
      · refine .inl fun other f hf hrun => ?_
        have hne : other ≠ id := by
          rintro rfl
          obtain rfl := Option.some.inj (hf.symm.trans hfinish)
          exact heq hrun.symm
        exact hquiet other f ((Function.update_of_ne hne _ _).trans hf) hrun

theorem BilledOnce.cutBackfill (hb : BilledOnce s) : BilledOnce (s.setBackfill id none) := by
  refine hb.cut ⟨rfl, rfl, rfl, fun _ _ h => h, fun other backfill hbackfill => ?_,
    fun _ h => h, fun _ h => .inl h⟩
  exact ⟨backfill, backfill.covers, (update_none_eq hbackfill).2, rfl, fun _ h => h⟩

theorem BilledOnce.beginFinish (hb : BilledOnce s) (hfree : s.finishes id = none)
    (hpoint : finish.point = .writing)
    (hagree : ∀ other f, s.finishes other = some f → f.runId = finish.runId →
      proxyCalls finish.timeline = proxyCalls f.timeline)
    (hcalls : ∀ dir, s.dir? finish.runId = some dir →
      proxyCalls finish.timeline = proxyCalls dir.timeline) :
    BilledOnce (s.setFinish id (some finish)) := by
  have hcases : ∀ other f, Function.update s.finishes id (some finish) other = some f →
      (other = id ∧ f = finish) ∨ s.finishes other = some f := by
    intro other f hf
    by_cases heq : other = id
    · subst heq
      rw [Function.update_self] at hf
      exact .inl ⟨rfl, (Option.some.inj hf).symm⟩
    · rw [Function.update_of_ne heq] at hf
      exact .inr hf
  have hquiet : ∀ runId, (s.setFinish id (some finish)).Quiet runId → s.Quiet runId := by
    intro runId hquiet other f hf hrun
    have hne : other ≠ id := by
      rintro rfl
      rw [hfree] at hf
      cases hf
    exact hquiet other f ((Function.update_of_ne hne _ _).trans hf) hrun
  have hsettled : ∀ runId source,
      (s.setFinish id (some finish)).Settled runId source ↔ s.Settled runId source :=
    fun runId source => settled_congr rfl rfl
  refine
    { runs := fun runId => ?_
      backfills := fun other backfill hbackfill runId => ?_
      listed := hb.listed }
  · have hrunBilled := hb.runs runId
    exact
      { leg := hrunBilled.leg
        ledger := fun source => by
          rw [expected_congr rfl Iff.rfl]
          exact hrunBilled.ledger source
        calls := fun other f hf hrun dir hdir => by
          rcases hcases other f hf with ⟨_, rfl⟩ | hold
          · exact hcalls dir (hrun ▸ hdir)
          · exact hrunBilled.calls other f hold hrun dir hdir
        started := fun other f hf hrun hstarted => by
          rcases hcases other f hf with ⟨_, rfl⟩ | hold
          · exact absurd hpoint hstarted
          · exact hrunBilled.started other f hold hrun hstarted
        agree := fun other other' f f' hf hf' hrun hrun' => by
          rcases hcases other f hf with ⟨_, rfl⟩ | hold
          · rcases hcases other' f' hf' with ⟨_, rfl⟩ | hold'
            · rfl
            · exact hagree other' f' hold' (hrun'.trans hrun.symm)
          · rcases hcases other' f' hf' with ⟨_, rfl⟩ | hold'
            · exact (hagree other f hold (hrun.trans hrun'.symm)).symm
            · exact hrunBilled.agree other other' f f' hold hold' hrun hrun'
        takenLeg := hrunBilled.takenLeg
        settled := fun hnot hnow source => by
          rw [hsettled]
          exact hrunBilled.settled hnot (hquiet runId hnow) source }
  · have hdir : SameDir s (s.setFinish id (some finish)) runId := ⟨rfl, Iff.rfl⟩
    exact (hb.backfills other backfill hbackfill runId).stands hdir (fun h => h)
      fun _ hnow => .inl ⟨hquiet runId hnow, fun source => (hsettled runId source).mpr⟩

end Parties

/-! ## Steps of a backfill -/

section BackfillSteps

variable {s : UsageState} {id : Nat} {backfill : Backfill} {runId : String}

theorem BilledOnce.setBackfill (hb : BilledOnce s) {next : Option Backfill}
    (hnext : ∀ b, next = some b → b.WellListed ∧ ∀ runId, BackfillFits s b runId) :
    BilledOnce (s.setBackfill id next) := by
  have hsame : ∀ runId, SameRun s (s.setBackfill id next) runId := fun runId =>
    ⟨rfl, fun _ => rfl, fun _ _ _ => Iff.rfl, Iff.rfl⟩
  have hslot : ∀ other b, (s.setBackfill id next).backfills other = some b →
      b.WellListed ∧ ∀ runId, BackfillFits s b runId := by
    intro other b hslot
    change Function.update s.backfills id next other = some b at hslot
    by_cases heq : other = id
    · subst heq
      rw [Function.update_self] at hslot
      exact hnext b hslot
    · rw [Function.update_of_ne heq] at hslot
      exact ⟨hb.listed other b hslot, hb.backfills other b hslot⟩
  exact
    { runs := fun runId => (hb.runs runId).same (hsame runId) fun h => h
      backfills := fun other b h runId => ((hslot other b h).2 runId).same (hsame runId)
      listed := fun other b h => (hslot other b h).1 }

theorem BilledOnce.beginBackfill (hb : BilledOnce s) {recordedAt : String} {listing : List String}
    (hlists : s.Lists listing) {covers : List String}
    (hcovers : ∀ runId ∈ covers, ∃ dir, s.dir? runId = some dir ∧ hasTaskId dir.summary = true) :
    BilledOnce (s.setBackfill id (some { recordedAt, rest := listing, covers })) := by
  refine hb.setBackfill fun b hb' => ?_
  obtain rfl := Option.some.inj hb'
  refine ⟨⟨hlists.1, nofun⟩, fun runId => ?_⟩
  exact
    { batch := fun source => .inl rfl
      taken := fun h => absurd rfl h
      held := nofun
      unread := fun _ _ => rfl
      task := fun hmem => by
        obtain ⟨dir, hdir, htask⟩ := hcovers runId hmem
        rw [hdir, dirOf_of_dir hdir]
        exact ⟨rfl, htask⟩
      covered := fun hmem _ => by
        obtain ⟨dir, hdir, _⟩ := hcovers runId hmem
        have hkey : dir.runId = runId := Rows.lookup_key hdir
        exact .inl (hkey ▸ hlists.2 dir (Rows.lookup_mem hdir)) }

theorem BilledOnce.settleBackfill (hb : BilledOnce s) (hlisted : backfill.WellListed)
    (hfits : ∀ runId, BackfillFits s backfill runId) (hheld : backfill.held = none) :
    BilledOnce (settleBackfill s id backfill) := by
  unfold Usage.settleBackfill
  by_cases hrest : backfill.rest = []
  · rw [if_pos hrest]
    have hbill : ∀ runId source,
        Fits (bill (appendTokenUsage s.ledger backfill.batch) runId source)
            (s.expected runId source) ∧
          (bill s.ledger runId source ≠ [] ∨ bill backfill.batch runId source ≠ [] →
            bill (appendTokenUsage s.ledger backfill.batch) runId source ≠ []) :=
      fun runId source => bill_fits expected_distinct ((hb.runs runId).ledger source)
        ((hfits runId).batch source)
    generalize ht : ({ (s.append backfill.batch).setBackfill id none with
      cutOff := ((s.append backfill.batch).setBackfill id none).cutOff.filter
        (· ∉ backfill.covers) } : UsageState) = t
    have hledger : t.ledger = appendTokenUsage s.ledger backfill.batch := by
      subst ht
      rfl
    have hdir : ∀ runId, SameDir s t runId := by
      subst ht
      exact fun _ => ⟨rfl, Iff.rfl⟩
    have hsettled : ∀ runId source,
        s.Settled runId source ∨ bill backfill.batch runId source ≠ [] →
          t.Settled runId source := by
      intro runId source h
      unfold UsageState.Settled at h ⊢
      rw [hledger, legOf_congr (hdir runId).dirOf]
      rcases h with (hbilled | hzero) | hbatch
      · exact .inl ((hbill runId source).2 (.inl hbilled))
      · exact .inr hzero
      · exact .inl ((hbill runId source).2 (.inr hbatch))
    have hquiet : ∀ runId, t.Quiet runId → s.Quiet runId := by
      subst ht
      exact fun _ h => h
    have hslot : ∀ other b, t.backfills other = some b → s.backfills other = some b := by
      subst ht
      exact fun other b h => (update_none_eq h).2
    have hfinishes : t.finishes = s.finishes := by
      subst ht
      rfl
    have hcut : t.cutOff = s.cutOff.filter (· ∉ backfill.covers) := by
      subst ht
      rfl
    refine
      { runs := fun runId => ?_
        backfills := fun other b h runId => ?_
        listed := fun other b h => hb.listed other b (hslot other b h) }
    · have hrun := hb.runs runId
      refine hrun.stands (hdir runId) (fun _ _ hf _ => hfinishes ▸ hf)
        (fun source => hledger ▸ (hbill runId source).1) fun hnot hnow source => ?_
      by_cases hcovers : runId ∈ backfill.covers
      · rcases (hfits runId).covered hcovers (hquiet runId hnow) with hmem | hmem | hall
        · rw [hrest] at hmem
          cases hmem
        · rw [hheld] at hmem
          cases hmem
        · exact hsettled runId source (hall source)
      · have hnotCut : runId ∉ s.cutOff := by
          intro hmem
          rw [hcut] at hnot
          exact hnot (List.mem_filter.mpr ⟨hmem, by simpa using hcovers⟩)
        exact hsettled runId source
          (.inl (hrun.settled hnotCut (hquiet runId hnow) source))
    · exact (hb.backfills other b (hslot other b h) runId).stands (hdir runId) (fun h => h)
        fun _ hnow => .inl ⟨hquiet runId hnow, fun source h => hsettled runId source (.inl h)⟩
  · rw [if_neg hrest]
    refine hb.setBackfill fun b hb' => ?_
    obtain rfl := Option.some.inj hb'
    exact ⟨hlisted, hfits⟩

/-! ### Taking up a summary -/

variable {raw : RunSummary} {recordedAt : String} {source : UsageSource}

theorem bill_backfillEntries_proxy :
    bill (backfillEntries s.ledger runId raw recordedAt) runId .proxy =
      if hasTaskId raw = true ∧ bill s.ledger runId .proxy = [] then rollupLeg raw.proxyLeg
      else [] := by
  unfold backfillEntries
  by_cases htask : hasTaskId raw = true
  · rw [if_pos htask]
    refine bill_build_self.trans ?_
    by_cases hbill : bill s.ledger runId .proxy = []
    · have habsent : presentLedgerSource s.ledger runId .proxy = false := by
        rw [← Bool.not_eq_true, presentLedgerSource_iff, not_not]
        exact hbill
      simp [rollupProxy, htask, hbill, habsent]
    · simp [rollupProxy, hbill, presentLedgerSource_iff.mpr hbill, rollupLeg, readLeg]
  · rw [if_neg htask, if_neg fun h => htask h.1]
    rfl

theorem bill_backfillEntries_driver :
    bill (backfillEntries s.ledger runId raw recordedAt) runId .claudeSessionJsonl =
      if hasTaskId raw = true ∧ bill s.ledger runId .claudeSessionJsonl = [] then
        rollupDriverByRole raw.driverLeg raw.driverSessions
      else [] := by
  unfold backfillEntries
  by_cases htask : hasTaskId raw = true
  · rw [if_pos htask]
    refine bill_build_self.trans ?_
    by_cases hbill : bill s.ledger runId .claudeSessionJsonl = []
    · have habsent : presentLedgerSource s.ledger runId .claudeSessionJsonl = false := by
        rw [← Bool.not_eq_true, presentLedgerSource_iff, not_not]
        exact hbill
      simp [htask, hbill, habsent]
    · simp [hbill, presentLedgerSource_iff.mpr hbill]
  · rw [if_neg htask, if_neg fun h => htask h.1]
    rfl

theorem bill_backfillEntries_other (hne : other ≠ runId) :
    bill (backfillEntries s.ledger runId raw recordedAt) other source = [] := by
  unfold backfillEntries
  by_cases htask : hasTaskId raw = true
  · rw [if_pos htask]
    exact bill_build_other hne.symm
  · rw [if_neg htask]
    rfl

def UsageState.takeUp (s : UsageState) (runId : String) : UsageState :=
  { s with takenUp := runId :: s.takenUp }

theorem takeUp_same (h : other ≠ runId ∨ runId ∈ s.takenUp) :
    SameRun s (s.takeUp runId) other := by
  refine ⟨rfl, fun _ => rfl, fun _ _ _ => Iff.rfl, ?_⟩
  show other ∈ runId :: s.takenUp ↔ other ∈ s.takenUp
  rw [List.mem_cons]
  constructor
  · rintro (rfl | hmem)
    · exact h.resolve_left fun hne => hne rfl
    · exact hmem
  · exact .inr

theorem BackfillFits.takeUp (hb : BackfillFits s backfill other) :
    BackfillFits (s.takeUp runId) backfill other := by
  by_cases hsame : other ≠ runId ∨ runId ∈ s.takenUp
  · exact hb.same (takeUp_same hsame)
  · obtain ⟨heq, hnew⟩ := not_or.mp hsame
    obtain rfl := not_not.mp heq
    exact
      { batch := fun source => by
          cases source with
          | proxy => exact .inl (by_contra fun hbatch => hnew (hb.taken hbatch))
          | claudeSessionJsonl => exact hb.batch .claudeSessionJsonl
        taken := fun _ => List.mem_cons_self
        held := hb.held
        unread := hb.unread
        task := hb.task
        covered := fun hcovers hquiet => by
          refine (hb.covered hcovers hquiet).imp_right (Or.imp_right fun hall source => ?_)
          exact (hall source).imp_left (settled_congr rfl rfl).mpr }

theorem BilledOnce.takeUp (hb : BilledOnce s) (hbill : bill s.ledger runId .proxy = [])
    (hleg : (readLeg (s.dirOf runId).summary.proxyLeg).isSome) : BilledOnce (s.takeUp runId) where
  runs other := by
    have hrun := hb.runs other
    by_cases hsame : other ≠ runId ∨ runId ∈ s.takenUp
    · exact hrun.same (takeUp_same hsame) fun h => h
    · obtain rfl := not_not.mp (not_or.mp hsame).1
      exact
        { leg := hrun.leg
          ledger := fun source => by
            cases source with
            | proxy => exact .inl hbill
            | claudeSessionJsonl => exact hrun.ledger .claudeSessionJsonl
          calls := hrun.calls
          started := hrun.started
          agree := hrun.agree
          takenLeg := fun _ => hleg
          settled := fun hnot hquiet source =>
            (settled_congr rfl rfl).mpr (hrun.settled hnot hquiet source) }
  backfills other b hslot otherRun := (hb.backfills other b hslot otherRun).takeUp
  listed := hb.listed

theorem rollupLeg_ne_nil {leg : Option RunUsageTokens} (h : rollupLeg leg ≠ []) :
    (readLeg leg).isSome := by
  unfold rollupLeg at h
  cases hleg : readLeg leg with
  | none =>
      rw [hleg] at h
      exact absurd rfl h
  | some total => rfl

theorem BilledOnce.stepHeld (hb : BilledOnce s) (hslot : s.backfills id = some backfill)
    (hheld : backfill.held = some (runId, raw)) : BilledOnce (stepBackfill s id backfill) := by
  have hfits := hb.backfills id backfill hslot
  have hlisted := hb.listed id backfill hslot
  obtain ⟨_, htask, hproxy, hdriver⟩ := (hfits runId).held raw hheld
  have hunread := (hfits runId).unread (.inr ⟨raw, hheld⟩)
  have happart := hlisted.apart runId raw hheld
  simp only [Usage.stepBackfill, hheld]
  generalize hentries : backfillEntries s.ledger runId raw backfill.recordedAt = entries
  have hbillProxy : bill entries runId .proxy =
      if hasTaskId raw = true ∧ bill s.ledger runId .proxy = [] then rollupLeg raw.proxyLeg
      else [] := hentries ▸ bill_backfillEntries_proxy
  have hbillDriver : bill entries runId .claudeSessionJsonl =
      if hasTaskId raw = true ∧ bill s.ledger runId .claudeSessionJsonl = [] then
        rollupDriverByRole raw.driverLeg raw.driverSessions
      else [] := hentries ▸ bill_backfillEntries_driver
  have hbillOther : ∀ other source, other ≠ runId → bill entries other source = [] :=
    fun other source hne => hentries ▸ bill_backfillEntries_other hne
  generalize ht : ({ s with
    takenUp := if bill entries runId .proxy = [] then s.takenUp else runId :: s.takenUp } :
      UsageState) = t
  have hstate : BilledOnce t ∧ BackfillFits t backfill runId ∧
      (∀ other, other ≠ runId → BackfillFits t backfill other) ∧
      (bill entries runId .proxy ≠ [] → runId ∈ t.takenUp) := by
    subst ht
    by_cases hnone : bill entries runId .proxy = []
    · rw [if_pos hnone]
      exact ⟨hb, hfits runId, fun other _ => hfits other, fun h => absurd hnone h⟩
    · rw [if_neg hnone]
      have hcond : hasTaskId raw = true ∧ bill s.ledger runId .proxy = [] := by
        by_contra hcond
        rw [hbillProxy, if_neg hcond] at hnone
        exact hnone rfl
      have hleg : (readLeg (s.dirOf runId).summary.proxyLeg).isSome := by
        rw [hbillProxy, if_pos hcond] at hnone
        exact hproxy ▸ rollupLeg_ne_nil hnone
      exact ⟨hb.takeUp hcond.2 hleg, (hfits runId).takeUp, fun other _ => (hfits other).takeUp,
        fun _ => List.mem_cons_self⟩
  obtain ⟨hbt, hfitsRun, hfitsOther, htaken⟩ := hstate
  have hdirOf : t.dirOf runId = s.dirOf runId := by
    subst ht
    rfl
  have hledger : t.ledger = s.ledger := by
    subst ht
    rfl
  refine hbt.settleBackfill ⟨hlisted.nodup, nofun⟩ (fun other => ?_) rfl
  by_cases heq : other = runId
  · subst heq
    have hbatch : ∀ source, bill (backfill.batch ++ entries) other source =
        bill entries other source := by
      intro source
      rw [bill_append_rows, hunread source, List.nil_append]
    exact
      { batch := fun source => by
          rw [hbatch]
          cases source with
          | proxy =>
              refine or_iff_not_imp_left.mpr fun hne => ?_
              simp only [UsageState.expected, if_pos (htaken hne), hdirOf]
              rw [hbillProxy] at hne ⊢
              split at hne
              · next hcond => rw [if_pos hcond, hproxy]
              · exact absurd rfl hne
          | claudeSessionJsonl =>
              rw [hbillDriver]
              split
              · rcases hdriver with hnone | hsame
                · rw [hnone]
                  exact .inl rfl
                · simp only [UsageState.expected, hdirOf, hsame]
                  exact .inr rfl
              · exact .inl rfl
        taken := fun hne => htaken (hbatch .proxy ▸ hne)
        held := nofun
        unread := fun hread => by
          rcases hread with hmem | ⟨_, hmem⟩
          · exact absurd hmem happart
          · cases hmem
        task := hfitsRun.task
        covered := fun hcovers hquiet => by
          refine .inr (.inr fun source => ?_)
          rw [hbatch]
          rcases hfitsRun.covered hcovers hquiet with hmem | hsame | hall
          · exact absurd hmem happart
          · rw [hheld] at hsame
            obtain rfl : raw = (t.dirOf other).summary := by
              cases hsame
              rfl
            have hhasTask := (hfitsRun.task hcovers).2
            by_cases hbill : bill s.ledger other source = []
            · by_cases hne : bill entries other source = []
              · refine .inl (.inr ?_)
                cases source with
                | proxy =>
                    rw [hbillProxy, if_pos ⟨hhasTask, hbill⟩] at hne
                    have hzero : billed (rollupLeg (t.dirOf other).summary.proxyLeg) =
                        legTotal (t.legOf other .proxy) := billed_rollupLeg
                    rw [hne] at hzero
                    exact hzero.symm
                | claudeSessionJsonl =>
                    rw [hbillDriver, if_pos ⟨hhasTask, hbill⟩] at hne
                    have hzero : billed (rollupDriverByRole (t.dirOf other).summary.driverLeg
                        (t.dirOf other).summary.driverSessions) =
                        legTotal (t.legOf other .claudeSessionJsonl) := billed_rollupDriverByRole
                    rw [hne] at hzero
                    exact hzero.symm
              · exact .inr hne
            · refine .inl (.inl ?_)
              rw [hledger]
              exact hbill
          · refine .inl ((hall source).resolve_right ?_)
            rw [hunread source]
            exact not_not.mpr rfl }
  · have hother := hfitsOther other heq
    have hbatch : ∀ source, bill (backfill.batch ++ entries) other source =
        bill backfill.batch other source := by
      intro source
      rw [bill_append_rows, hbillOther other source heq, List.append_nil]
    exact
      { batch := fun source => by
          rw [hbatch]
          exact hother.batch source
        taken := fun hne => hother.taken (hbatch .proxy ▸ hne)
        held := nofun
        unread := fun hread source => by
          rw [hbatch]
          rcases hread with hmem | ⟨_, hmem⟩
          · exact hother.unread (.inl hmem) source
          · cases hmem
        task := hother.task
        covered := fun hcovers hquiet => by
          rcases hother.covered hcovers hquiet with hmem | hsame | hall
          · exact .inl hmem
          · rw [hheld] at hsame
            cases hsame
            exact absurd rfl heq
          · refine .inr (.inr fun source => ?_)
            rw [hbatch]
            exact hall source }

theorem BilledOnce.stepBackfill (hb : BilledOnce s) (hslot : s.backfills id = some backfill) :
    BilledOnce (stepBackfill s id backfill) := by
  have hfits := hb.backfills id backfill hslot
  have hlisted := hb.listed id backfill hslot
  cases hheld : backfill.held with
  | some entry => exact hb.stepHeld hslot hheld
  | none =>
      cases hrest : backfill.rest with
      | nil =>
          simp only [Usage.stepBackfill, hheld, hrest]
          exact hb.settleBackfill hlisted hfits hheld
      | cons runId rest =>
          have hnodup : (runId :: rest).Nodup := hrest ▸ hlisted.nodup
          have hmem : ∀ other, other ≠ runId → (other ∈ backfill.rest ↔ other ∈ rest) := by
            intro other hne
            rw [hrest, List.mem_cons, or_iff_right hne]
          cases hdir : s.dir? runId with
          | none =>
              simp only [Usage.stepBackfill, hheld, hrest, hdir]
              refine hb.settleBackfill ⟨hnodup.of_cons, nofun⟩ (fun other => ?_) rfl
              have hother := hfits other
              exact
                { batch := hother.batch
                  taken := hother.taken
                  held := nofun
                  unread := fun hread => by
                    rcases hread with hin | ⟨_, hin⟩
                    · exact hother.unread (.inl (hrest ▸ List.mem_cons_of_mem _ hin))
                    · cases hin
                  task := hother.task
                  covered := fun hcovers hquiet => by
                    have hne : other ≠ runId := by
                      rintro rfl
                      have hsome := (hother.task hcovers).1
                      rw [hdir] at hsome
                      cases hsome
                    rcases hother.covered hcovers hquiet with hin | hsame | hall
                    · exact .inl ((hmem other hne).mp hin)
                    · rw [hheld] at hsame
                      cases hsame
                    · exact .inr (.inr hall) }
          | some dir =>
              simp only [Usage.stepBackfill, hheld, hrest, hdir]
              refine hb.setBackfill fun b hb' => ?_
              obtain rfl := Option.some.inj hb'
              refine ⟨⟨hnodup.of_cons, fun other raw hread => ?_⟩, fun other => ?_⟩
              · cases hread
                exact (List.nodup_cons.mp hnodup).1
              have hother := hfits other
              exact
                { batch := hother.batch
                  taken := hother.taken
                  held := fun raw hread => by
                    cases hread
                    rw [hdir, dirOf_of_dir hdir]
                    exact ⟨rfl, rfl, rfl, .inr rfl⟩
                  unread := fun hread => by
                    refine hother.unread (.inl ?_)
                    rw [hrest]
                    rcases hread with hin | ⟨_, hin⟩
                    · exact List.mem_cons_of_mem _ hin
                    · cases hin
                      exact List.mem_cons_self
                  task := hother.task
                  covered := fun hcovers hquiet => by
                    rcases hother.covered hcovers hquiet with hin | hsame | hall
                    · by_cases heq : other = runId
                      · subst heq
                        rw [dirOf_of_dir hdir]
                        exact .inr (.inl rfl)
                      · exact .inl ((hmem other heq).mp hin)
                    · rw [hheld] at hsame
                      cases hsame
                    · exact .inr (.inr hall) }

end BackfillSteps

end Newide.Usage
