import Newide.Foundation.Runs
import Newide.Usage.BackfillSteps

/-!
# Each leg is billed once

A live finish bills the proxy leg of a run by role, a backfill as one row
without a role.  The two add up to twice the leg when a finish appends
after a backfill has taken the leg up.  In every run without such a
finish, without a finish that uses a summary changed since it read it and
without a second finish on other calls, no bill exceeds its leg; and with
nothing in flight each bill is its leg, save where a finish was cut off
and nothing has made up for it.
-/

namespace Newide.Usage

open Runs

/-! ## Steps that bill a leg otherwise -/

/-- The finish uses a summary that is no longer as it read it; or, with calls of some role, it
appends to a run whose proxy leg a backfill has taken up. -/
def UsageState.FinishesOtherwise (s : UsageState) (id : Nat) (input : FinishInput) : Prop :=
  ∃ finish ∈ s.finishes id,
    (∃ raw ∈ finish.point.used? input, raw ≠ (s.dirOf finish.runId).summary) ∨
      (finish.point.bills = true ∧ finish.runId ∈ s.takenUp ∧ ¬ Unattributed finish.timeline)

instance (s : UsageState) (id : Nat) (input : FinishInput) :
    Decidable (s.FinishesOtherwise id input) :=
  inferInstanceAs (Decidable (∃ finish ∈ s.finishes id, _))

/-- A finish begins on other calls than the run had at another finish, or finishes otherwise. -/
def BillsOtherwise (s : UsageState) (label : UsageLabel) (_ : UsageState) : Prop :=
  match label with
  | .beginFinish _ runId _ timeline =>
      (∃ id finish, s.finishes id = some finish ∧ finish.runId = runId ∧
        proxyCalls timeline ≠ proxyCalls finish.timeline) ∨
      ∃ dir, s.dir? runId = some dir ∧ proxyCalls timeline ≠ proxyCalls dir.timeline
  | .finish id input => s.FinishesOtherwise id input
  | _ => False

/-- Nothing is in flight. -/
def UsageState.Idle (s : UsageState) : Prop :=
  (∀ id, s.finishes id = none) ∧ ∀ id, s.backfills id = none

/-! ## Whole runs -/

theorem billedOnce_start : BilledOnce {} where
  runs runId :=
    { leg := rfl
      ledger := fun _ => .inl rfl
      calls := nofun
      started := nofun
      agree := nofun
      takenLeg := nofun
      settled := fun _ _ source => by
        cases source with
        | proxy => exact .inr rfl
        | claudeSessionJsonl => exact .inr rfl }
  backfills := nofun
  listed := nofun

theorem BilledOnce.next {s : UsageState} (hb : BilledOnce s) (label : UsageLabel)
    (hregular : ¬ BillsOtherwise s label (s.next label)) : BilledOnce (s.next label) := by
  cases label with
  | beginFinish id runId taskId timeline =>
      simp only [BillsOtherwise, not_or, not_exists, not_and, not_not] at hregular
      cases hfree : s.finishes id with
      | some finish =>
          simp only [UsageState.next, hfree]
          exact hb
      | none =>
          simp only [UsageState.next, hfree]
          exact hb.beginFinish hfree rfl hregular.1 hregular.2
  | finish id input =>
      cases hfinish : s.finishes id with
      | none =>
          simp only [UsageState.next, hfinish]
          exact hb
      | some finish =>
          simp only [UsageState.next, hfinish]
          refine hb.stepFinish hfinish input (fun raw hused => ?_) fun raw hpoint htaken => ?_
          · by_contra hnot
            exact hregular ⟨finish, hfinish, .inl ⟨raw, hused, hnot⟩⟩
          · by_contra hnot
            exact hregular ⟨finish, hfinish, .inr ⟨by rw [hpoint]; rfl, htaken, hnot⟩⟩
  | cutFinish id =>
      cases hfinish : s.finishes id with
      | none =>
          simp only [UsageState.next, hfinish]
          exact hb
      | some finish =>
          simp only [UsageState.next, hfinish]
          exact hb.cutFinish hfinish
  | beginBackfill id recordedAt listing =>
      cases hfree : s.backfills id with
      | some backfill =>
          simp only [UsageState.next, hfree]
          exact hb
      | none =>
          simp only [UsageState.next, hfree]
          split
          · next hlists =>
              refine hb.beginBackfill hlists fun runId hmem => ?_
              obtain ⟨dir, hdir, htask⟩ :=
                (Option.any_eq_true _ _).mp (List.mem_filter.mp hmem).2
              exact ⟨dir, hdir, htask⟩
          · exact hb
  | backfill id =>
      cases hslot : s.backfills id with
      | none =>
          simp only [UsageState.next, hslot]
          exact hb
      | some backfill =>
          simp only [UsageState.next, hslot]
          exact hb.stepBackfill hslot
  | cutBackfill id => exact hb.cutBackfill

def sampleCall : LedgerTimelineEvent where
  type := "proxy.llm_usage_recorded"
  payload := { roleId := some "A", inputTokens := 100, outputTokens := 10 }

def sampleLabels : List UsageLabel :=
  .beginFinish 0 "run" "task" [sampleCall] :: List.replicate 7 (.finish 0 {}) ++
    [.beginBackfill 0 "now" ["run"], .backfill 0, .backfill 0]

theorem sampleLabels_regular : ¬ Happened UsageState.next {} sampleLabels BillsOtherwise := by
  simp only [sampleLabels, List.replicate, List.cons_append, List.nil_append, happened_cons_iff,
    not_or, BillsOtherwise, not_happened_nil]
  refine ⟨⟨nofun, nofun⟩, ?_⟩
  decide

def overtakenLabels : List UsageLabel :=
  [.beginFinish 0 "run" "task" [sampleCall], .finish 0 {}, .beginBackfill 0 "now" ["run"],
    .backfill 0, .backfill 0] ++ List.replicate 6 (.finish 0 {})

end Newide.Usage
