import Newide.Usage.LedgerEntries

/-!
# The token ledger

The table of `src/persistence/sqlite-token-usage-ledger.ts`: rows keyed
by run, role and source, appended by upsert.  The bill of a run and a
source is what its rows say, role by role.
-/

namespace Newide.Usage

open Rows

abbrev TokenUsageLedger := List TokenUsageLedgerEntry

def entryKey (entry : TokenUsageLedgerEntry) : String × String × UsageSource :=
  (entry.runId, entry.roleId, entry.source)

def appendTokenUsage (ledger : TokenUsageLedger) (entries : List TokenUsageLedgerEntry) :
    TokenUsageLedger :=
  upsertAll entryKey ledger entries

/-- `presentLedgerSources`: the aggregate of the run has an entry for the source. -/
def presentLedgerSource (ledger : TokenUsageLedger) (runId : String) (source : UsageSource) :
    Bool :=
  ledger.any fun row => row.runId = runId ∧ row.source = source

def inLeg (runId : String) (source : UsageSource) (row : TokenUsageLedgerEntry) : Bool :=
  row.runId = runId ∧ row.source = source

def bill (rows : List TokenUsageLedgerEntry) (runId : String) (source : UsageSource) :
    RoleTokens :=
  (rows.filter (inLeg runId source)).map fun row => (row.roleId, row.tokens)

def ledgerTotal (ledger : TokenUsageLedger) (runId : String) (source : UsageSource) : Nat :=
  billed (bill ledger runId source)

section Bill

variable {ledger : TokenUsageLedger} {rows entries : List TokenUsageLedgerEntry}
  {runId : String} {source : UsageSource} {input : TokenUsageLedgerEntryInput}

theorem presentLedgerSource_iff :
    presentLedgerSource ledger runId source = true ↔ bill ledger runId source ≠ [] := by
  have hrows : bill ledger runId source ≠ [] ↔ ∃ row ∈ ledger, inLeg runId source row = true := by
    rw [bill, ne_eq, List.map_eq_nil_iff, List.filter_eq_nil_iff]
    simp
  rw [hrows, presentLedgerSource, List.any_eq_true]
  rfl

theorem bill_append_rows : bill (rows ++ entries) runId source =
    bill rows runId source ++ bill entries runId source := by
  simp [bill]

/-- In the rows of a run and a source the role is the key. -/
theorem distinct_of_bill (hd : Rows.Distinct Prod.fst (bill rows runId source)) :
    Rows.Distinct entryKey (rows.filter (inLeg runId source)) := by
  unfold Rows.Distinct bill at hd
  rw [List.map_map] at hd
  refine List.Nodup.of_map (fun key : String × String × UsageSource => key.2.1) ?_
  rw [List.map_map]
  exact hd

theorem keys_of_bill (h : (bill rows runId source).map Prod.fst =
      (bill entries runId source).map Prod.fst) :
    (rows.filter (inLeg runId source)).map entryKey =
      (entries.filter (inLeg runId source)).map entryKey := by
  have hkey : ∀ xs : List TokenUsageLedgerEntry,
      (xs.filter (inLeg runId source)).map entryKey =
        ((bill xs runId source).map Prod.fst).map fun role => (runId, role, source) := by
    intro xs
    simp only [bill, List.map_map]
    refine List.map_congr_left fun row hrow => ?_
    have hin : row.runId = runId ∧ row.source = source := by
      simpa [inLeg] using (List.mem_filter.mp hrow).2
    simp [entryKey, hin.1, hin.2]
  rw [hkey, hkey, h]

theorem inLeg_of_key (a b : TokenUsageLedgerEntry) (h : entryKey a = entryKey b) :
    inLeg runId source a = inLeg runId source b := by
  unfold entryKey at h
  simp only [Prod.mk.injEq] at h
  unfold inLeg
  rw [h.1, h.2.2]

theorem bill_append_other (h : bill entries runId source = []) :
    bill (appendTokenUsage ledger entries) runId source = bill ledger runId source := by
  have hnone : entries.filter (inLeg runId source) = [] := List.map_eq_nil_iff.mp h
  unfold bill appendTokenUsage
  rw [filter_upsertAll inLeg_of_key, hnone]
  rfl

theorem bill_append (hd : Rows.Distinct Prod.fst (bill entries runId source))
    (h : bill ledger runId source = [] ∨
      (bill ledger runId source).map Prod.fst = (bill entries runId source).map Prod.fst) :
    bill (appendTokenUsage ledger entries) runId source = bill entries runId source := by
  have hview : upsertAll entryKey (ledger.filter (inLeg runId source))
      (entries.filter (inLeg runId source)) = entries.filter (inLeg runId source) := by
    rcases h with hnone | hsame
    · have hempty : ledger.filter (inLeg runId source) = [] := List.map_eq_nil_iff.mp hnone
      rw [hempty]
      exact upsertAll_append (distinct_of_bill hd)
    · have hreplace : upsertAll entryKey ([] ++ ledger.filter (inLeg runId source))
          (entries.filter (inLeg runId source)) = [] ++ entries.filter (inLeg runId source) :=
        upsertAll_replace (distinct_of_bill hd) (keys_of_bill hsame)
      exact hreplace
  unfold bill appendTokenUsage
  rw [filter_upsertAll inLeg_of_key, hview]

theorem bill_build_self : bill (buildTokenUsageLedgerEntries input) input.runId source =
    match source with
    | .proxy => rollupProxy input
    | .claudeSessionJsonl =>
        rollupDriverByRole input.driverBilledLeg input.driverBilledUsage := by
  unfold buildTokenUsageLedgerEntries
  rw [bill_append_rows]
  cases source with
  | proxy => simp [bill, List.filter_map, inLeg, entryRow, Function.comp_def]
  | claudeSessionJsonl => simp [bill, List.filter_map, inLeg, entryRow, Function.comp_def]

theorem bill_build_other (h : input.runId ≠ runId) :
    bill (buildTokenUsageLedgerEntries input) runId source = [] := by
  unfold buildTokenUsageLedgerEntries
  rw [bill_append_rows]
  simp [bill, List.filter_map, inLeg, entryRow, Function.comp_def, h]

end Bill

end Newide.Usage
