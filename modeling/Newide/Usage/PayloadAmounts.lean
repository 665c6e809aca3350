import Mathlib.Algebra.BigOperators.Group.List.Basic
import Mathlib.Algebra.Order.Floor.Semiring
import Mathlib.Data.List.ReduceOption
import Mathlib.Data.Rat.Floor
import Mathlib.Tactic.Linarith
import Newide.Foundation.Fallible
import Newide.Gate.OutputParser
import Newide.Usage.LedgerEntries

/-!
# Amounts in usage payloads

`readAmount` of `src/app/run-usage-ledger-entries.ts` and the proxy leg of
`src/app/run-terminal-output-writer.ts` read the same payloads: the ledger
takes the whole part of what is a positive number, the summary whatever
`Number` makes of a field, and skips a call whose input or output is not
finite.  Sums are exact; the numbers the platform rounds are left out.
-/

namespace Newide.Usage.Payloads

open Fallible Hook Gate Record

/-! ## Reading -/

/-- `LedgerTimelineEvent`, with the payload as it comes. -/
structure TimelineEvent where
  type : String
  payload : List (String × Yaml)

inductive AmountField where
  | input | output | cacheCreation | cacheRead

def AmountField.key : AmountField → String
  | .input => "input_tokens"
  | .output => "output_tokens"
  | .cacheCreation => "cache_creation_input_tokens"
  | .cacheRead => "cache_read_input_tokens"

def readAmount : Option Yaml → Nat
  | some (.number n) =>
      match n.value with
      | .finite q => ⌊q⌋₊
      | _ => 0
  | _ => 0

def readRole : Option Yaml → Option String
  | some (.string role) => some role
  | _ => none

def readPayload (payload : List (String × Yaml)) : UsagePayload where
  roleId := readRole (get "role_id" payload)
  inputTokens := readAmount (get AmountField.input.key payload)
  outputTokens := readAmount (get AmountField.output.key payload)
  cacheCreationInputTokens := readAmount (get AmountField.cacheCreation.key payload)
  cacheReadInputTokens := readAmount (get AmountField.cacheRead.key payload)

def TimelineEvent.read (event : TimelineEvent) : LedgerTimelineEvent where
  type := event.type
  payload := readPayload event.payload

/-- `Number(payload.field ?? 0)`, unless it throws. -/
def amount (ports : OutputPorts) (payload : List (String × Yaml)) (field : AmountField) :
    Option NumberValue :=
  numberOf ports (nullishOr (get field.key payload) (some (.number ⟨.finite 0, "0"⟩)))

/-- `Number.isFinite` -/
def IsFinite (value : NumberValue) : Prop := ∃ q, value = .finite q

instance (value : NumberValue) : Decidable (IsFinite value) :=
  match value with
  | .finite q => .isTrue ⟨q, rfl⟩
  | .nan => .isFalse (by rintro ⟨_, h⟩; cases h)
  | .infinite _ => .isFalse (by rintro ⟨_, h⟩; cases h)

/-- `a + b` -/
def plus : NumberValue → NumberValue → NumberValue
  | .finite p, .finite q => .finite (p + q)
  | .nan, _ | _, .nan => .nan
  | .infinite negative, .infinite other => if negative = other then .infinite negative else .nan
  | .infinite negative, .finite _ | .finite _, .infinite negative => .infinite negative

/-- The amounts of a call, unless its input or output is not finite. -/
def readCall (ports : OutputPorts) (payload : List (String × Yaml)) :
    Option (Option (AmountField → NumberValue)) := do
  let nextInput ← amount ports payload .input
  let nextOutput ← amount ports payload .output
  if IsFinite nextInput ∧ IsFinite nextOutput then
    let cacheCreation ← amount ports payload .cacheCreation
    let cacheRead ← amount ports payload .cacheRead
    some (some fun
      | .input => nextInput
      | .output => nextOutput
      | .cacheCreation => cacheCreation
      | .cacheRead => cacheRead)
  else some none

structure TimelineTokens where
  inputTokens : NumberValue
  outputTokens : NumberValue
  cacheCreationInputTokens : NumberValue
  cacheReadInputTokens : NumberValue
  totalInputTokens : NumberValue
  totalTokens : NumberValue
  callCount : Nat

/-- The payloads of the `proxy.llm_usage_recorded` events. -/
def usagePayloads (timeline : List TimelineEvent) : List (List (String × Yaml)) :=
  (timeline.filter (·.type = "proxy.llm_usage_recorded")).map (·.payload)

def total (amounts : List NumberValue) : NumberValue := amounts.foldl plus (.finite 0)

/-- The four loop variables are totals over the calls that are not skipped; `none` where an amount
throws. -/
def resolveTokenUsageFromTimeline (ports : OutputPorts) (timeline : List TimelineEvent) :
    Option (Option TimelineTokens) :=
  let usageEvents := usagePayloads timeline
  if usageEvents = [] then some none
  else do
    let calls ← usageEvents.mapM (readCall ports)
    let sum (field : AmountField) := total (calls.reduceOption.map fun amounts => amounts field)
    let totalInput := plus (plus (sum .input) (sum .cacheCreation)) (sum .cacheRead)
    some
      (some
        { inputTokens := sum .input
          outputTokens := sum .output
          cacheCreationInputTokens := sum .cacheCreation
          cacheReadInputTokens := sum .cacheRead
          totalInputTokens := totalInput
          totalTokens := plus totalInput (sum .output)
          callCount := usageEvents.length })

/-- `buildTokenUsageLedgerEntries` for a run that has its timeline. -/
def buildTokenUsageLedgerEntries (input : TokenUsageLedgerEntryInput)
    (timeline : List TimelineEvent) : List TokenUsageLedgerEntry :=
  Usage.buildTokenUsageLedgerEntries { input with timeline := some (timeline.map (·.read)) }

/-! ## Sums -/

section
variable {a b c v : NumberValue} {q : Rat} {amounts : List NumberValue}

theorem plus_assoc : plus (plus a b) c = plus a (plus b c) := by
  cases a with
  | nan => rfl
  | finite p =>
      cases b with
      | nan => rfl
      | finite q =>
          cases c with
          | nan => rfl
          | finite r => exact congrArg NumberValue.finite (add_assoc p q r)
          | infinite _ => rfl
      | infinite first =>
          cases c with
          | nan => rfl
          | finite _ => rfl
          | infinite second => cases first <;> cases second <;> rfl
  | infinite first =>
      cases b with
      | nan => rfl
      | finite q =>
          cases c with
          | nan => rfl
          | finite _ => rfl
          | infinite _ => rfl
      | infinite second =>
          cases c with
          | nan => cases first <;> cases second <;> rfl
          | finite _ => cases first <;> cases second <;> rfl
          | infinite third => cases first <;> cases second <;> cases third <;> rfl

theorem plus_zero : plus v (.finite 0) = v := by
  cases v with
  | finite q => exact congrArg NumberValue.finite (add_zero q)
  | nan | infinite => rfl

theorem zero_plus : plus (.finite 0) v = v := by
  cases v with
  | finite q => exact congrArg NumberValue.finite (zero_add q)
  | nan | infinite => rfl

theorem plus_eq_finite : plus a b = .finite q ↔
    ∃ x y, a = .finite x ∧ b = .finite y ∧ x + y = q := by
  constructor
  · intro h
    cases a with
    | nan => cases h
    | infinite first =>
        cases b with
        | nan => cases h
        | finite _ => cases h
        | infinite second =>
            simp only [plus] at h
            split at h <;> cases h
    | finite x =>
        cases b with
        | nan => cases h
        | infinite _ => cases h
        | finite y =>
            cases h
            exact ⟨x, y, rfl, rfl, rfl⟩
  · rintro ⟨x, y, rfl, rfl, rfl⟩
    rfl

theorem total_cons : total (v :: amounts) = plus v (total amounts) := by
  have hfold (start : NumberValue) : amounts.foldl plus start = plus start (total amounts) := by
    unfold total
    induction amounts generalizing start with
    | nil => exact plus_zero.symm
    | cons first rest ih => rw [List.foldl_cons, List.foldl_cons, ih, ih (plus _ first), zero_plus,
        plus_assoc]
  rw [total, List.foldl_cons, zero_plus, hfold]

end

/-! ## Where the two readings agree -/

/-- What the summary counts of a field of a call, less what the ledger counts. -/
def Drifts (ports : OutputPorts) (field : AmountField) (payload : List (String × Yaml)) (d : Rat) :
    Prop :=
  ∃ reading, readCall ports payload = some reading ∧
    match reading with
    | none => d = -(readAmount (get field.key payload) : Rat)
    | some amounts => amounts field = .finite (readAmount (get field.key payload) + d)

/-- In every field all calls drift by a finite amount, and together by nothing. -/
def Agree (ports : OutputPorts) (payloads : List (List (String × Yaml))) : Prop :=
  ∀ field, ∃ drifts, List.Forall₂ (Drifts ports field) payloads drifts ∧ drifts.sum = 0

def ledgerTotal (field : AmountField) (payloads : List (List (String × Yaml))) : Nat :=
  (payloads.map fun payload => readAmount (get field.key payload)).sum

section
variable {ports : OutputPorts} {field : AmountField} {payloads : List (List (String × Yaml))}
  {calls : List (Option (AmountField → NumberValue))} {s : Rat}

theorem total_eq_iff_drifts
    (hcalls : List.Forall₂ (fun payload call => readCall ports payload = some call) payloads calls) :
    total (calls.reduceOption.map fun amounts => amounts field) =
        .finite (ledgerTotal field payloads + s) ↔
      ∃ drifts, List.Forall₂ (Drifts ports field) payloads drifts ∧ drifts.sum = s := by
  induction hcalls generalizing s with
  | nil =>
      constructor
      · intro h
        refine ⟨[], .nil, ?_⟩
        simpa [total, ledgerTotal] using h
      · rintro ⟨drifts, hdrifts, rfl⟩
        cases hdrifts
        simp [total, ledgerTotal]
  | @cons payload call payloads calls hcall hrest ih =>
      have hledger : ledgerTotal field (payload :: payloads) =
          readAmount (get field.key payload) + ledgerTotal field payloads :=
        List.sum_cons
      rw [hledger, Nat.cast_add]
      constructor
      · intro h
        cases call with
        | none =>
            rw [List.reduceOption_cons_of_none, add_assoc, add_left_comm] at h
            obtain ⟨drifts, hdrifts, hsum⟩ := ih.mp h
            refine ⟨_, .cons ⟨none, hcall, rfl⟩ hdrifts, ?_⟩
            rw [List.sum_cons, hsum, neg_add_cancel_left]
        | some amounts =>
            rw [List.reduceOption_cons_of_some, List.map_cons, total_cons] at h
            obtain ⟨x, y, hx, hy, hxy⟩ := plus_eq_finite.mp h
            rw [← add_sub_cancel (ledgerTotal field payloads : Rat) y] at hy
            obtain ⟨drifts, hdrifts, hsum⟩ := ih.mp hy
            refine ⟨(x - readAmount (get field.key payload)) :: drifts,
              .cons ⟨some amounts, hcall, ?_⟩ hdrifts, ?_⟩
            · dsimp only
              rw [hx, add_sub_cancel]
            · rw [List.sum_cons, hsum]
              linarith
      · rintro ⟨drifts, hdrifts, hsum⟩
        cases hdrifts with
        | @cons _ d _ drifts hdrift hdrifts =>
            obtain ⟨reading, hreading, hd⟩ := hdrift
            cases hcall.symm.trans hreading
            rw [List.sum_cons] at hsum
            have hrest := ih.mpr ⟨drifts, hdrifts, rfl⟩
            cases call with
            | none =>
                dsimp only at hd
                rw [List.reduceOption_cons_of_none, hrest, ← hsum, hd]
                congr 1
                ring
            | some amounts =>
                rw [List.reduceOption_cons_of_some, List.map_cons, total_cons, hrest, hd, ← hsum]
                refine congrArg NumberValue.finite ?_
                ring

theorem reads_of_drifts {drifts : List Rat}
    (h : List.Forall₂ (Drifts ports field) payloads drifts) :
    ∃ calls, payloads.mapM (readCall ports) = some calls := by
  induction h with
  | nil => exact ⟨[], rfl⟩
  | cons hdrift _ ih =>
      obtain ⟨call, hcall, _⟩ := hdrift
      obtain ⟨calls, hcalls⟩ := ih
      exact ⟨call :: calls, mapM_eq_some.mpr (.cons hcall (mapM_eq_some.mp hcalls))⟩

/-- The drifts cancel out exactly when nothing throws and every total of the summary is that of
the ledger. -/
theorem agree_iff : Agree ports payloads ↔ ∃ calls, payloads.mapM (readCall ports) = some calls ∧
    ∀ field, total (calls.reduceOption.map fun amounts => amounts field) =
      .finite (ledgerTotal field payloads) := by
  constructor
  · intro h
    obtain ⟨drifts, hdrifts, _⟩ := h .input
    obtain ⟨calls, hcalls⟩ := reads_of_drifts hdrifts
    refine ⟨calls, hcalls, fun field => ?_⟩
    rw [← add_zero (ledgerTotal field payloads : Rat)]
    exact (total_eq_iff_drifts (mapM_eq_some.mp hcalls)).mpr (h field)
  · rintro ⟨calls, hcalls, h⟩ field
    refine (total_eq_iff_drifts (mapM_eq_some.mp hcalls)).mp ?_
    rw [h field, add_zero]

end

/-! ## Rows and legs -/

def rowsOf (source : UsageSource) (entries : List TokenUsageLedgerEntry) : RoleTokens :=
  (entries.filter (·.source = source)).map fun entry => (entry.roleId, entry.tokens)

def wholeTokens (tokens : RunUsageTokens) : TimelineTokens where
  inputTokens := .finite tokens.inputTokens
  outputTokens := .finite tokens.outputTokens
  cacheCreationInputTokens := .finite tokens.cacheCreationInputTokens
  cacheReadInputTokens := .finite tokens.cacheReadInputTokens
  totalInputTokens := .finite tokens.totalInputTokens
  totalTokens := .finite tokens.totalTokens
  callCount := tokens.callCount

/-- A role has at most one row a source, and the rows add up to the legs. -/
structure Conserves (ports : OutputPorts) (input : TokenUsageLedgerEntryInput)
    (timeline : List TimelineEvent) : Prop where
  distinct : ((buildTokenUsageLedgerEntries input timeline).map fun entry =>
    (entry.roleId, entry.source)).Nodup
  proxy : ∃ usage, resolveTokenUsageFromTimeline ports timeline = some usage ∧
    match usage with
    | none => rowsOf .proxy (buildTokenUsageLedgerEntries input timeline) = []
    | some usage => usage =
        wholeTokens (sumTokens (rowsOf .proxy (buildTokenUsageLedgerEntries input timeline)))
  driver : (sumTokens (rowsOf .claudeSessionJsonl
    (buildTokenUsageLedgerEntries input timeline))).totalTokens = legTotal input.driverBilledLeg

section
variable {ports : OutputPorts} {input : TokenUsageLedgerEntryInput} {timeline : List TimelineEvent}

theorem proxyCalls_read : proxyCalls (timeline.map (·.read)) =
    (usagePayloads timeline).map readPayload := by
  unfold proxyCalls usagePayloads
  rw [List.filter_map, List.map_map, List.map_map]
  rfl

theorem rowsOf_entries (source : UsageSource) (rows : RoleTokens) (other : UsageSource) :
    rowsOf source (rows.map (entryRow input other)) = if other = source then rows else [] := by
  unfold rowsOf
  split
  · next h =>
      rw [List.filter_eq_self.mpr fun entry hentry => ?_, List.map_map]
      · exact (List.map_congr_left fun _ _ => rfl).trans (List.map_id rows)
      · obtain ⟨row, _, rfl⟩ := List.mem_map.mp hentry
        exact decide_eq_true h
  · next h =>
      rw [List.filter_eq_nil_iff.mpr fun entry hentry => ?_, List.map_nil]
      obtain ⟨row, _, rfl⟩ := List.mem_map.mp hentry
      exact fun hsource => h (of_decide_eq_true hsource)

theorem rowsOf_build : rowsOf .proxy (buildTokenUsageLedgerEntries input timeline) =
      rollupProxyByRole (timeline.map (·.read)) ∧
    rowsOf .claudeSessionJsonl (buildTokenUsageLedgerEntries input timeline) =
      rollupDriverByRole input.driverBilledLeg input.driverBilledUsage := by
  have happend (source : UsageSource) (first second : List TokenUsageLedgerEntry) :
      rowsOf source (first ++ second) = rowsOf source first ++ rowsOf source second := by
    simp [rowsOf]
  constructor
  · rw [buildTokenUsageLedgerEntries, Usage.buildTokenUsageLedgerEntries, happend, rowsOf_entries,
      rowsOf_entries, if_pos rfl, if_neg (by decide), List.append_nil]
    rfl
  · rw [buildTokenUsageLedgerEntries, Usage.buildTokenUsageLedgerEntries, happend, rowsOf_entries,
      rowsOf_entries, if_pos rfl, if_neg (by decide), List.nil_append]

theorem build_distinct : ((buildTokenUsageLedgerEntries input timeline).map fun entry =>
    (entry.roleId, entry.source)).Nodup := by
  have hkeys (source : UsageSource) (rows : RoleTokens) :
      (rows.map (entryRow { input with timeline := some (timeline.map (·.read)) } source)).map
          (fun entry => (entry.roleId, entry.source)) =
        (rows.map Prod.fst).map fun role => (role, source) := by
    rw [List.map_map, List.map_map]
    rfl
  have hinjective (source : UsageSource) : Function.Injective fun role : String => (role, source) :=
    fun _ _ h => congrArg Prod.fst h
  unfold buildTokenUsageLedgerEntries Usage.buildTokenUsageLedgerEntries
  rw [List.map_append, hkeys, hkeys]
  refine List.Nodup.append (rollupProxyByRole_distinct.map (hinjective _))
    (rollupDriverByRole_distinct.map (hinjective _)) fun key hproxy hdriver => ?_
  obtain ⟨role, _, rfl⟩ := List.mem_map.mp hproxy
  obtain ⟨_, _, heq⟩ := List.mem_map.mp hdriver
  cases heq

theorem sum_proxyRows {field : RunUsageTokens → Nat} (hf : Additive field) :
    field (sumTokens (rollupProxyByRole (timeline.map (·.read)))) =
      ((usagePayloads timeline).map fun payload => field (callTokens (readPayload payload))).sum := by
  rw [hf.sumTokens, rollupProxyByRole, hf.foldl_addInto _ .nil, proxyCalls_read, List.map_map]
  exact Nat.zero_add _

theorem sumTokens_proxyRows : sumTokens (rollupProxyByRole (timeline.map (·.read))) =
    { inputTokens := ledgerTotal .input (usagePayloads timeline)
      outputTokens := ledgerTotal .output (usagePayloads timeline)
      cacheCreationInputTokens := ledgerTotal .cacheCreation (usagePayloads timeline)
      cacheReadInputTokens := ledgerTotal .cacheRead (usagePayloads timeline)
      totalInputTokens := ledgerTotal .input (usagePayloads timeline) +
        ledgerTotal .cacheCreation (usagePayloads timeline) +
        ledgerTotal .cacheRead (usagePayloads timeline)
      totalTokens := ledgerTotal .input (usagePayloads timeline) +
        ledgerTotal .cacheCreation (usagePayloads timeline) +
        ledgerTotal .cacheRead (usagePayloads timeline) + ledgerTotal .output (usagePayloads timeline)
      callCount := (usagePayloads timeline).length } := by
  have hinput : Additive (·.inputTokens) := ⟨rfl, fun _ _ => rfl⟩
  have houtput : Additive (·.outputTokens) := ⟨rfl, fun _ _ => rfl⟩
  have hcreation : Additive (·.cacheCreationInputTokens) := ⟨rfl, fun _ _ => rfl⟩
  have hread : Additive (·.cacheReadInputTokens) := ⟨rfl, fun _ _ => rfl⟩
  have htotalInput : Additive (·.totalInputTokens) := ⟨rfl, fun _ _ => rfl⟩
  have hcount : Additive (·.callCount) := ⟨rfl, fun _ _ => rfl⟩
  refine RunUsageTokens.ext (sum_proxyRows hinput) (sum_proxyRows houtput) (sum_proxyRows hcreation)
    (sum_proxyRows hread) ?_ ?_ ?_
  · rw [sum_proxyRows htotalInput]
    simp only [callTokens, readPayload, List.sum_map_add, ledgerTotal]
  · rw [sum_proxyRows additive_totalTokens]
    simp only [callTokens, readPayload, List.sum_map_add, ledgerTotal]
  · rw [sum_proxyRows hcount]
    simp [callTokens]

theorem resolve_of_calls (hsome : usagePayloads timeline ≠ []) {usage : Option TimelineTokens} :
    resolveTokenUsageFromTimeline ports timeline = some usage ↔
      ∃ calls, (usagePayloads timeline).mapM (readCall ports) = some calls ∧
        let sum (field : AmountField) := total (calls.reduceOption.map fun amounts => amounts field)
        usage = some
          { inputTokens := sum .input
            outputTokens := sum .output
            cacheCreationInputTokens := sum .cacheCreation
            cacheReadInputTokens := sum .cacheRead
            totalInputTokens := plus (plus (sum .input) (sum .cacheCreation)) (sum .cacheRead)
            totalTokens := plus (plus (plus (sum .input) (sum .cacheCreation)) (sum .cacheRead))
              (sum .output)
            callCount := (usagePayloads timeline).length } := by
  unfold resolveTokenUsageFromTimeline
  dsimp only
  rw [if_neg hsome]
  constructor
  · intro h
    obtain ⟨calls, hcalls, h⟩ := Option.bind_eq_some_iff.mp h
    exact ⟨calls, hcalls, (Option.some.inj h).symm⟩
  · rintro ⟨calls, hcalls, rfl⟩
    exact Option.bind_eq_some_iff.mpr ⟨calls, hcalls, rfl⟩

theorem proxy_conserves_iff : (∃ usage, resolveTokenUsageFromTimeline ports timeline = some usage ∧
    match usage with
    | none => rowsOf .proxy (buildTokenUsageLedgerEntries input timeline) = []
    | some usage => usage =
        wholeTokens (sumTokens (rowsOf .proxy (buildTokenUsageLedgerEntries input timeline)))) ↔
      Agree ports (usagePayloads timeline) := by
  rw [rowsOf_build.1, sumTokens_proxyRows]
  by_cases hnone : usagePayloads timeline = []
  · have hrows : rollupProxyByRole (timeline.map (·.read)) = [] := by
      rw [rollupProxyByRole, proxyCalls_read, hnone]
      rfl
    have hresolve : resolveTokenUsageFromTimeline ports timeline = some none := if_pos hnone
    rw [hnone]
    exact iff_of_true ⟨none, hresolve, hrows⟩ fun _ => ⟨[], .nil, rfl⟩
  · rw [agree_iff]
    constructor
    · rintro ⟨usage, hresolve, hrows⟩
      obtain ⟨calls, hcalls, rfl⟩ := (resolve_of_calls hnone).mp hresolve
      refine ⟨calls, hcalls, fun field => ?_⟩
      cases field with
      | input => exact congrArg TimelineTokens.inputTokens hrows
      | output => exact congrArg TimelineTokens.outputTokens hrows
      | cacheCreation => exact congrArg TimelineTokens.cacheCreationInputTokens hrows
      | cacheRead => exact congrArg TimelineTokens.cacheReadInputTokens hrows
    · rintro ⟨calls, hcalls, htotals⟩
      refine ⟨_, (resolve_of_calls hnone).mpr ⟨calls, hcalls, rfl⟩, ?_⟩
      simp only [htotals, plus, wholeTokens, Nat.cast_add]

end

/-! ## Whole amounts -/

/-- A whole number, or none. -/
def Whole : Option Yaml → Prop
  | none | some .null => True
  | some (.number n) => ∃ k : Nat, n.value = .finite k
  | _ => False

section
variable {ports : OutputPorts} {payload : List (String × Yaml)}

theorem Whole.amount {field : AmountField} (h : Whole (get field.key payload)) :
    Payloads.amount ports payload field =
      some (.finite (readAmount (get field.key payload))) := by
  unfold Payloads.amount
  cases hvalue : get field.key payload with
  | none => simp [nullishOr, numberOf, readAmount]
  | some value =>
      rw [hvalue] at h
      cases value with
      | null => simp [nullishOr, numberOf, readAmount]
      | number n =>
          obtain ⟨k, hk⟩ := h
          simp [nullishOr, numberOf, readAmount, hk]
      | boolean | string | array | object => exact h.elim

theorem drifts_zero (h : ∀ field : AmountField, Whole (get field.key payload))
    (field : AmountField) : Drifts ports field payload 0 := by
  refine ⟨some fun field => .finite (readAmount (get field.key payload)), ?_, ?_⟩
  · unfold readCall
    simp only [(h _).amount, Option.bind_eq_bind, Option.bind_some]
    rw [if_pos ⟨⟨_, rfl⟩, ⟨_, rfl⟩⟩]
    refine congrArg (fun amounts => some (some amounts)) (funext fun field => ?_)
    cases field <;> rfl
  · exact congrArg NumberValue.finite (add_zero _).symm

theorem agree_of_whole {payloads : List (List (String × Yaml))}
    (h : ∀ payload ∈ payloads, ∀ field : AmountField, Whole (get field.key payload)) :
    Agree ports payloads := by
  intro field
  refine ⟨payloads.map fun _ => 0, ?_, by simp⟩
  rw [List.forall₂_map_right_iff, List.forall₂_same]
  exact fun payload hin => drifts_zero (h payload hin) field

end

/-- A call with an input of one and a half tokens. -/
def fractionalTimeline : List TimelineEvent :=
  [⟨"proxy.llm_usage_recorded", [("input_tokens", .number ⟨.finite (3 / 2), "1.5"⟩)]⟩]

end Newide.Usage.Payloads
