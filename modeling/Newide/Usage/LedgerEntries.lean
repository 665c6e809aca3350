import Mathlib.Algebra.BigOperators.Group.List.Basic
import Mathlib.Algebra.Ring.Nat
import Newide.Foundation.Upserts

/-!
# Usage entries of a run

`src/app/run-usage-ledger-entries.ts` and the proxy leg of
`src/app/run-terminal-output-writer.ts`: how the usage of a run becomes
the legs of its summary and the rows of the ledger.  The proxy leg is
counted from the timeline, by role; the driver leg is scraped, and is
given by role only when the sessions add up to it.
-/

namespace Newide.Usage

open Rows

/-! ## Tokens -/

@[ext]
structure RunUsageTokens where
  inputTokens : Nat := 0
  outputTokens : Nat := 0
  cacheCreationInputTokens : Nat := 0
  cacheReadInputTokens : Nat := 0
  totalInputTokens : Nat := 0
  totalTokens : Nat := 0
  callCount : Nat := 0
deriving DecidableEq

def RunUsageTokens.add (current add : RunUsageTokens) : RunUsageTokens where
  inputTokens := current.inputTokens + add.inputTokens
  outputTokens := current.outputTokens + add.outputTokens
  cacheCreationInputTokens := current.cacheCreationInputTokens + add.cacheCreationInputTokens
  cacheReadInputTokens := current.cacheReadInputTokens + add.cacheReadInputTokens
  totalInputTokens := current.totalInputTokens + add.totalInputTokens
  totalTokens := current.totalTokens + add.totalTokens
  callCount := current.callCount + add.callCount

abbrev RoleTokens := List (String × RunUsageTokens)

def addInto (target : RoleTokens) (roleId : String) (add : RunUsageTokens) : RoleTokens :=
  match lookup Prod.fst roleId target with
  | some current => replace Prod.fst (roleId, current.2.add add) target
  | none => target ++ [(roleId, ({} : RunUsageTokens).add add)]

def sumTokens (byRole : RoleTokens) : RunUsageTokens :=
  byRole.foldl (fun total entry => total.add entry.2) {}

/-! ## The timeline -/

structure UsagePayload where
  roleId : Option String := none
  inputTokens : Nat := 0
  outputTokens : Nat := 0
  cacheCreationInputTokens : Nat := 0
  cacheReadInputTokens : Nat := 0

structure LedgerTimelineEvent where
  type : String
  payload : UsagePayload := {}

/-- The role id of what has no role. -/
def unattributedRoleId : String := ""

def readRoleId (value : Option String) : String :=
  match value with
  | some role =>
      if role.toList.any fun c => !c.isWhitespace then role else unattributedRoleId
  | none => unattributedRoleId

/-- The payloads of the `proxy.llm_usage_recorded` events. -/
def proxyCalls (timeline : List LedgerTimelineEvent) : List UsagePayload :=
  (timeline.filter (·.type = "proxy.llm_usage_recorded")).map (·.payload)

def callTokens (payload : UsagePayload) : RunUsageTokens :=
  let totalInput :=
    payload.inputTokens + payload.cacheCreationInputTokens + payload.cacheReadInputTokens
  { inputTokens := payload.inputTokens
    outputTokens := payload.outputTokens
    cacheCreationInputTokens := payload.cacheCreationInputTokens
    cacheReadInputTokens := payload.cacheReadInputTokens
    totalInputTokens := totalInput
    totalTokens := totalInput + payload.outputTokens
    callCount := 1 }

def rollupProxyByRole (timeline : List LedgerTimelineEvent) : RoleTokens :=
  (proxyCalls timeline).foldl
    (fun byRole payload => addInto byRole (readRoleId payload.roleId) (callTokens payload)) []

/-- The proxy leg of the summary; the four loop variables are sums over the calls. -/
def resolveTokenUsageFromTimeline (timeline : List LedgerTimelineEvent) : Option RunUsageTokens :=
  let calls := proxyCalls timeline
  if calls = [] then none
  else
    let input := (calls.map (·.inputTokens)).sum
    let output := (calls.map (·.outputTokens)).sum
    let cacheCreation := (calls.map (·.cacheCreationInputTokens)).sum
    let cacheRead := (calls.map (·.cacheReadInputTokens)).sum
    let totalInput := input + cacheCreation + cacheRead
    some
      { inputTokens := input
        outputTokens := output
        cacheCreationInputTokens := cacheCreation
        cacheReadInputTokens := cacheRead
        totalInputTokens := totalInput
        totalTokens := totalInput + output
        callCount := calls.length }

/-! ## The legs as entries -/

inductive UsageSource where
  | proxy | claudeSessionJsonl
deriving DecidableEq

/-- A session of `driver_billed_usage`. -/
structure DriverSessionRow where
  roleId : Option String := none
  tokens : RunUsageTokens
deriving DecidableEq

/-- A row of the ledger; its one metric, `billed_tokens`, is left out. -/
structure TokenUsageLedgerEntry where
  runId : String
  taskId : String
  roleId : String
  source : UsageSource
  tokens : RunUsageTokens
  recordedAt : String

structure TokenUsageLedgerEntryInput where
  runId : String
  taskId : String
  timeline : Option (List LedgerTimelineEvent) := none
  proxyLeg : Option RunUsageTokens := none
  driverBilledLeg : Option RunUsageTokens := none
  driverBilledUsage : List DriverSessionRow := []
  recordedAt : String

/-- A leg read back from a summary; an empty one counts as none. -/
def readLeg (leg : Option RunUsageTokens) : Option RunUsageTokens :=
  leg.filter (0 < ·.totalTokens)

def rollupLeg (leg : Option RunUsageTokens) : RoleTokens :=
  match readLeg leg with
  | some leg => [(unattributedRoleId, leg)]
  | none => []

/-- By role when there is a timeline, else the leg as one row. -/
def rollupProxy (input : TokenUsageLedgerEntryInput) : RoleTokens :=
  match input.timeline with
  | some timeline => rollupProxyByRole timeline
  | none => rollupLeg input.proxyLeg

def readDriverSessions (sessions : List DriverSessionRow) : List DriverSessionRow :=
  sessions.filter fun session => session.tokens.totalTokens ≠ 0

def rollupSessions (sessions : List DriverSessionRow) : RoleTokens :=
  (readDriverSessions sessions).foldl
    (fun byRole session => addInto byRole (readRoleId session.roleId) session.tokens) []

/-- By role when the sessions add up to the leg, else the leg as one row. -/
def rollupDriverByRole (leg : Option RunUsageTokens) (sessions : List DriverSessionRow) :
    RoleTokens :=
  match readLeg leg with
  | none => []
  | some total =>
      if readDriverSessions sessions ≠ [] ∧
          (sumTokens (rollupSessions sessions)).totalTokens = total.totalTokens then
        rollupSessions sessions
      else [(unattributedRoleId, total)]

def entryRow (input : TokenUsageLedgerEntryInput) (source : UsageSource)
    (entry : String × RunUsageTokens) : TokenUsageLedgerEntry where
  runId := input.runId
  taskId := input.taskId
  roleId := entry.1
  source := source
  tokens := entry.2
  recordedAt := input.recordedAt

def buildTokenUsageLedgerEntries (input : TokenUsageLedgerEntryInput) :
    List TokenUsageLedgerEntry :=
  (rollupProxy input).map (entryRow input .proxy) ++
    (rollupDriverByRole input.driverBilledLeg input.driverBilledUsage).map
      (entryRow input .claudeSessionJsonl)

/-! ## What the entries add up to -/

def billed (byRole : RoleTokens) : Nat :=
  (byRole.map (·.2.totalTokens)).sum

def legTotal (leg : Option RunUsageTokens) : Nat :=
  (leg.map (·.totalTokens)).getD 0

variable {total : RunUsageTokens}

section Sums

variable {byRole : RoleTokens} {roleId : String} {tokens : RunUsageTokens}
  {timeline : List LedgerTimelineEvent} {leg : Option RunUsageTokens}
  {sessions : List DriverSessionRow}

theorem addInto_distinct (hd : Rows.Distinct Prod.fst byRole) :
    Rows.Distinct Prod.fst (addInto byRole roleId tokens) := by
  unfold addInto
  cases hl : lookup Prod.fst roleId byRole with
  | some current => exact hd.replace _
  | none => exact hd.append_new fun old hold => lookup_eq_none.mp hl old hold

structure Additive (field : RunUsageTokens → Nat) : Prop where
  zero : field {} = 0
  add : ∀ a b, field (a.add b) = field a + field b

theorem additive_totalTokens : Additive (·.totalTokens) := ⟨rfl, fun _ _ => rfl⟩

section Fold

variable {field : RunUsageTokens → Nat} {ι : Type} {role : ι → String}
  {amount : ι → RunUsageTokens}

theorem Additive.addInto (hf : Additive field) (hd : Rows.Distinct Prod.fst byRole) :
    ((addInto byRole roleId tokens).map (field ·.2)).sum =
      (byRole.map (field ·.2)).sum + field tokens := by
  unfold Usage.addInto
  cases hl : lookup Prod.fst roleId byRole with
  | none => simp [hf.add, hf.zero]
  | some current =>
      have hkey : current.1 = (roleId, current.2.add tokens).1 := lookup_key hl
      obtain ⟨rest, hbefore, hafter⟩ := hd.replace_perm (lookup_mem hl) hkey
      dsimp only
      rw [(hbefore.map _).sum_eq, (hafter.map _).sum_eq]
      simp only [List.map_cons, List.sum_cons, hf.add]
      omega

theorem foldl_addInto_distinct (items : List ι) (hd : Rows.Distinct Prod.fst byRole) :
    Rows.Distinct Prod.fst
      (items.foldl (fun byRole item => addInto byRole (role item) (amount item)) byRole) :=
  List.foldlRecOn items _ hd fun _ hd _ _ => addInto_distinct hd

theorem Additive.foldl_addInto (hf : Additive field) (items : List ι)
    (hd : Rows.Distinct Prod.fst byRole) :
    ((items.foldl (fun byRole item => Usage.addInto byRole (role item) (amount item))
        byRole).map (field ·.2)).sum =
      (byRole.map (field ·.2)).sum + (items.map fun item => field (amount item)).sum := by
  induction items generalizing byRole with
  | nil => simp
  | cons item rest ih =>
      have hnext : Rows.Distinct Prod.fst (Usage.addInto byRole (role item) (amount item)) :=
        addInto_distinct hd
      rw [List.foldl_cons, ih hnext, hf.addInto hd, List.map_cons, List.sum_cons, Nat.add_assoc]

theorem Additive.sumTokens (hf : Additive field) :
    field (sumTokens byRole) = (byRole.map (field ·.2)).sum := by
  have hfold : ∀ start : RunUsageTokens,
      field (byRole.foldl (fun total entry => total.add entry.2) start) =
        field start + (byRole.map (field ·.2)).sum := by
    induction byRole with
    | nil => simp
    | cons entry rest ih =>
        intro start
        rw [List.foldl_cons, ih, hf.add, List.map_cons, List.sum_cons, Nat.add_assoc]
  rw [Usage.sumTokens, hfold, hf.zero, Nat.zero_add]

end Fold

theorem sumTokens_totalTokens : (sumTokens byRole).totalTokens = billed byRole :=
  additive_totalTokens.sumTokens

theorem rollupProxyByRole_distinct : Rows.Distinct Prod.fst (rollupProxyByRole timeline) :=
  foldl_addInto_distinct _ .nil

theorem rollupSessions_distinct : Rows.Distinct Prod.fst (rollupSessions sessions) :=
  foldl_addInto_distinct _ .nil

theorem rollupDriverByRole_distinct :
    Rows.Distinct Prod.fst (rollupDriverByRole leg sessions) := by
  unfold rollupDriverByRole
  cases readLeg leg with
  | none => exact .nil
  | some total =>
      dsimp only
      split
      · exact rollupSessions_distinct
      · exact List.nodup_singleton _

theorem rollupLeg_distinct : Rows.Distinct Prod.fst (rollupLeg leg) := by
  unfold rollupLeg
  cases readLeg leg with
  | none => exact .nil
  | some total => exact List.nodup_singleton _

theorem sum_callTokens (calls : List UsagePayload) :
    (calls.map fun call => (callTokens call).totalTokens).sum =
      (calls.map (·.inputTokens)).sum + (calls.map (·.cacheCreationInputTokens)).sum +
        (calls.map (·.cacheReadInputTokens)).sum + (calls.map (·.outputTokens)).sum := by
  induction calls with
  | nil => rfl
  | cons call rest ih =>
      simp only [List.map_cons, List.sum_cons]
      rw [ih]
      simp only [callTokens]
      omega

theorem billed_rollupProxyByRole :
    billed (rollupProxyByRole timeline) = legTotal (resolveTokenUsageFromTimeline timeline) := by
  unfold rollupProxyByRole billed
  rw [additive_totalTokens.foldl_addInto _ .nil, sum_callTokens]
  simp only [resolveTokenUsageFromTimeline]
  by_cases hcalls : proxyCalls timeline = []
  · rw [if_pos hcalls, hcalls]
    rfl
  · rw [if_neg hcalls]
    simp [legTotal]

theorem readLeg_none (h : readLeg leg = none) : legTotal leg = 0 := by
  cases leg with
  | none => rfl
  | some total =>
      have hzero : ¬ 0 < total.totalTokens := by simpa [readLeg, Option.filter] using h
      simpa [legTotal] using hzero

theorem readLeg_some (h : readLeg leg = some total) :
    legTotal leg = total.totalTokens := by
  obtain ⟨rfl, _⟩ := Option.filter_eq_some_iff.mp h
  rfl

theorem billed_rollupLeg : billed (rollupLeg leg) = legTotal leg := by
  unfold rollupLeg
  cases hleg : readLeg leg with
  | none => exact (readLeg_none hleg).symm
  | some total => simp [billed, readLeg_some hleg]

theorem billed_rollupDriverByRole : billed (rollupDriverByRole leg sessions) = legTotal leg := by
  unfold rollupDriverByRole
  cases hleg : readLeg leg with
  | none => exact (readLeg_none hleg).symm
  | some total =>
      dsimp only
      split
      · next hequal => rw [← sumTokens_totalTokens, hequal.2, readLeg_some hleg]
      · simp [billed, readLeg_some hleg]

/-! ## Calls without a role -/

def Unattributed (timeline : List LedgerTimelineEvent) : Prop :=
  ∀ call ∈ proxyCalls timeline, readRoleId call.roleId = unattributedRoleId

instance : Decidable (Unattributed timeline) :=
  inferInstanceAs (Decidable (∀ call ∈ proxyCalls timeline, _))

theorem foldl_unattributed {calls : List UsagePayload}
    (h : ∀ call ∈ calls, readRoleId call.roleId = unattributedRoleId) (total : RunUsageTokens) :
    calls.foldl (fun byRole payload =>
        addInto byRole (readRoleId payload.roleId) (callTokens payload))
      [(unattributedRoleId, total)] =
    [(unattributedRoleId, calls.foldl (fun total call => total.add (callTokens call)) total)] := by
  induction calls generalizing total with
  | nil => rfl
  | cons call rest ih =>
      have hstep : addInto [(unattributedRoleId, total)] (readRoleId call.roleId)
          (callTokens call) = [(unattributedRoleId, total.add (callTokens call))] := by
        rw [h call List.mem_cons_self]
        rfl
      rw [List.foldl_cons, List.foldl_cons, hstep]
      exact ih (fun later hlater => h later (List.mem_cons_of_mem _ hlater)) _

theorem foldl_callTokens (calls : List UsagePayload) (total : RunUsageTokens) :
    calls.foldl (fun total call => total.add (callTokens call)) total =
      total.add
        { inputTokens := (calls.map (·.inputTokens)).sum
          outputTokens := (calls.map (·.outputTokens)).sum
          cacheCreationInputTokens := (calls.map (·.cacheCreationInputTokens)).sum
          cacheReadInputTokens := (calls.map (·.cacheReadInputTokens)).sum
          totalInputTokens := (calls.map (·.inputTokens)).sum +
            (calls.map (·.cacheCreationInputTokens)).sum +
            (calls.map (·.cacheReadInputTokens)).sum
          totalTokens := (calls.map (·.inputTokens)).sum +
            (calls.map (·.cacheCreationInputTokens)).sum +
            (calls.map (·.cacheReadInputTokens)).sum + (calls.map (·.outputTokens)).sum
          callCount := calls.length } := by
  induction calls generalizing total with
  | nil => simp [RunUsageTokens.add]
  | cons call rest ih =>
      rw [List.foldl_cons, ih]
      simp only [RunUsageTokens.add, callTokens, List.map_cons, List.sum_cons, List.length_cons,
        RunUsageTokens.mk.injEq]
      omega

theorem rollupProxyByRole_unattributed (h : Unattributed timeline)
    (hleg : readLeg (resolveTokenUsageFromTimeline timeline) = some total) :
    rollupProxyByRole timeline = rollupLeg (resolveTokenUsageFromTimeline timeline) := by
  have hsome := (Option.filter_eq_some_iff.mp hleg).1
  have htotal : rollupLeg (resolveTokenUsageFromTimeline timeline) =
      [(unattributedRoleId, total)] := by
    simp only [rollupLeg, hleg]
  rw [htotal]
  unfold rollupProxyByRole
  unfold Unattributed at h
  simp only [resolveTokenUsageFromTimeline] at hsome
  cases hcalls : proxyCalls timeline with
  | nil =>
      rw [if_pos hcalls] at hsome
      cases hsome
  | cons call rest =>
      rw [hcalls, if_neg (List.cons_ne_nil _ _)] at hsome
      rw [hcalls] at h
      have hfirst : addInto [] (readRoleId call.roleId) (callTokens call) =
          [(unattributedRoleId, ({} : RunUsageTokens).add (callTokens call))] := by
        rw [h call List.mem_cons_self]
        rfl
      rw [List.foldl_cons, hfirst,
        foldl_unattributed fun later hlater => h later (List.mem_cons_of_mem _ hlater)]
      have hsum := foldl_callTokens (call :: rest) {}
      rw [List.foldl_cons] at hsum
      rw [hsum, ← Option.some.inj hsome]
      simp [RunUsageTokens.add]

end Sums

end Newide.Usage
