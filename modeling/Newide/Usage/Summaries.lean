import Mathlib.Algebra.BigOperators.Group.List.Basic
import Mathlib.Algebra.Order.Monoid.WithTop
import Mathlib.Algebra.Order.Ring.Rat
import Mathlib.Data.List.Dedup
import Mathlib.Data.Nat.Cast.Order.Ring
import Mathlib.Tactic.Ring
import Newide.Foundation.Collation
import Newide.Foundation.Records

/-!
# Usage summaries

`src/telemetry/llm-usage-ledger.ts` and `mergeTokenUsageSummaries` of
`src/telemetry/collect-claude-session-usage.ts`: a summary folded from
entries, and one merged from summaries.  Counts are numbers without
rounding, or `⊤` for `NaN`.
-/

namespace Newide.Usage.Summaries

open Record Collation

/-! ## Summaries of entries -/

inductive UsageField where
  | inputTokens | outputTokens | cacheCreationInputTokens | cacheReadInputTokens
  | totalInputTokens | totalTokens | callCount

abbrev Counts := UsageField → WithTop ℚ

structure LlmUsageEntry where
  inputTokens : ℚ
  outputTokens : ℚ
  cacheCreationInputTokens : Option ℚ := none
  cacheReadInputTokens : Option ℚ := none
  source : String

/-- The inner `summarize`. -/
def summarize (bucket : List LlmUsageEntry) : UsageField → ℚ :=
  let input := (bucket.map (·.inputTokens)).sum
  let output := (bucket.map (·.outputTokens)).sum
  let cacheCreation := (bucket.map (·.cacheCreationInputTokens.getD 0)).sum
  let cacheRead := (bucket.map (·.cacheReadInputTokens.getD 0)).sum
  let totalInput := input + cacheCreation + cacheRead
  fun
    | .inputTokens => input
    | .outputTokens => output
    | .cacheCreationInputTokens => cacheCreation
    | .cacheReadInputTokens => cacheRead
    | .totalInputTokens => totalInput
    | .totalTokens => totalInput + output
    | .callCount => bucket.length

def numbers (f : UsageField → ℚ) : Counts := fun field => f field

/-- `RunTokenUsageSummary` -/
structure TokenUsageSummary where
  source : String
  counts : Counts
  sources : List String
  bySource : Record String Counts
  bySession : Record String Counts := []
  sessionId : Option String := none
  sessionPath : Option String := none

def inheritedNames : List String :=
  ["__proto__", "constructor", "hasOwnProperty", "isPrototypeOf", "propertyIsEnumerable",
    "toLocaleString", "toString", "valueOf", "__defineGetter__", "__defineSetter__",
    "__lookupGetter__", "__lookupSetter__"]

def emptyTokenUsageSummary (sessionId : Option String := none) : TokenUsageSummary where
  source := "unavailable"
  counts := 0
  sources := []
  bySource := []
  sessionId

def sourcesOf (entries : List LlmUsageEntry) : List String :=
  (entries.map (·.source)).reverse.dedup.reverse

def ofSource (source : String) (entries : List LlmUsageEntry) : List LlmUsageEntry :=
  entries.filter (·.source = source)

def syntheticSource (sources : List String) : String :=
  if sources.length = 1 then sources.head?.getD "unavailable" else "mixed"

/-- Assigning to `__proto__` makes no key. -/
def toRunTokenUsageSummary (entries : List LlmUsageEntry) (sessionId : Option String := none)
    (sessionPath : Option String := none) : TokenUsageSummary :=
  if entries = [] then emptyTokenUsageSummary sessionId
  else
    let sources := sortOn compare id (sourcesOf entries)
    { source := syntheticSource sources
      counts := numbers (summarize entries)
      sources
      bySource := ((sourcesOf entries).filter (· ≠ "__proto__")).map fun source =>
        (source, numbers (summarize (ofSource source entries)))
      sessionId
      sessionPath }

/-! ## Merging -/

/-- `x > 0`; no comparison with `NaN` holds. -/
def isPositive (x : WithTop ℚ) : Bool := x ≠ ⊤ && 0 < x

def isUsable (part : TokenUsageSummary) : Bool :=
  isPositive (part.counts .callCount) || isPositive (part.counts .totalTokens)

/-- The labels of summaries, which are no sources. -/
def isLabel (source : String) : Bool :=
  source = "unavailable" || source = "mixed" || source = ""

/-- `object[source]`: what is inherited has no counts. -/
def readSlice (object : Record String Counts) (source : String) : Option Counts :=
  match object.get source with
  | some counts => some counts
  | none => if source ∈ inheritedNames then some ⊤ else none

def addSlice (bySource : Record String Counts) (slice : String × Counts) : Record String Counts :=
  if slice.1 = "__proto__" then bySource
  else
    bySource.set slice.1 ((readSlice bySource slice.1).elim slice.2 fun prev => prev + slice.2)

def slicesOf (part : TokenUsageSummary) : List (String × Counts) :=
  let sources := if part.sources = [] then [part.source] else part.sources
  (sources.filter fun source => !isLabel source).map fun source =>
    (source, (readSlice part.bySource source).getD part.counts)

def addSession (bySession : Record String Counts) (session : String × Counts) :
    Record String Counts :=
  bySession.set session.1 ((bySession.get session.1).elim session.2 fun prev => prev + session.2)

/-- The counts of the sources together; the calls are those of the parts. -/
def mergedCounts (usable : List TokenUsageSummary) (bySource : Record String Counts)
    (sources : List String) : Counts :=
  let sum (field : UsageField) : WithTop ℚ :=
    (sources.map fun key => (bySource.get key).elim 0 fun counts => counts field).sum
  let totalInput := sum .inputTokens + sum .cacheCreationInputTokens + sum .cacheReadInputTokens
  fun
    | .totalInputTokens => totalInput
    | .totalTokens => totalInput + sum .outputTokens
    | .callCount => (usable.map fun part => part.counts .callCount).sum
    | field => sum field

def mergeUsable (usable : List TokenUsageSummary) : TokenUsageSummary :=
  let bySource := (usable.flatMap slicesOf).foldl addSlice []
  let sources := sortOn compare id (bySource.map Prod.fst)
  { source := syntheticSource sources
    counts := mergedCounts usable bySource sources
    sources
    bySource
    bySession := sortOn compare Prod.fst ((usable.flatMap (·.bySession)).foldl addSession [])
    sessionId := usable.findSome? (·.sessionId)
    sessionPath := usable.findSome? (·.sessionPath) }

def mergeTokenUsageSummaries (parts : List TokenUsageSummary) : TokenUsageSummary :=
  let usable := parts.filter isUsable
  if usable = [] then emptyTokenUsageSummary (parts.head?.bind (·.sessionId))
  else mergeUsable usable

/-! ## Counts add up -/

variable {entries more : List LlmUsageEntry} {entry : LlmUsageEntry} {source s : String}

@[simp] theorem numbers_zero : numbers 0 = 0 := rfl

theorem numbers_add (f g : UsageField → ℚ) : numbers (f + g) = numbers f + numbers g :=
  funext fun field => WithTop.coe_add (f field) (g field)

@[simp] theorem summarize_nil : summarize [] = 0 := by
  funext field
  cases field <;> simp [summarize]

theorem summarize_append :
    summarize (entries ++ more) = summarize entries + summarize more := by
  funext field
  cases field <;> simp [summarize] <;> ring

theorem summarize_cons : summarize (entry :: entries) = summarize [entry] + summarize entries := by
  rw [← summarize_append, List.singleton_append]

theorem ofSource_append :
    ofSource s (entries ++ more) = ofSource s entries ++ ofSource s more :=
  List.filter_append ..

theorem mem_sourcesOf : s ∈ sourcesOf entries ↔ ∃ entry ∈ entries, entry.source = s := by
  rw [sourcesOf, List.mem_reverse, List.mem_dedup, List.mem_reverse, List.mem_map]

theorem ofSource_eq_nil (h : s ∉ sourcesOf entries) : ofSource s entries = [] := by
  refine List.filter_eq_nil_iff.mpr fun entry hentry hsource => h ?_
  exact mem_sourcesOf.mpr ⟨entry, hentry, by simpa using hsource⟩

variable {keys : List String}

theorem sum_at_key {M : Type*} [AddCommMonoid M] (h : keys.Nodup) (f : String → M) (s : String) :
    (keys.map fun key => if key = s then f key else 0).sum = if s ∈ keys then f s else 0 := by
  induction keys with
  | nil => simp
  | cons key keys ih =>
      obtain ⟨hkey, hkeys⟩ := List.nodup_cons.mp h
      rw [List.map_cons, List.sum_cons, ih hkeys]
      by_cases heq : key = s
      · subst heq
        simp [hkey]
      · have hne : s ≠ key := fun h => heq h.symm
        simp [heq, hne]

theorem sum_summarize_ofSource (hkeys : keys.Nodup) (hall : ∀ entry ∈ entries, entry.source ∈ keys) :
    
    (keys.map fun key => summarize (ofSource key entries)).sum = summarize entries := by
  induction entries with
  | nil => simp [ofSource]
  | cons entry entries ih =>
      have hstep (key : String) : summarize (ofSource key (entry :: entries)) =
          (if key = entry.source then summarize [entry] else 0)
            + summarize (ofSource key entries) := by
        by_cases hkey : key = entry.source
        · rw [if_pos hkey, ofSource, List.filter_cons_of_pos (by simp [hkey]), summarize_cons]
          rfl
        · rw [if_neg hkey, ofSource, List.filter_cons_of_neg (by simp [Ne.symm hkey]), zero_add]
          rfl
      simp only [hstep]
      rw [List.sum_map_add, sum_at_key hkeys (fun _ => summarize [entry]),
        if_pos (hall entry List.mem_cons_self),
        ih fun other hother => hall other (List.mem_cons_of_mem _ hother), ← summarize_cons]

/-! ## Slices add up -/

variable {slices : List (String × Counts)} {r : Record String Counts}

/-- The value under which a slice of this source is added to first. -/
def startOf (source : String) : Counts := if source ∈ inheritedNames then ⊤ else 0

theorem addSlice_eq (slice : String × Counts) (h : slice.1 ≠ "__proto__") : addSlice r slice =
    r.set slice.1 ((r.get slice.1).getD (startOf slice.1) + slice.2) := by
  unfold addSlice readSlice startOf
  rw [if_neg h]
  cases r.get slice.1 with
  | some counts => rfl
  | none =>
      dsimp only
      split_ifs
      · rfl
      · simp

theorem distinct_addSlice (hr : r.Distinct) (slice : String × Counts) :
    (addSlice r slice).Distinct := by
  unfold addSlice
  split_ifs
  · exact hr
  · exact hr.set _ _

def sumOf (s : String) (slices : List (String × Counts)) : Counts :=
  (slices.map fun slice => if slice.1 = s then slice.2 else 0).sum

theorem get_foldl_addSlice (hr : r.Distinct) (hs : s ≠ "__proto__") :
    (slices.foldl addSlice r).get s =
      if s ∈ slices.map Prod.fst then some ((r.get s).getD (startOf s) + sumOf s slices)
      else r.get s := by
  induction slices generalizing r with
  | nil => simp
  | cons slice slices ih =>
      rw [List.foldl_cons, ih (distinct_addSlice hr slice)]
      have hsum : sumOf s (slice :: slices) =
          (if slice.1 = s then slice.2 else 0) + sumOf s slices := by
        simp [sumOf]
      by_cases hslice : slice.1 = s
      · subst hslice
        have hfound : slice.1 ∈ (slice :: slices).map Prod.fst := List.mem_cons_self
        rw [addSlice_eq slice hs, get_set hr, if_pos rfl, hsum, if_pos rfl, if_pos hfound]
        by_cases hin : slice.1 ∈ slices.map Prod.fst
        · rw [if_pos hin, Option.getD_some, add_assoc]
        · have hnone : sumOf slice.1 slices = 0 := by
            refine List.sum_eq_zero fun x hx => ?_
            obtain ⟨other, hother, rfl⟩ := List.mem_map.mp hx
            exact if_neg fun heq => hin (List.mem_map.mpr ⟨other, hother, heq⟩)
          rw [if_neg hin, hnone, add_zero]
      · have hget : (addSlice r slice).get s = r.get s := by
          unfold addSlice
          split_ifs
          · rfl
          · rw [get_set hr, if_neg (Ne.symm hslice)]
        have hcons : s ∈ (slice :: slices).map Prod.fst ↔ s ∈ slices.map Prod.fst := by
          rw [List.map_cons, List.mem_cons]
          exact or_iff_right (Ne.symm hslice)
        simp only [hget, hsum, if_neg hslice, zero_add, hcons]

theorem proto_not_key (hr : "__proto__" ∉ r.map Prod.fst) :
    "__proto__" ∉ (slices.foldl addSlice r).map Prod.fst := by
  induction slices generalizing r with
  | nil => exact hr
  | cons slice slices ih =>
      refine ih ?_
      unfold addSlice
      split_ifs with hproto
      · exact hr
      · rw [mem_keys_set]
        rintro (heq | hin)
        · exact hproto heq.symm
        · exact hr hin

/-! ## Summaries of parts -/

theorem get_map_keys {f : String → Counts} :
    Record.get s (keys.map fun key => (key, f key)) = if s ∈ keys then some (f s) else none := by
  induction keys with
  | nil => rfl
  | cons key keys ih =>
      rw [List.map_cons, get_cons, ih]
      by_cases h : key = s
      · subst h
        simp
      · simp [h, Ne.symm h]

theorem nodup_sourcesOf : (sourcesOf entries).Nodup :=
  List.nodup_reverse.mpr (List.nodup_dedup _)

theorem nodup_sorted : (sortOn compare id (sourcesOf entries)).Nodup :=
  sortOn_perm.nodup_iff.mpr nodup_sourcesOf

/-- None of the sources is a label. -/
def Proper (entries : List LlmUsageEntry) : Prop :=
  ∀ entry ∈ entries, isLabel entry.source = false

theorem sources_toRun (h : entries ≠ []) :
    (toRunTokenUsageSummary entries).sources = sortOn compare id (sourcesOf entries) := by
  rw [toRunTokenUsageSummary, if_neg h]

theorem counts_toRun :
    (toRunTokenUsageSummary entries).counts = numbers (summarize entries) := by
  unfold toRunTokenUsageSummary
  split_ifs with h
  · rw [h, summarize_nil]
    rfl
  · rfl

theorem get_bySource_toRun : (toRunTokenUsageSummary entries).bySource.get s =
    if s ∈ sourcesOf entries ∧ s ≠ "__proto__" then
      some (numbers (summarize (ofSource s entries)))
    else none := by
  unfold toRunTokenUsageSummary
  split_ifs with hnil hin hin
  · exact absurd hin.1 (by simp [hnil, mem_sourcesOf])
  · rfl
  · rw [get_map_keys, if_pos (List.mem_filter.mpr ⟨hin.1, by simpa using hin.2⟩)]
  · rw [get_map_keys, if_neg fun h => hin ?_]
    have h := List.mem_filter.mp h
    exact ⟨h.1, by simpa using h.2⟩

theorem isUsable_toRun : isUsable (toRunTokenUsageSummary entries) = true ↔ entries ≠ [] := by
  unfold isUsable
  rw [counts_toRun]
  cases entries with
  | nil => simp [numbers, isPositive]
  | cons entry entries =>
      have hcount : isPositive (numbers (summarize (entry :: entries)) .callCount) = true := by
        have hpos : (0 : ℚ) < ((entry :: entries).length : ℚ) :=
          Nat.cast_pos.mpr (Nat.succ_pos _)
        exact Bool.and_eq_true_iff.mpr ⟨decide_eq_true WithTop.coe_ne_top,
          decide_eq_true (WithTop.coe_pos.mpr hpos)⟩
      simp [hcount]

theorem slicesOf_toRun (h : entries ≠ []) (hproper : Proper entries) :
    slicesOf (toRunTokenUsageSummary entries) =
      (sortOn compare id (sourcesOf entries)).map fun source =>
        (source, (readSlice (toRunTokenUsageSummary entries).bySource source).getD
          (toRunTokenUsageSummary entries).counts) := by
  have hnonempty : sortOn compare id (sourcesOf entries) ≠ [] := by
    intro hnil
    obtain ⟨entry, hentry⟩ := List.exists_mem_of_ne_nil _ h
    have hin : entry.source ∈ sortOn compare id (sourcesOf entries) :=
      mem_sortOn.mpr (mem_sourcesOf.mpr ⟨entry, hentry, rfl⟩)
    rw [hnil] at hin
    cases hin
  unfold slicesOf
  dsimp only
  rw [sources_toRun h, if_neg hnonempty, List.filter_eq_self.mpr]
  intro source hsource
  obtain ⟨entry, hentry, rfl⟩ := mem_sourcesOf.mp (mem_sortOn.mp hsource)
  rw [hproper entry hentry]
  rfl

theorem sumOf_slicesOf (h : entries ≠ []) (hproper : Proper entries) (hs : s ≠ "__proto__") :
    sumOf s (slicesOf (toRunTokenUsageSummary entries)) =
      numbers (summarize (ofSource s entries)) := by
  rw [slicesOf_toRun h hproper, sumOf, List.map_map]
  refine (sum_at_key nodup_sorted _ s).trans ?_
  by_cases hin : s ∈ sourcesOf entries
  · rw [if_pos (mem_sortOn.mpr hin)]
    dsimp only
    rw [readSlice, get_bySource_toRun, if_pos ⟨hin, hs⟩]
    rfl
  · rw [if_neg fun h => hin (mem_sortOn.mp h), ofSource_eq_nil hin, summarize_nil, numbers_zero]

/-! ## Merged summaries -/

variable {parts left right : List (List LlmUsageEntry)}

def usableParts (parts : List (List LlmUsageEntry)) : List TokenUsageSummary :=
  (parts.map fun part => toRunTokenUsageSummary part).filter isUsable

theorem usableParts_cons (part : List LlmUsageEntry) : usableParts (part :: parts) =
    if part = [] then usableParts parts else toRunTokenUsageSummary part :: usableParts parts := by
  unfold usableParts
  rw [List.map_cons, List.filter_cons]
  by_cases h : part = []
  · rw [if_pos h, if_neg fun husable => isUsable_toRun.mp husable h]
  · rw [if_neg h, if_pos (isUsable_toRun.mpr h)]

theorem usableParts_eq_nil : usableParts parts = [] ↔ parts.flatten = [] := by
  induction parts with
  | nil => simp [usableParts]
  | cons part parts ih =>
      rw [usableParts_cons, List.flatten_cons, List.append_eq_nil_iff, ← ih]
      by_cases h : part = [] <;> simp [h]

theorem Proper.of_cons {part : List LlmUsageEntry} (h : Proper (part :: parts).flatten) :
    Proper part ∧ Proper parts.flatten :=
  ⟨fun entry hentry => h entry (List.mem_append_left _ hentry),
    fun entry hentry => h entry (List.mem_append_right _ hentry)⟩

theorem sumOf_usableParts (hproper : Proper parts.flatten) (hs : s ≠ "__proto__") :
    sumOf s ((usableParts parts).flatMap slicesOf) =
      numbers (summarize (ofSource s parts.flatten)) := by
  induction parts with
  | nil => simp [usableParts, sumOf, ofSource]
  | cons part parts ih =>
      obtain ⟨hpart, hrest⟩ := hproper.of_cons
      rw [usableParts_cons, List.flatten_cons, ofSource_append, summarize_append, numbers_add,
        ← ih hrest]
      split_ifs with hnil
      · rw [hnil, ofSource, List.filter_nil, summarize_nil, numbers_zero, zero_add]
      · rw [← sumOf_slicesOf hnil hpart hs, List.flatMap_cons]
        simp only [sumOf, List.map_append, List.sum_append]

theorem mem_usableParts (hproper : Proper parts.flatten) :
    s ∈ ((usableParts parts).flatMap slicesOf).map Prod.fst ↔ s ∈ sourcesOf parts.flatten := by
  induction parts with
  | nil => simp [usableParts, mem_sourcesOf]
  | cons part parts ih =>
      obtain ⟨hpart, hrest⟩ := hproper.of_cons
      have hsplit : s ∈ sourcesOf (part :: parts).flatten ↔
          s ∈ sourcesOf part ∨ s ∈ sourcesOf parts.flatten := by
        simp only [mem_sourcesOf, List.flatten_cons, List.mem_append, or_and_right, exists_or]
      rw [usableParts_cons, hsplit, ← ih hrest]
      by_cases hnil : part = []
      · simp [hnil, mem_sourcesOf]
      · rw [if_neg hnil, List.flatMap_cons, List.map_append, List.mem_append,
          slicesOf_toRun hnil hpart, List.map_map]
        have hkeys : s ∈ (sortOn compare id (sourcesOf part)).map id ↔ s ∈ sourcesOf part := by
          rw [List.map_id, mem_sortOn]
        exact or_congr_left hkeys

def mergedSources (parts : List (List LlmUsageEntry)) : Record String Counts :=
  ((usableParts parts).flatMap slicesOf).foldl addSlice []

theorem get_mergedSources (hproper : Proper parts.flatten) (hs : s ≠ "__proto__") :
    (mergedSources parts).get s = if s ∈ sourcesOf parts.flatten then
      some (startOf s + numbers (summarize (ofSource s parts.flatten))) else none := by
  have hempty : Record.Distinct ([] : Record String Counts) := List.nodup_nil
  rw [mergedSources, get_foldl_addSlice hempty hs, sumOf_usableParts hproper hs]
  simp only [mem_usableParts hproper]
  rfl

theorem get_mergedSources_proto : (mergedSources parts).get "__proto__" = none :=
  get_eq_none.mpr (proto_not_key (by simp))

theorem distinct_mergedSources : (mergedSources parts).Distinct :=
  List.foldlRecOn _ addSlice List.nodup_nil fun _ h slice _ => distinct_addSlice h slice

/-- None of the sources is the name of something every object inherits. -/
def Ordinary (entries : List LlmUsageEntry) : Prop :=
  ∀ entry ∈ entries, entry.source ∉ inheritedNames

theorem keys_mergedSources (hproper : Proper parts.flatten) (hordinary : Ordinary parts.flatten) :
    ((mergedSources parts).map Prod.fst).Perm (sourcesOf parts.flatten) := by
  refine (List.perm_ext_iff_of_nodup distinct_mergedSources nodup_sourcesOf).mpr fun s => ?_
  rw [← not_iff_not, ← get_eq_none]
  by_cases hs : s = "__proto__"
  · subst hs
    refine iff_of_true get_mergedSources_proto fun hin => ?_
    obtain ⟨entry, hentry, hsource⟩ := mem_sourcesOf.mp hin
    exact hordinary entry hentry (hsource ▸ List.mem_cons_self)
  · rw [get_mergedSources hproper hs]
    simp

/-- Alike in every count, in the sources and in what each of them has. -/
structure SameSummary (summary other : TokenUsageSummary) : Prop where
  counts : summary.counts = other.counts
  sources : summary.sources = other.sources
  source : summary.source = other.source
  bySource : ∀ s, summary.bySource.get s = other.bySource.get s

def mergedParts (parts : List (List LlmUsageEntry)) : TokenUsageSummary :=
  mergeTokenUsageSummaries (parts.map fun part => toRunTokenUsageSummary part)

theorem mergedParts_eq (h : parts.flatten ≠ []) :
    mergedParts parts = mergeUsable (usableParts parts) :=
  if_neg fun hnil => h (usableParts_eq_nil.mp hnil)

theorem sum_numbers (F : String → UsageField → ℚ) (field : UsageField) :
    (keys.map fun key => numbers (F key) field).sum = numbers (keys.map F).sum field := by
  induction keys with
  | nil => rfl
  | cons key keys ih =>
      rw [List.map_cons, List.sum_cons, ih, List.map_cons, List.sum_cons, numbers_add]
      rfl

theorem sum_mergedSources (hproper : Proper parts.flatten) (hordinary : Ordinary parts.flatten)
    (hkeys : keys.Perm (sourcesOf parts.flatten)) (field : UsageField) :
    (keys.map fun key => ((mergedSources parts).get key).elim 0 fun counts => counts field).sum =
      numbers (summarize parts.flatten) field := by
  have heach : ∀ key ∈ keys, (((mergedSources parts).get key).elim 0 fun counts => counts field) =
      numbers (summarize (ofSource key parts.flatten)) field := by
    intro key hkey
    have hin := hkeys.mem_iff.mp hkey
    obtain ⟨entry, hentry, rfl⟩ := mem_sourcesOf.mp hin
    have hname := hordinary entry hentry
    have hproto : entry.source ≠ "__proto__" := fun h => hname (h ▸ List.mem_cons_self)
    rw [get_mergedSources hproper hproto, if_pos hin, startOf, if_neg hname, zero_add]
    rfl
  rw [List.map_congr_left heach, sum_numbers, sum_summarize_ofSource
    (hkeys.nodup_iff.mpr nodup_sourcesOf) fun entry hentry =>
      hkeys.mem_iff.mpr (mem_sourcesOf.mpr ⟨entry, hentry, rfl⟩)]

theorem sum_callCount : ((usableParts parts).map fun part => part.counts .callCount).sum =
    numbers (summarize parts.flatten) .callCount := by
  induction parts with
  | nil => simp [usableParts]
  | cons part parts ih =>
      rw [usableParts_cons, List.flatten_cons, summarize_append, numbers_add, Pi.add_apply, ← ih]
      split_ifs with hnil
      · rw [hnil, summarize_nil, numbers_zero, Pi.zero_apply, zero_add]
      · rw [List.map_cons, List.sum_cons, counts_toRun]

theorem mergedCounts_eq {usable : List TokenUsageSummary} {bySource : Record String Counts}
    {sources : List String}
    (hsum : ∀ field, (sources.map fun key =>
      (bySource.get key).elim 0 fun counts => counts field).sum = numbers (summarize entries) field)
    (hcalls : (usable.map fun part => part.counts .callCount).sum =
      numbers (summarize entries) .callCount) :
    mergedCounts usable bySource sources = numbers (summarize entries) := by
  funext field
  unfold mergedCounts
  dsimp only
  cases field with
  | totalInputTokens =>
      simp only [hsum]
      simp only [numbers, summarize, WithTop.coe_add]
  | totalTokens =>
      simp only [hsum]
      simp only [numbers, summarize, WithTop.coe_add]
  | callCount => exact hcalls
  | _ => exact hsum _

theorem mergedParts_same (hproper : Proper parts.flatten) (hordinary : Ordinary parts.flatten) :
    SameSummary (mergedParts parts) (toRunTokenUsageSummary parts.flatten) := by
  by_cases hempty : parts.flatten = []
  · have hmerged : mergedParts parts = emptyTokenUsageSummary
        ((parts.map fun part => toRunTokenUsageSummary part).head?.bind (·.sessionId)) :=
      if_pos (usableParts_eq_nil.mpr hempty)
    rw [hmerged, hempty]
    exact ⟨rfl, rfl, rfl, fun s => rfl⟩
  rw [mergedParts_eq hempty]
  have hkeys := keys_mergedSources hproper hordinary
  have happart : Apart compare id ((mergedSources parts).map Prod.fst) :=
    fun a _ b _ h => Std.LawfulEqCmp.eq_of_compare h
  have hsources : sortOn compare id ((mergedSources parts).map Prod.fst) =
      (toRunTokenUsageSummary parts.flatten).sources := by
    rw [sources_toRun hempty, sortOn_congr happart hkeys]
  refine ⟨?_, hsources, ?_, fun s => ?_⟩
  · rw [counts_toRun]
    exact mergedCounts_eq (sum_mergedSources hproper hordinary (sortOn_perm.trans hkeys))
      sum_callCount
  · rw [toRunTokenUsageSummary, if_neg hempty, ← sources_toRun hempty, ← hsources]
    rfl
  · rw [get_bySource_toRun]
    by_cases hs : s = "__proto__"
    · rw [hs, if_neg fun h => h.2 rfl]
      exact get_mergedSources_proto
    · refine (get_mergedSources hproper hs).trans ?_
      by_cases hin : s ∈ sourcesOf parts.flatten
      · obtain ⟨entry, hentry, rfl⟩ := mem_sourcesOf.mp hin
        rw [if_pos hin, if_pos ⟨hin, hs⟩, startOf, if_neg (hordinary entry hentry), zero_add]
      · rw [if_neg hin, if_neg fun h => hin h.1]

/-- Others do not: `__proto__` is no key of the merged summary, and the rest count as `NaN`. -/
theorem ordinary_of_same (hproper : Proper parts.flatten)
    (hsame : SameSummary (mergedParts parts) (toRunTokenUsageSummary parts.flatten)) :
    Ordinary parts.flatten := by
  intro entry hentry hname
  have hempty : parts.flatten ≠ [] := List.ne_nil_of_mem hentry
  have hin := mem_sourcesOf.mpr ⟨entry, hentry, rfl⟩
  rw [mergedParts_eq hempty] at hsame
  by_cases hs : entry.source = "__proto__"
  · have hsource : entry.source ∈ sortOn compare id (sourcesOf parts.flatten) :=
      mem_sortOn.mpr hin
    rw [← sources_toRun hempty, ← hsame.sources, hs] at hsource
    exact get_eq_none.mp get_mergedSources_proto (mem_sortOn.mp hsource)
  · have hboth : (mergedSources parts).get entry.source = _ := hsame.bySource entry.source
    rw [get_mergedSources hproper hs, if_pos hin, get_bySource_toRun, if_pos ⟨hin, hs⟩, startOf,
      if_pos hname] at hboth
    have htop := congrFun (Option.some.inj hboth) .callCount
    simp [numbers] at htop

/-! ## Any way of splitting -/

theorem merge_congr {summaries others : List TokenUsageSummary}
    (h : List.Forall₂ SameSummary summaries others) :
    SameSummary (mergeTokenUsageSummaries summaries) (mergeTokenUsageSummaries others) := by
  have hparts : (summaries.filter isUsable).flatMap slicesOf =
        (others.filter isUsable).flatMap slicesOf ∧
      (summaries.filter isUsable).map (·.counts) = (others.filter isUsable).map (·.counts) := by
    induction h with
    | nil => exact ⟨rfl, rfl⟩
    | @cons a b _ _ hab _ ih =>
        have hslices : slicesOf a = slicesOf b := by
          simp only [slicesOf, readSlice, hab.sources, hab.source, hab.counts, hab.bySource]
        have husable : isUsable a = isUsable b := by simp only [isUsable, hab.counts]
        rw [List.filter_cons, List.filter_cons, husable]
        split_ifs
        · simp only [List.flatMap_cons, List.map_cons, hslices, hab.counts, ih.1, ih.2, and_self]
        · exact ih
  obtain ⟨hslices, hcounts⟩ := hparts
  have hnil : summaries.filter isUsable = [] ↔ others.filter isUsable = [] := by
    rw [← List.map_eq_nil_iff (f := (·.counts)), hcounts, List.map_eq_nil_iff]
  unfold mergeTokenUsageSummaries
  dsimp only
  by_cases hempty : summaries.filter isUsable = []
  · rw [if_pos hempty, if_pos (hnil.mp hempty)]
    exact ⟨rfl, rfl, rfl, fun s => rfl⟩
  · rw [if_neg hempty, if_neg fun h => hempty (hnil.mpr h)]
    have hcalls := congrArg (List.map fun counts : Counts => counts .callCount) hcounts
    rw [List.map_map, List.map_map] at hcalls
    unfold mergeUsable mergedCounts
    rw [hslices]
    refine ⟨?_, rfl, rfl, fun s => rfl⟩
    funext field
    cases field with
    | callCount => exact congrArg List.sum hcalls
    | _ => rfl

/-- The parts merge to the summary of the whole, also when they are merged in two steps. -/
structure AddsUp (parts : List (List LlmUsageEntry)) : Prop where
  once : SameSummary (mergedParts parts) (toRunTokenUsageSummary parts.flatten)
  nested : ∀ left right, parts = left ++ right →
    SameSummary (mergeTokenUsageSummaries [mergedParts left, mergedParts right])
      (toRunTokenUsageSummary parts.flatten)

def threeParts (source : String) : List (List LlmUsageEntry) :=
  [[{ inputTokens := 5, outputTokens := 2, source := "proxy" }], [],
    [{ inputTokens := 1, outputTokens := 1, source }]]

end Newide.Usage.Summaries
