import Newide.Hook.Loader

/-!
# Validated gates

What a gate is that `parseGateConfig` accepts, and that such a gate, read
back as an object, is accepted unchanged.
-/

namespace Newide.Hook

open Checked GateOutputConfig Yaml Record

/-! ## Objects with optional fields -/

variable {fields : Record String Yaml}

namespace Yaml

theorem entries_object (h : Record.Distinct fields) : (object fields).entries = fields :=
  Record.Distinct.ofEntries h

theorem entries_distinct (value : Yaml) : Record.Distinct value.entries := by
  cases value with
  | object fields => exact distinct_ofEntries fields
  | array items => exact distinct_ofEntries _
  | null | boolean b | number n | string s => exact Rows.Distinct.nil

theorem get_object (h : Record.Distinct fields) (key : String) :
    (object fields).get key = Record.get key fields := by
  rw [get, entries_object h]

end Yaml

section Fields

variable {α : Type} {key other : String} {embed : α → Yaml} {value : Option α}
  {rest : List (Record String Yaml)} {keys : List String}

theorem optionalField_sublist (h : (rest.flatten.map Prod.fst).Sublist keys) :
    ((optionalField key embed value :: rest).flatten.map Prod.fst).Sublist (key :: keys) := by
  cases value with
  | none => exact h.cons key
  | some a => exact h.cons_cons key

@[simp] theorem get_optionalField_append {rest : Record String Yaml} :
    Record.get other (optionalField key embed value ++ rest) =
      if key = other then (value.map embed).or (Record.get other rest)
      else Record.get other rest := by
  cases value with
  | none => simp [optionalField]
  | some a => simp [optionalField, get_cons]

@[simp] theorem get_optionalField : Record.get other (optionalField key embed value) =
    if key = other then value.map embed else none := by
  cases value with
  | none => simp [optionalField]
  | some a => simp [optionalField, get_cons]

theorem GateThreshold.keys_sublist (threshold : GateThreshold) :
    (threshold.fields.map Prod.fst).Sublist ["line", "branch"] :=
  optionalField_sublist <| optionalField_sublist <| List.Sublist.refl _

theorem GateOutputConfig.keys_sublist (output : GateOutputConfig) :
    (output.fields.map Prod.fst).Sublist knownOutputKeys :=
  optionalField_sublist <| optionalField_sublist <| optionalField_sublist <|
    optionalField_sublist <| optionalField_sublist <| List.Sublist.refl _

theorem SubGateRef.keys_sublist (ref : SubGateRef) :
    (ref.fields.map Prod.fst).Sublist ["gate_id", "required"] :=
  (optionalField_sublist <| List.Sublist.refl _).cons_cons _

theorem GateConfig.keys_sublist (gate : GateConfig) :
    (gate.fields.map Prod.fst).Sublist knownGateKeys :=
  (optionalField_sublist <| optionalField_sublist <| optionalField_sublist <|
    optionalField_sublist <| optionalField_sublist <| optionalField_sublist <|
    optionalField_sublist <| optionalField_sublist <| List.Sublist.refl _).cons_cons _

theorem HookBindingEntry.keys_sublist (entry : HookBindingEntry) :
    (entry.fields.map Prod.fst).Sublist knownBindingKeys :=
  (optionalField_sublist <| optionalField_sublist <| optionalField_sublist <|
    optionalField_sublist <| optionalField_sublist <| List.Sublist.refl _).cons_cons _

theorem get_fields (h : (fields.map Prod.fst).Sublist keys)
    (hkeys : keys.Nodup) (key : String) : (object fields).get key = Record.get key fields :=
  get_object (h.nodup hkeys) key

theorem GateThreshold.get_toYaml (threshold : GateThreshold) (key : String) :
    threshold.toYaml.get key = Record.get key threshold.fields :=
  get_fields threshold.keys_sublist (by decide) key

theorem GateOutputConfig.get_toYaml (output : GateOutputConfig) (key : String) :
    output.toYaml.get key = Record.get key output.fields :=
  get_fields output.keys_sublist (by decide) key

theorem SubGateRef.get_toYaml (ref : SubGateRef) (key : String) :
    ref.toYaml.get key = Record.get key ref.fields :=
  get_fields ref.keys_sublist (by decide) key

theorem GateConfig.get_toYaml (gate : GateConfig) (key : String) :
    gate.toYaml.get key = Record.get key gate.fields :=
  get_fields gate.keys_sublist (by decide) key

theorem HookBindingEntry.get_toYaml (entry : HookBindingEntry) (key : String) :
    entry.toYaml.get key = Record.get key entry.fields :=
  get_fields entry.keys_sublist (by decide) key

theorem keys_fields (h : (fields.map Prod.fst).Sublist keys)
    (hkeys : keys.Nodup) : ∀ key ∈ (object fields).entries.map Prod.fst, key ∈ keys := by
  rw [entries_object (h.nodup hkeys)]
  exact fun key hkey => h.subset hkey

end Fields

/-! ## Parts of a gate -/

variable {obj : Yaml}

theorem passes_reportUnknownKeys {knownKeys : List String} {u : PUnit} :
    (reportUnknownKeys obj knownKeys).Passes u ↔
      ∀ key ∈ obj.entries.map Prod.fst, key ∈ knownKeys := by
  unfold reportUnknownKeys
  simp [List.filter_eq_nil_iff]

@[simp] theorem passes_locate {α : Type} {loc : String} {x : Report α} {a : α} :
    (locate loc x).Passes a ↔ x.Passes a :=
  passes_mapErrors

theorem find_decision (decision : GateDecision) :
    validDecisions.find? (·.text = decision.text) = some decision := by
  cases decision <;> decide

theorem find_format (format : GateOutputFormat) :
    validGateOutputFormats.find? (·.name = format.name) = some format := by
  cases format <;> decide

theorem find_gateType (type : GateType) :
    validGateTypes.find? (·.text = type.text) = some type := by
  cases type <;> decide

theorem optionalString_of_get {key : String} {value : Option String}
    (h : obj.get key = value.map .string) : optionalString obj key = value := by
  unfold optionalString
  rw [h]
  cases value <;> rfl

theorem parseDecision_embedded {key : String} {decision : Option GateDecision}
    (h : obj.get key = decision.map GateDecision.toYaml) :
    (parseDecision obj key).Passes decision := by
  have hstring : optionalString obj key = decision.map GateDecision.text := by
    refine optionalString_of_get ?_
    rw [h, Option.map_map]
    rfl
  unfold parseDecision
  rw [hstring]
  cases decision with
  | none => exact passes_pure.mpr rfl
  | some decision =>
      simp only [Option.map_some]
      rw [find_decision]
      exact passes_pure.mpr rfl

variable {out : Yaml}

theorem parseFormat_embedded {format : Option GateOutputFormat}
    (h : out.get "format" = format.map GateOutputFormat.toYaml) :
    (parseFormat out).Passes format := by
  have hstring : optionalString out "format" = format.map GateOutputFormat.name := by
    refine optionalString_of_get ?_
    rw [h, Option.map_map]
    rfl
  unfold parseFormat
  rw [hstring]
  cases format with
  | none => exact passes_pure.mpr rfl
  | some format =>
      simp only [Option.map_some]
      rw [find_format]
      exact passes_pure.mpr rfl

variable {n : Option YamlNumber}

variable {bound : YamlNumber → Prop} {expected : String} {t : Yaml}
  {threshold : Option GateThreshold} {severityMap : Option (Record String GateDecision)}
  {output : Option GateOutputConfig} {ref : SubGateRef} {refs : Option (List SubGateRef)}
  {gate : GateConfig} {raw : Option Yaml}

theorem parseBounded_passes {key : String} [DecidablePred bound]
    (h : (parseBounded obj key expected bound).Passes n) :
    (∀ m ∈ n, bound m) ∧ (n.isSome → obj.get key ≠ none) := by
  unfold parseBounded at h
  split at h
  next m hm =>
    split at h
    next hbound =>
      obtain rfl := passes_pure.mp h
      simpa [hm] using hbound
    next => exact absurd h not_passes_report
  next =>
    obtain rfl := passes_pure.mp h
    simp

theorem parseBounded_embedded {key : String} [DecidablePred bound] (h : obj.get key = n.map .number)
    (hbound : ∀ m ∈ n, bound m) :
    (parseBounded obj key expected bound).Passes n := by
  unfold parseBounded
  rw [h]
  cases n with
  | none => exact passes_pure.mpr rfl
  | some m =>
      have hm : bound m := hbound m rfl
      simp [hm]

/-! ### Thresholds -/

/-- A percentage that was accepted. -/
def Percentage (n : YamlNumber) : Prop := n.AtLeast 0 ∧ n.AtMost 100

structure GateThreshold.Valid (threshold : GateThreshold) : Prop where
  line : ∀ n ∈ threshold.line, Percentage n
  branch : ∀ n ∈ threshold.branch, Percentage n
  nonempty : ¬ (threshold.line = none ∧ threshold.branch = none)

theorem parsePercentage_passes {key : String} (h : (parsePercentage t key).Passes n) :
    ∀ m ∈ n, Percentage m := by
  unfold parsePercentage at h
  split at h
  next =>
    obtain rfl := passes_pure.mp h
    simp
  next m _ =>
    split at h
    next hbounds =>
      obtain rfl := passes_pure.mp h
      rintro _ ⟨⟩
      exact hbounds
    next => exact absurd h not_passes_report
  next => exact absurd h not_passes_report

theorem parsePercentage_embedded {key : String} (h : t.get key = n.map .number)
    (hvalid : ∀ m ∈ n, Percentage m) :
    (parsePercentage t key).Passes n := by
  unfold parsePercentage
  rw [h]
  cases n with
  | none => exact passes_pure.mpr rfl
  | some m =>
      have hm : m.AtLeast 0 ∧ m.AtMost 100 := hvalid m rfl
      simp [hm]

theorem parseThreshold_passes (h : (parseThreshold out).Passes threshold) :
    ∀ t ∈ threshold, t.Valid := by
  have hkeys (t : Yaml) (h : (parseThresholdKeys t).Passes threshold) :
      ∀ t ∈ threshold, t.Valid := by
    unfold parseThresholdKeys at h
    obtain ⟨line, hline, h⟩ := passes_bind.mp h
    obtain ⟨branch, hbranch, h⟩ := passes_bind.mp h
    obtain rfl := passes_pure.mp h
    intro t ht
    split at ht
    next => cases ht
    next hnonempty =>
      cases ht
      exact ⟨parsePercentage_passes hline, parsePercentage_passes hbranch, hnonempty⟩
  unfold parseThreshold at h
  split at h
  next =>
    obtain rfl := passes_pure.mp h
    simp
  next => exact hkeys _ h
  next => exact hkeys _ h
  next => exact absurd h not_passes_report

theorem parseThreshold_embedded (h : out.get "threshold" = threshold.map GateThreshold.toYaml)
    (hvalid : ∀ t ∈ threshold, t.Valid) : (parseThreshold out).Passes threshold := by
  unfold parseThreshold
  rw [h]
  cases threshold with
  | none => exact passes_pure.mpr rfl
  | some t =>
      have ht : t.Valid := hvalid t rfl
      change (parseThresholdKeys t.toYaml).Passes (some t)
      have hline : t.toYaml.get "line" = t.line.map .number := by
        simp [t.get_toYaml, GateThreshold.fields]
      have hbranch : t.toYaml.get "branch" = t.branch.map .number := by
        simp [t.get_toYaml, GateThreshold.fields]
      unfold parseThresholdKeys
      refine passes_bind.mpr ⟨_, parsePercentage_embedded hline ht.line, ?_⟩
      refine passes_bind.mpr ⟨_, parsePercentage_embedded hbranch ht.branch, ?_⟩
      rw [if_neg ht.nonempty]
      exact passes_pure.mpr rfl

/-! ### Severity maps -/

structure ValidSeverityMap (severityMap : Record String GateDecision) : Prop where
  distinct : Record.Distinct severityMap
  nonempty : severityMap ≠ []

theorem parseSeverity_passes {entry : String × Yaml}
    {out : List (String × GateDecision)} (h : (parseSeverity entry).Passes out) :
    ∃ decision, out = [(entry.1, decision)] := by
  unfold parseSeverity at h
  split at h
  next =>
    split at h
    next decision _ => exact ⟨decision, (passes_pure.mp h).symm⟩
    next => exact absurd h not_passes_report
  next => exact absurd h not_passes_report

theorem parseSeverity_embedded (key : String) (decision : GateDecision) :
    (parseSeverity (key, decision.toYaml)).Passes [(key, decision)] := by
  unfold parseSeverity
  simp only [GateDecision.toYaml]
  rw [find_decision]
  exact passes_pure.mpr rfl

theorem names_flatten {α β : Type} {names : α → String} {names' : β → String} {as : List α}
    {parsed : List (List β)} (h : List.Forall₂ (fun a out => ∃ b, out = [b] ∧ names' b = names a)
      as parsed) : parsed.flatten.map names' = as.map names := by
  induction h with
  | nil => rfl
  | cons hentry _ ih =>
      obtain ⟨b, rfl, hname⟩ := hentry
      simp [ih, hname]

theorem parseSeverityMap_passes (h : (parseSeverityMap out).Passes severityMap) :
    ∀ m ∈ severityMap, ValidSeverityMap m := by
  have hentries (value : Yaml) (h : (parseSeverityEntries value).Passes severityMap) :
      ∀ m ∈ severityMap, ValidSeverityMap m := by
    unfold parseSeverityEntries at h
    obtain ⟨parsed, hparsed, h⟩ := passes_bind.mp h
    obtain rfl := passes_pure.mp h
    intro m hm
    split at hm
    next => cases hm
    next hnonempty =>
      cases hm
      refine ⟨?_, hnonempty⟩
      have hkeys : parsed.flatten.map Prod.fst = value.entries.map Prod.fst :=
        names_flatten ((passes_mapM.mp hparsed).imp fun _ _ hpasses => by
          obtain ⟨_, rfl⟩ := parseSeverity_passes hpasses
          exact ⟨_, rfl, rfl⟩)
      unfold Record.Distinct Rows.Distinct
      rw [hkeys]
      exact value.entries_distinct
  unfold parseSeverityMap at h
  split at h
  next =>
    obtain rfl := passes_pure.mp h
    simp
  next => exact hentries _ h
  next => exact hentries _ h
  next => exact absurd h not_passes_report

theorem parseSeverityMap_embedded (h : out.get "severity_map" = severityMap.map severityMapYaml)
    (hvalid : ∀ m ∈ severityMap, ValidSeverityMap m) :
    (parseSeverityMap out).Passes severityMap := by
  unfold parseSeverityMap
  rw [h]
  cases severityMap with
  | none => exact passes_pure.mpr rfl
  | some m =>
      have hm : ValidSeverityMap m := hvalid m rfl
      change (parseSeverityEntries (severityMapYaml m)).Passes (some m)
      have hparsed : ((severityMapYaml m).entries.mapM parseSeverity).Passes
          (m.map fun entry => [entry]) := by
        rw [severityMapYaml, entries_object (hm.distinct.mapValues _), passes_mapM,
          mapValues, List.forall₂_map_left_iff, List.forall₂_map_right_iff,
          List.forall₂_same]
        exact fun entry _ => parseSeverity_embedded entry.1 entry.2
      have hflatten : (m.map fun entry => [entry]).flatten = m := by
        rw [← List.flatMap_def]
        exact List.flatMap_pure_eq_map id m |>.trans (List.map_id m)
      unfold parseSeverityEntries
      refine passes_bind.mpr ⟨_, hparsed, ?_⟩
      rw [hflatten, if_neg hm.nonempty]
      exact passes_pure.mpr rfl

/-! ### Output configurations -/

structure GateOutputConfig.Valid (output : GateOutputConfig) : Prop where
  severityMap : ∀ m ∈ output.severityMap, ValidSeverityMap m
  threshold : ∀ t ∈ output.threshold, t.Valid
  nonempty : output ≠ {}

variable {g : Yaml}

theorem parseOutput_passes (h : (parseOutput g).Passes output) :
    (∀ o ∈ output, o.Valid) ∧ (output.isSome → g.get "output" ≠ none) := by
  have hkeys (out : Yaml) (h : (parseOutputKeys out).Passes output) :
      ∀ o ∈ output, o.Valid := by
    unfold parseOutputKeys at h
    simp only [passes_bind] at h
    obtain ⟨_, _, _, hseverity, _, hthreshold, _, _, _, _, _, _, h⟩ := h
    obtain rfl := passes_pure.mp h
    intro o ho
    split at ho
    next => cases ho
    next hnonempty =>
      cases ho
      exact ⟨parseSeverityMap_passes hseverity, parseThreshold_passes hthreshold, hnonempty⟩
  unfold parseOutput at h
  split at h
  next hout => exact ⟨hkeys _ (passes_locate.mp h), fun _ => by simp [hout]⟩
  next hout => exact ⟨hkeys _ (passes_locate.mp h), fun _ => by simp [hout]⟩
  next =>
    obtain rfl := passes_pure.mp h
    simp

theorem parseOutput_embedded (h : g.get "output" = output.map toYaml)
    (hvalid : ∀ o ∈ output, o.Valid) : (parseOutput g).Passes output := by
  unfold parseOutput
  rw [h]
  cases output with
  | none => exact passes_pure.mpr rfl
  | some o =>
      have ho : o.Valid := hvalid o rfl
      change (locate ".output" (parseOutputKeys o.toYaml)).Passes (some o)
      rw [passes_locate]
      have hformat : o.toYaml.get "format" = o.format.map GateOutputFormat.toYaml := by
        simp [o.get_toYaml, fields]
      have hseverity : o.toYaml.get "severity_map" = o.severityMap.map severityMapYaml := by
        simp [o.get_toYaml, fields]
      have hthreshold : o.toYaml.get "threshold" = o.threshold.map GateThreshold.toYaml := by
        simp [o.get_toYaml, fields]
      have hfail : o.toYaml.get "on_fail" = o.onFail.map GateDecision.toYaml := by
        simp [o.get_toYaml, fields]
      have hbelow : o.toYaml.get "on_below_threshold" =
          o.onBelowThreshold.map GateDecision.toYaml := by
        simp [o.get_toYaml, fields]
      have hknown := keys_fields o.keys_sublist (by decide)
      unfold parseOutputKeys
      refine passes_bind.mpr ⟨_, parseFormat_embedded hformat, ?_⟩
      refine passes_bind.mpr ⟨_, parseSeverityMap_embedded hseverity ho.severityMap, ?_⟩
      refine passes_bind.mpr ⟨_, parseThreshold_embedded hthreshold ho.threshold, ?_⟩
      refine passes_bind.mpr ⟨_, passes_locate.mpr (parseDecision_embedded hfail), ?_⟩
      refine passes_bind.mpr ⟨_, passes_locate.mpr (parseDecision_embedded hbelow), ?_⟩
      refine passes_bind.mpr ⟨⟨⟩, passes_reportUnknownKeys.mpr hknown, ?_⟩
      exact passes_pure.mpr (if_neg ho.nonempty)

/-! ### Sub-gates -/

/-- The references of a composite gate that were accepted. -/
def ValidSubGates (refs : List SubGateRef) : Prop := refs ≠ [] ∧ ∀ ref ∈ refs, ref.gateId ≠ ""

theorem parseSubGateObject_passes (h : (parseSubGateObject obj).Passes ref) : ref.gateId ≠ "" := by
  unfold parseSubGateObject at h
  simp only [passes_bind, passes_require, passes_pure] at h
  obtain ⟨_, hgate, _, _, rfl⟩ := h
  cases hid : (optionalString obj "gate").or (optionalString obj "gate_id") with
  | none => simp [hid] at hgate
  | some s => simpa [hid] using hgate

theorem parseSubGate_passes {item : Yaml} (h : (parseSubGate item).Passes ref) :
    ref.gateId ≠ "" := by
  cases item with
  | string s =>
      unfold parseSubGate at h
      simp only [passes_bind, passes_require, passes_pure] at h
      obtain ⟨_, hne, rfl⟩ := h
      exact hne
  | object fields => exact parseSubGateObject_passes h
  | array items => exact parseSubGateObject_passes h
  | null | boolean b | number n => exact absurd h not_passes_report

theorem parseSubGate_embedded (hvalid : ref.gateId ≠ "") :
    (parseSubGate ref.toYaml).Passes ref := by
  change (parseSubGateObject ref.toYaml).Passes ref
  have hgate : optionalString ref.toYaml "gate" = none := by
    refine optionalString_of_get ?_
    simp [ref.get_toYaml, SubGateRef.fields, get_cons]
  have hid : optionalString ref.toYaml "gate_id" = some ref.gateId := by
    refine optionalString_of_get ?_
    simp [ref.get_toYaml, SubGateRef.fields, get_cons]
  have hrequired : ref.toYaml.get "required" = ref.required.map .boolean := by
    simp [ref.get_toYaml, SubGateRef.fields, get_cons]
  have hknown : ∀ key ∈ ref.toYaml.entries.map Prod.fst, key ∈ knownSubGateKeys := fun key hkey =>
    List.mem_cons_of_mem _ (keys_fields ref.keys_sublist (by decide) key hkey)
  unfold parseSubGateObject
  rw [hgate, hid, hrequired]
  refine passes_bind.mpr ⟨⟨⟩, passes_require.mpr (by simpa using hvalid), ?_⟩
  refine passes_bind.mpr ⟨⟨⟩, passes_reportUnknownKeys.mpr hknown, ?_⟩
  refine passes_pure.mpr ?_
  obtain ⟨gateId, required⟩ := ref
  cases required <;> rfl

theorem parseSubGateRefs_passes {items : List Yaml} {refs : List SubGateRef} :
    (items.zipIdx.mapM fun item => parseSubGateRef item.2 item.1).Passes refs ↔
      (items.mapM parseSubGate).Passes refs :=
  passes_zipIdx fun _ _ _ => passes_locate

theorem parseSubGates_passes (h : (parseSubGates g).Passes refs) :
    (∀ r ∈ refs, ValidSubGates r) ∧ (refs.isSome → g.get "gates" ≠ none) := by
  unfold parseSubGates at h
  split at h
  next items hitems =>
    obtain ⟨parsed, hparsed, h⟩ := passes_bind.mp h
    obtain rfl := passes_pure.mp h
    refine ⟨fun r hr => ?_, fun _ => by simp [hitems]⟩
    split at hr
    next => cases hr
    next hnonempty =>
      cases hr
      refine ⟨hnonempty, fun ref href => ?_⟩
      obtain ⟨_, _, hpasses⟩ := (parseSubGateRefs_passes.mp hparsed).of_mem_mapM href
      exact parseSubGate_passes hpasses
  next =>
    obtain rfl := passes_pure.mp h
    simp

theorem parseSubGates_embedded (h : g.get "gates" = refs.map subGatesYaml)
    (hvalid : ∀ r ∈ refs, ValidSubGates r) :
    (parseSubGates g).Passes refs := by
  unfold parseSubGates
  rw [h]
  cases refs with
  | none => exact passes_pure.mpr rfl
  | some refs =>
      obtain ⟨hnonempty, hrefs⟩ := hvalid refs rfl
      have hparsed : ((refs.map SubGateRef.toYaml).mapM parseSubGate).Passes refs := by
        rw [passes_mapM, List.forall₂_map_left_iff, List.forall₂_same]
        exact fun ref href => parseSubGate_embedded (hrefs ref href)
      refine passes_bind.mpr ⟨refs, parseSubGateRefs_passes.mpr hparsed, ?_⟩
      rw [if_neg hnonempty]
      exact passes_pure.mpr rfl

/-! ## Gates -/

structure GateConfig.Valid (gate : GateConfig) : Prop where
  gates : ∀ refs ∈ gate.gates, ValidSubGates refs
  output : ∀ output ∈ gate.output, output.Valid
  timeout : ∀ n ∈ gate.timeout, n.Above 0
  retryThreshold : ∀ n ∈ gate.retryThreshold, n.AtLeast 0
  allowed : ∀ key ∈ gate.fields.map Prod.fst, key ∈ allowedFields gate.type
  required : (requiredField gate).Passes ⟨⟩

theorem parseGateType_passes {type : Option GateType} (h : (parseGateType g).Passes type) :
    ∃ t, type = some t ∧ g.get "type" ≠ none := by
  unfold parseGateType at h
  split at h
  next t ht =>
    obtain ⟨s, hs, _⟩ := Option.bind_eq_some_iff.mp ht
    refine ⟨t, (passes_pure.mp h).symm, fun hnone => ?_⟩
    simp [optionalString, hnone] at hs
  next => exact absurd h not_passes_report

theorem optionalString_isSome {key : String}
    (h : (optionalString obj key).isSome = true) : obj.get key ≠ none := by
  intro hnone
  simp [optionalString, hnone] at h

theorem mem_keys_of_get {key : String} (h : obj.get key ≠ none) :
    key ∈ obj.entries.map Prod.fst := by
  by_contra hnot
  exact h (get_eq_none.mpr hnot)

theorem mem_keys_optionalField {α : Type} {key other : String} {embed : α → Yaml}
    {value : Option α} : other ∈ (optionalField key embed value).map Prod.fst ↔
      other = key ∧ value.isSome = true := by
  cases value <;> simp [optionalField]

theorem parseGateFields_passes (h : (parseGateFields g).Passes gate) : gate.Valid := by
  unfold parseGateFields at h
  simp only [passes_bind] at h
  obtain ⟨_, htype, refs, hrefs, output, houtput, timeout, htimeout, retry, hretry, _, _, _,
    hcross, h⟩ := h
  obtain ⟨type, rfl, hset⟩ := parseGateType_passes htype
  obtain rfl := passes_pure.mp h
  simp only [Option.isSome_some, if_true, crossFields, fieldsFitType, passes_bind,
    passes_reportAll] at hcross
  obtain ⟨_, hallowed, hrequired⟩ := hcross
  have hkeys (key : String) (hkey : g.get key ≠ none) : key ∈ allowedFields type := by
    obtain ⟨entry, hentry, rfl⟩ := List.mem_map.mp (mem_keys_of_get hkey)
    simp only [List.map_eq_nil_iff, List.filter_eq_nil_iff] at hallowed
    simpa using hallowed entry hentry
  obtain ⟨hrefs, hrefsSet⟩ := parseSubGates_passes hrefs
  obtain ⟨houtput, houtputSet⟩ := parseOutput_passes houtput
  obtain ⟨htimeout, htimeoutSet⟩ := parseBounded_passes htimeout
  obtain ⟨hretry, hretrySet⟩ := parseBounded_passes hretry
  refine ⟨hrefs, houtput, htimeout, hretry, fun key hkey => hkeys key ?_, hrequired⟩
  simp only [GateConfig.fields, List.map_cons, List.flatten_cons, List.flatten_nil, List.map_append,
    List.mem_cons, List.mem_append, mem_keys_optionalField, List.append_nil] at hkey
  rcases hkey with rfl | ⟨rfl, hsome⟩ | ⟨rfl, hsome⟩ | ⟨rfl, hsome⟩ | ⟨rfl, hsome⟩ |
    ⟨rfl, hsome⟩ | ⟨rfl, hsome⟩ | ⟨rfl, hsome⟩ | ⟨rfl, hsome⟩
  · exact hset
  · exact optionalString_isSome hsome
  · exact optionalString_isSome hsome
  · exact optionalString_isSome hsome
  · exact optionalString_isSome hsome
  · exact hrefsSet hsome
  · exact houtputSet hsome
  · exact htimeoutSet hsome
  · exact hretrySet hsome

theorem parseGateConfig_passes {raw : Yaml} (h : (parseGateConfig name raw).Passes gate) :
    gate.Valid := by
  unfold parseGateConfig at h
  rw [passes_locate] at h
  cases raw with
  | object fields => exact parseGateFields_passes h
  | array items => exact parseGateFields_passes h
  | null | boolean b | number n | string s => exact absurd h not_passes_report

theorem parseGateConfig_embedded (name : String) (hvalid : gate.Valid) :
    (parseGateConfig name gate.toYaml).Passes gate := by
  unfold parseGateConfig
  rw [passes_locate]
  change (parseGateFields gate.toYaml).Passes gate
  have htype : (parseGateType gate.toYaml).Passes (some gate.type) := by
    have hstring : optionalString gate.toYaml "type" = some gate.type.text := by
      refine optionalString_of_get ?_
      simp [gate.get_toYaml, GateConfig.fields, get_cons]
    unfold parseGateType
    rw [hstring, Option.bind_some, find_gateType]
    exact passes_pure.mpr rfl
  have hcommand : optionalString gate.toYaml "command" = gate.command :=
    optionalString_of_get (by simp [gate.get_toYaml, GateConfig.fields, get_cons])
  have hprompt : optionalString gate.toYaml "prompt" = gate.prompt :=
    optionalString_of_get (by simp [gate.get_toYaml, GateConfig.fields, get_cons])
  have hmodel : optionalString gate.toYaml "model" = gate.model :=
    optionalString_of_get (by simp [gate.get_toYaml, GateConfig.fields, get_cons])
  have hhttp : optionalString gate.toYaml "http" = gate.http :=
    optionalString_of_get (by simp [gate.get_toYaml, GateConfig.fields, get_cons])
  have hgates : gate.toYaml.get "gates" = gate.gates.map subGatesYaml := by
    simp [gate.get_toYaml, GateConfig.fields, get_cons]
  have houtput : gate.toYaml.get "output" = gate.output.map toYaml := by
    simp [gate.get_toYaml, GateConfig.fields, get_cons]
  have htimeout : gate.toYaml.get "timeout" = gate.timeout.map .number := by
    simp [gate.get_toYaml, GateConfig.fields, get_cons]
  have hretry : gate.toYaml.get "retry_threshold" = gate.retryThreshold.map .number := by
    simp [gate.get_toYaml, GateConfig.fields, get_cons]
  have hentries : gate.toYaml.entries = gate.fields :=
    entries_object (gate.keys_sublist.nodup (by decide))
  unfold parseGateFields
  rw [hcommand, hprompt, hmodel, hhttp]
  refine passes_bind.mpr ⟨_, htype, ?_⟩
  refine passes_bind.mpr ⟨_, parseSubGates_embedded hgates hvalid.gates, ?_⟩
  refine passes_bind.mpr ⟨_, parseOutput_embedded houtput hvalid.output, ?_⟩
  refine passes_bind.mpr ⟨_, parseBounded_embedded htimeout hvalid.timeout, ?_⟩
  refine passes_bind.mpr ⟨_, parseBounded_embedded hretry hvalid.retryThreshold, ?_⟩
  refine passes_bind.mpr ⟨⟨⟩, passes_reportUnknownKeys.mpr
    (keys_fields gate.keys_sublist (by decide)), ?_⟩
  have hcross : (fieldsFitType gate.toYaml gate).Passes ⟨⟩ := by
    refine passes_bind.mpr ⟨⟨⟩, passes_reportAll.mpr ?_, hvalid.required⟩
    rw [hentries, List.map_eq_nil_iff, List.filter_eq_nil_iff]
    intro entry hentry
    simpa using hvalid.allowed entry.1 (List.mem_map_of_mem hentry)
  exact passes_bind.mpr ⟨⟨⟩, hcross, passes_pure.mpr rfl⟩

structure ValidGates (gates : Record String GateConfig) : Prop where
  distinct : Record.Distinct gates
  valid : ∀ entry ∈ gates, entry.2.Valid

/-- A section that is absent, `null`, an object or an array. -/
def Sectioned (raw : Option Yaml) : Prop := raw = none ∨ typeOf raw = "object"

/-- The entries of a section, none of an absent one. -/
def sectionEntries (raw : Option Yaml) : Record String Yaml := (raw.getD .null).entries

theorem sectionEntries_distinct (raw : Option Yaml) : Record.Distinct (sectionEntries raw) :=
  (raw.getD .null).entries_distinct

def gateOf (name : String) (raw : Yaml) : GateConfig := (parseGateConfig name raw).value

variable {gates : Record String GateConfig}

theorem parseGates_iff : (parseGates raw).Passes gates ↔ Sectioned raw ∧
      (∀ entry ∈ sectionEntries raw, (parseGateConfig entry.1 entry.2).errors = []) ∧
      mapValues gateOf (sectionEntries raw) = gates := by
  have hentries (value : Yaml) : Checked.Passes (ε := String)
      (value.entries.mapM fun entry => do
        let gate ← parseGateConfig entry.1 entry.2
        return (entry.1, gate)) gates ↔
        (∀ entry ∈ value.entries, (parseGateConfig entry.1 entry.2).errors = []) ∧
          mapValues gateOf value.entries = gates := by
    rw [passes_mapM_iff]
    refine and_congr (forall₂_congr fun entry _ => ?_) Iff.rfl
    change (parseGateConfig entry.1 entry.2).errors ++ [] = [] ↔ _
    rw [List.append_nil]
  unfold parseGates
  split
  next =>
    simp [Sectioned, sectionEntries, entries]
  next =>
    simp [Sectioned, sectionEntries, entries, typeOf]
  next value _ =>
    split
    next htype =>
      rw [hentries]
      simp [Sectioned, sectionEntries, htype]
    next htype => simp [Sectioned, htype]

theorem parseGates_passes (h : (parseGates raw).Passes gates) : ValidGates gates := by
  obtain ⟨_, hclean, rfl⟩ := parseGates_iff.mp h
  refine ⟨(sectionEntries_distinct raw).mapValues _, fun entry hentry => ?_⟩
  obtain ⟨source, hsource, rfl⟩ := List.mem_map.mp hentry
  exact parseGateConfig_passes (passes_iff.mpr ⟨hclean source hsource, rfl⟩)

theorem parseGates_embedded (hvalid : ValidGates gates) :
    (parseGates (some (gatesYaml gates))).Passes gates := by
  change Checked.Passes (ε := String) ((gatesYaml gates).entries.mapM _) gates
  rw [gatesYaml, entries_object (hvalid.distinct.mapValues _), passes_mapM, mapValues,
    List.forall₂_map_left_iff, List.forall₂_same]
  intro entry hentry
  exact passes_bind.mpr ⟨_, parseGateConfig_embedded entry.1 (hvalid.valid entry hentry),
    passes_pure.mpr rfl⟩

end Newide.Hook
