import Newide.Hook.GateChecks

/-!
# Validating a configuration again

What a configuration is that `validateHookConfig` returns, and that it
passes its own validation unchanged.  Every merge validates its result,
so this is what makes a merge of validated configurations succeed.
-/

namespace Newide.Hook

open Checked Record HookBindingEntry Yaml

variable {syntaxOf : ConditionSyntax}

/-! ## Bindings -/

/-- A binding that was accepted, in a configuration with these gates. -/
structure HookBindingEntry.Valid (syntaxOf : ConditionSyntax) (gates : Record String GateConfig)
    (entry : HookBindingEntry) : Prop where
  named : entry.gate ≠ ""
  defined : IsIn entry.gate gates
  priority : ∀ n ∈ entry.priority, clampPriority n = n
  condition : ∀ s ∈ entry.condition, syntaxOf s = none ∨ syntaxOf s = some ""
  timeout : ∀ n ∈ entry.timeout, n.Above 0

theorem clampPriority_idem (n : YamlNumber) : clampPriority (clampPriority n) = clampPriority n := by
  have hone : clampPriority (.ofNat 1) = .ofNat 1 := by decide
  have htop : clampPriority (.ofNat 999) = .ofNat 999 := by decide
  by_cases hbelow : n.Below 1
  · have hclamp : clampPriority n = .ofNat 1 := by
      rw [clampPriority, if_pos hbelow]
    rw [hclamp, hone]
  · by_cases habove : n.Above 999
    · have hclamp : clampPriority n = .ofNat 999 := by
        rw [clampPriority, if_neg hbelow, if_pos habove]
      rw [hclamp, htop]
    · have hclamp : clampPriority n = n := by
        rw [clampPriority, if_neg hbelow, if_neg habove]
      rw [hclamp, hclamp]

variable {gates : Record String GateConfig}

theorem checkGateRef_passes {gateRef : Option String}
    {u : PUnit} : (checkGateRef gateRef gates).Passes u ↔
      ∃ name, gateRef = some name ∧ name ≠ "" ∧ IsIn name gates := by
  cases gateRef with
  | none => simp [checkGateRef]
  | some name =>
      by_cases hname : name = ""
      · simp [checkGateRef, hname]
      · simp [checkGateRef, hname]

variable {b s value : Yaml} {n : Option YamlNumber} {name sourcePath : String}
  {override : HookConfig}

theorem parsePriority_passes (h : (parsePriority b).Passes n) : ∀ m ∈ n, clampPriority m = m := by
  unfold parsePriority at h
  split at h
  next =>
    obtain rfl := passes_pure.mp h
    simp
  next m _ =>
    obtain rfl := passes_pure.mp h
    rintro _ ⟨⟩
    exact clampPriority_idem m
  next => exact absurd h not_passes_report

theorem parseCondition_passes {condition : Option String}
    (h : (parseCondition syntaxOf b).Passes condition) :
    ∀ s ∈ condition, syntaxOf s = none ∨ syntaxOf s = some "" := by
  unfold parseCondition at h
  split at h
  next =>
    obtain rfl := passes_pure.mp h
    simp
  next s _ =>
    split at h
    next hnone =>
      obtain rfl := passes_pure.mp h
      rintro _ ⟨⟩
      exact .inl hnone
    next hempty =>
      obtain rfl := passes_pure.mp h
      rintro _ ⟨⟩
      exact .inr hempty
    next => exact absurd h not_passes_report
  next => exact absurd h not_passes_report

theorem parseBindingTimeout_passes (h : (parseBindingTimeout b).Passes n) : ∀ m ∈ n, m.Above 0 := by
  unfold parseBindingTimeout at h
  split at h
  next =>
    obtain rfl := passes_pure.mp h
    simp
  next m _ =>
    split at h
    next hbound =>
      obtain rfl := passes_pure.mp h
      rintro _ ⟨⟩
      exact hbound
    next => exact absurd h not_passes_report
  next => exact absurd h not_passes_report

variable {entry : HookBindingEntry}

theorem parseBindingFields_passes (h : (parseBindingFields syntaxOf b gates).Passes entry) :
    entry.Valid syntaxOf gates := by
  unfold parseBindingFields at h
  simp only [passes_bind, checkGateRef_passes] at h
  obtain ⟨_, ⟨gate, hgate, hnamed, hdefined⟩, _, _, _, hpriority, _, hcondition, _, htimeout,
    _, _, _, _, h⟩ := h
  obtain rfl := passes_pure.mp h
  rw [hgate]
  exact ⟨hnamed, hdefined, parsePriority_passes hpriority, parseCondition_passes hcondition,
    parseBindingTimeout_passes htimeout⟩

theorem parseBinding_passes {raw : Yaml} (h : (parseBinding syntaxOf gates raw).Passes entry) :
    entry.Valid syntaxOf gates := by
  cases raw with
  | object fields => exact parseBindingFields_passes h
  | array items => exact parseBindingFields_passes h
  | null | boolean b | number n | string s => exact absurd h not_passes_report

theorem parseBinding_embedded (hvalid : entry.Valid syntaxOf gates) :
    (parseBinding syntaxOf gates entry.toYaml).Passes entry := by
  change (parseBindingFields syntaxOf entry.toYaml gates).Passes entry
  have hgate : optionalString entry.toYaml "gate" = some entry.gate :=
    optionalString_of_get
      (by simp [entry.get_toYaml, fields, get_cons])
  have hname : entry.toYaml.get "name" = entry.name.map .string := by
    simp [entry.get_toYaml, fields, get_cons]
  have hpriority : entry.toYaml.get "priority" = entry.priority.map .number := by
    simp [entry.get_toYaml, fields, get_cons]
  have hcondition : entry.toYaml.get "if" = entry.condition.map .string := by
    simp [entry.get_toYaml, fields, get_cons]
  have htimeout : entry.toYaml.get "timeout" = entry.timeout.map .number := by
    simp [entry.get_toYaml, fields, get_cons]
  have hfailure : entry.toYaml.get "on_failure" = entry.onFailure.map GateDecision.toYaml := by
    simp [entry.get_toYaml, fields, get_cons]
  have hparsedName : (parseName entry.toYaml).Passes entry.name := by
    unfold parseName
    rw [hname]
    cases entry.name <;> exact passes_pure.mpr rfl
  have hparsedPriority : (parsePriority entry.toYaml).Passes entry.priority := by
    unfold parsePriority
    rw [hpriority]
    cases hn : entry.priority with
    | none => exact passes_pure.mpr rfl
    | some n => exact passes_pure.mpr (congrArg some (hvalid.priority n hn))
  have hparsedCondition : (parseCondition syntaxOf entry.toYaml).Passes entry.condition := by
    unfold parseCondition
    rw [hcondition]
    cases hs : entry.condition with
    | none => exact passes_pure.mpr rfl
    | some s =>
        simp only [Option.map_some]
        rcases hvalid.condition s hs with hok | hok
        · rw [hok]
          exact passes_pure.mpr rfl
        · rw [hok]
          exact passes_pure.mpr rfl
  have hparsedTimeout : (parseBindingTimeout entry.toYaml).Passes entry.timeout := by
    unfold parseBindingTimeout
    rw [htimeout]
    cases hn : entry.timeout with
    | none => exact passes_pure.mpr rfl
    | some n =>
        simp only [Option.map_some]
        rw [if_pos (hvalid.timeout n hn)]
        exact passes_pure.mpr rfl
  unfold parseBindingFields
  rw [hgate]
  refine passes_bind.mpr ⟨⟨⟩, checkGateRef_passes.mpr ⟨_, rfl, hvalid.named, hvalid.defined⟩, ?_⟩
  refine passes_bind.mpr ⟨_, hparsedName, ?_⟩
  refine passes_bind.mpr ⟨_, hparsedPriority, ?_⟩
  refine passes_bind.mpr ⟨_, hparsedCondition, ?_⟩
  refine passes_bind.mpr ⟨_, hparsedTimeout, ?_⟩
  refine passes_bind.mpr ⟨_, passes_locate.mpr (parseDecision_embedded hfailure), ?_⟩
  refine passes_bind.mpr ⟨⟨⟩, passes_reportUnknownKeys.mpr
    (keys_fields entry.keys_sublist (by decide)), ?_⟩
  exact passes_pure.mpr rfl

structure ValidHooks (syntaxOf : ConditionSyntax) (gates : Record String GateConfig)
    (hooks : Record HookPoint (List HookBindingEntry)) : Prop where
  distinct : Record.Distinct hooks
  valid : ∀ event ∈ hooks, ∀ entry ∈ event.2, entry.Valid syntaxOf gates

theorem parseBindingEntries_passes {items : List Yaml} {bindings : List HookBindingEntry} :
    Checked.Passes (ε := String) (items.zipIdx.mapM fun item =>
      parseBindingEntry syntaxOf name item.2 item.1 gates) bindings ↔
      (items.mapM (parseBinding syntaxOf gates)).Passes bindings :=
  passes_zipIdx (f := fun idx item => parseBindingEntry syntaxOf name idx item gates)
    fun _ _ _ => passes_locate

def Yaml.items : Yaml → List Yaml
  | .array items => items
  | _ => []

/-- What a binding is read as; the gates only matter for its check. -/
def bindingOf (syntaxOf : ConditionSyntax) (item : Yaml) : HookBindingEntry :=
  (parseBinding syntaxOf [] item).value

theorem bindingOf_eq (gates : Record String GateConfig) (item : Yaml) :
    (parseBinding syntaxOf gates item).value = bindingOf syntaxOf item := by
  cases item <;> rfl

def bindingsOf (syntaxOf : ConditionSyntax) (value : Yaml) : List HookBindingEntry :=
  value.items.map (bindingOf syntaxOf)

def hookNames (hooks : Record HookPoint (List HookBindingEntry)) :
    Record String (List HookBindingEntry) :=
  mapKeys Subtype.val hooks

theorem hookNames_injective : Function.Injective hookNames :=
  List.map_injective_iff.mpr fun a b h => by
    obtain ⟨hname, hbindings⟩ := Prod.mk.inj h
    exact Prod.ext (Subtype.ext hname) hbindings

theorem hookNames_append (hooks rest : Record HookPoint (List HookBindingEntry)) :
    hookNames (hooks ++ rest) = hookNames hooks ++ hookNames rest :=
  List.map_append

variable {hooks : Record HookPoint (List HookBindingEntry)}

theorem hookNames_eq_nil :
    hookNames hooks = [] ↔ hooks = [] :=
  List.map_eq_nil_iff

/-- An event whose bindings are accepted. -/
def EventOf (syntaxOf : ConditionSyntax) (gates : Record String GateConfig)
    (entry : String × Yaml) : Prop :=
  entry.1 ∈ allHookPoints ∧ (∃ items, entry.2 = .array items) ∧
    ∀ item ∈ entry.2.items, (parseBinding syntaxOf gates item).errors = []

theorem parseEvent_passes {entry : String × Yaml} {out : Record HookPoint (List HookBindingEntry)} :
    (parseEvent syntaxOf gates entry).Passes out ↔ EventOf syntaxOf gates entry ∧
      hookNames out = [(entry.1, bindingsOf syntaxOf entry.2)] := by
  obtain ⟨name, value⟩ := entry
  unfold parseEvent EventOf
  split
  next hpoint =>
    cases value with
    | array items =>
        simp only [passes_bind, passes_pure, parseBindingEntries_passes]
        simp only [passes_mapM_iff, bindingOf_eq]
        constructor
        · rintro ⟨_, ⟨hclean, rfl⟩, rfl⟩
          exact ⟨⟨hpoint, ⟨items, rfl⟩, hclean⟩, rfl⟩
        · rintro ⟨⟨_, _, hclean⟩, hout⟩
          refine ⟨_, ⟨hclean, rfl⟩, hookNames_injective ?_⟩
          exact hout.symm
    | null | boolean b | number n | string s | object fields => simp
  next hpoint => simp [hpoint]

variable {raw : Option Yaml}

theorem parseHookBindings_iff :
    (parseHookBindings syntaxOf raw gates).Passes hooks ↔ Sectioned raw ∧
      (∀ entry ∈ sectionEntries raw, EventOf syntaxOf gates entry) ∧
      mapValues (fun _ => bindingsOf syntaxOf) (sectionEntries raw) = hookNames hooks := by
  have hentries (entries : Record String Yaml) (hooks : Record HookPoint (List HookBindingEntry)) :
      (∃ parsed, (entries.mapM (parseEvent syntaxOf gates)).Passes parsed ∧
        parsed.flatten = hooks) ↔ (∀ entry ∈ entries, EventOf syntaxOf gates entry) ∧
          mapValues (fun _ => bindingsOf syntaxOf) entries = hookNames hooks := by
    induction entries generalizing hooks with
    | nil =>
        simp only [List.mapM_nil, passes_pure]
        constructor
        · rintro ⟨_, rfl, rfl⟩
          simp [hookNames, mapKeys]
        · rintro ⟨_, hnil⟩
          exact ⟨[], rfl, (hookNames_eq_nil.mp hnil.symm).symm⟩
    | cons entry entries ih =>
        simp only [List.mapM_cons, passes_bind, passes_pure]
        constructor
        · rintro ⟨_, ⟨out, hout, parsed, hparsed, rfl⟩, rfl⟩
          obtain ⟨hentry, hnames⟩ := parseEvent_passes.mp hout
          obtain ⟨hrest, hnamesRest⟩ := (ih _).mp ⟨parsed, hparsed, rfl⟩
          refine ⟨List.forall_mem_cons.mpr ⟨hentry, hrest⟩, ?_⟩
          rw [mapValues_cons, hnamesRest, List.flatten_cons, hookNames_append, hnames]
          rfl
        · rintro ⟨hall, hnames⟩
          obtain ⟨hentry, hrest⟩ := List.forall_mem_cons.mp hall
          cases hooks with
          | nil => cases hnames
          | cons event rest =>
              obtain ⟨hfirst, hlast⟩ := List.cons.inj hnames
              obtain ⟨parsed, hparsed, rfl⟩ := (ih rest).mpr ⟨hrest, hlast⟩
              refine ⟨_, ⟨[event], parseEvent_passes.mpr ⟨hentry, ?_⟩, parsed, hparsed, rfl⟩, rfl⟩
              exact congrArg (fun entry => [entry]) hfirst.symm
  unfold parseHookBindings
  split
  next => simp [Sectioned, sectionEntries, entries, hookNames_eq_nil]
  next => simp [Sectioned, sectionEntries, entries, typeOf, hookNames_eq_nil]
  next value _ =>
    split
    next htype =>
      simp only [passes_bind, passes_pure, hentries]
      simp [Sectioned, sectionEntries, htype]
    next htype => simp [Sectioned, htype]

theorem parseHookBindings_passes (h : (parseHookBindings syntaxOf raw gates).Passes hooks) :
    ValidHooks syntaxOf gates hooks := by
  obtain ⟨_, hevents, hnames⟩ := parseHookBindings_iff.mp h
  constructor
  · have hdistinct : Record.Distinct (hookNames hooks) :=
      hnames ▸ (sectionEntries_distinct raw).mapValues _
    unfold Record.Distinct Rows.Distinct at hdistinct
    rw [hookNames, keys_mapKeys] at hdistinct
    exact hdistinct.of_map _
  · intro event hevent entry hentry
    have hmem : (event.1.val, event.2) ∈ hookNames hooks := List.mem_map_of_mem hevent
    rw [← hnames] at hmem
    obtain ⟨source, hsource, heq⟩ := List.mem_map.mp hmem
    obtain ⟨_, hbindings⟩ := Prod.mk.inj heq
    rw [← hbindings] at hentry
    obtain ⟨item, hitem, rfl⟩ := List.mem_map.mp hentry
    have hclean := (hevents source hsource).2.2 item hitem
    exact parseBinding_passes (passes_iff.mpr ⟨hclean, bindingOf_eq gates item⟩)

theorem entries_hooksYaml (h : Record.Distinct hooks) :
    (hooksYaml hooks).entries = mapValues (fun _ => bindingsYaml) (hookNames hooks) := by
  have hentries : hooks.map (fun binding => (binding.1.val, bindingsYaml binding.2)) =
      mapValues (fun _ => bindingsYaml) (hookNames hooks) := by
    simp [hookNames, mapKeys, mapValues]
  rw [hooksYaml, hentries]
  exact entries_object ((h.mapKeys Subtype.val_injective).mapValues _)

theorem parseHookBindings_embedded (hvalid : ValidHooks syntaxOf gates hooks) :
    (parseHookBindings syntaxOf (some (hooksYaml hooks)) gates).Passes hooks := by
  have hentries : sectionEntries (some (hooksYaml hooks)) = _ := entries_hooksYaml hvalid.distinct
  have hread {bindings : List HookBindingEntry}
      (h : ∀ entry ∈ bindings, entry.Valid syntaxOf gates) :
      (∀ item ∈ (bindingsYaml bindings).items, (parseBinding syntaxOf gates item).errors = []) ∧
        bindingsOf syntaxOf (bindingsYaml bindings) = bindings := by
    have hparsed : ((bindingsYaml bindings).items.mapM (parseBinding syntaxOf gates)).Passes
        bindings := by
      change Checked.Passes (ε := String) ((bindings.map toYaml).mapM _) bindings
      rw [passes_mapM, List.forall₂_map_left_iff, List.forall₂_same]
      exact fun entry hentry => parseBinding_embedded (h entry hentry)
    have hboth := passes_mapM_iff.mp hparsed
    simp only [bindingOf_eq] at hboth
    exact hboth
  have hvalues {event : HookPoint × List HookBindingEntry} (hevent : event ∈ hooks) :=
    hread (hvalid.valid event hevent)
  refine parseHookBindings_iff.mpr ⟨.inr rfl, ?_, ?_⟩
  · rw [hentries]
    intro entry hentry
    obtain ⟨named, hnamed, rfl⟩ := List.mem_map.mp hentry
    obtain ⟨event, hevent, rfl⟩ := List.mem_map.mp hnamed
    exact ⟨event.1.property, ⟨_, rfl⟩, (hvalues hevent).1⟩
  · rw [hentries]
    simp only [mapValues, hookNames, mapKeys, List.map_map]
    refine List.map_congr_left fun event hevent => ?_
    exact Prod.ext rfl (hvalues hevent).2

/-! ## Settings -/

structure HookSettings.Valid (settings : HookSettings) : Prop where
  defaultTimeout : settings.defaultTimeout.Above 0
  emergencyEnvVar : settings.emergencyEnvVar ≠ ""

theorem defaultHookSettings_valid : defaultHookSettings.Valid where
  defaultTimeout := by decide
  emergencyEnvVar := by decide

theorem readSetting_passes {α : Type} {key : String} {default a : α} {read : Yaml → Except String α} :
    (readSetting s key default read).Passes a ↔
      (s.get key = none ∧ default = a) ∨ ∃ value, s.get key = some value ∧ read value = .ok a := by
  unfold readSetting
  cases s.get key with
  | none => simp
  | some value =>
      cases hread : read value with
      | error message => simp [hread]
      | ok a' => simp [hread]

variable {default : String}

theorem readBoolean_eq_ok {b : Bool} :
    readBoolean default value = .ok b ↔ value = .boolean b := by
  cases value <;> simp [readBoolean]

theorem readString_eq_ok {s : String} :
    readString default value = .ok s ↔ value = .string s := by
  cases value <;> simp [readString]

theorem readTimeout_eq_ok {n : YamlNumber} :
    readTimeout default value = .ok n ↔ value = .number n ∧ n.Above 0 := by
  cases value with
  | number m =>
      by_cases hm : m.Above 0
      · simp only [readTimeout, hm, if_true, Except.ok.injEq, number.injEq]
        constructor
        · rintro rfl
          exact ⟨rfl, hm⟩
        · exact fun h => h.1
      · simp only [readTimeout, hm, if_false, number.injEq]
        constructor
        · intro h
          cases h
        · rintro ⟨rfl, h⟩
          exact absurd h hm
  | null | boolean b | string s | array items | object fields => simp [readTimeout]

theorem readNonemptyString_eq_ok {s : String} :
    readNonemptyString default value = .ok s ↔ value = .string s ∧ s ≠ "" := by
  cases value with
  | string t =>
      by_cases ht : t = ""
      · simp only [readNonemptyString, ht, ne_eq, not_true_eq_false, if_false, string.injEq]
        constructor
        · intro h
          cases h
        · rintro ⟨rfl, h⟩
          exact absurd rfl h
      · simp only [readNonemptyString, ht, ne_eq, not_false_eq_true, if_true, Except.ok.injEq,
          string.injEq]
        constructor
        · rintro rfl
          exact ⟨rfl, ht⟩
        · exact fun h => h.1
  | null | boolean b | number n | array items | object fields => simp [readNonemptyString]

theorem HookSettings.keys (settings : HookSettings) :
    settings.fields.map Prod.fst = knownSettingsKeys := rfl

theorem HookSettings.distinct (settings : HookSettings) : Record.Distinct settings.fields := by
  unfold Record.Distinct Rows.Distinct
  rw [settings.keys]
  decide

theorem HookSettings.fields_ext {a b : HookSettings} (h : ∀ key ∈ knownSettingsKeys,
    get key a.fields = get key b.fields) : a = b := by
  have hfailFast := boolean.inj (Option.some.inj (h "fail_fast" (by decide)))
  have htimeout := number.inj (Option.some.inj (h "default_timeout" (by decide)))
  have hparallel := boolean.inj (Option.some.inj (h "parallel" (by decide)))
  have hformat := string.inj (Option.some.inj (h "output_format" (by decide)))
  have hemergency := string.inj (Option.some.inj (h "emergency_env_var" (by decide)))
  cases a
  cases b
  cases hfailFast
  cases htimeout
  cases hparallel
  cases hformat
  cases hemergency
  rfl

variable {settings : HookSettings}

theorem parseSettingsKeys_passes (h : (parseSettingsKeys s).Passes settings) : settings.Valid ∧
      (∀ key ∈ s.entries.map Prod.fst, key ∈ knownSettingsKeys) ∧
      ∀ key ∈ knownSettingsKeys, get key settings.fields =
        (s.get key).or (get key defaultHookSettings.fields) := by
  unfold parseSettingsKeys at h
  simp only [passes_bind, readSetting_passes, passes_reportUnknownKeys, readBoolean_eq_ok,
    readString_eq_ok, readTimeout_eq_ok, readNonemptyString_eq_ok] at h
  obtain ⟨failFast, hfailFast, defaultTimeout, htimeout, parallel, hparallel, outputFormat,
    hformat, emergencyEnvVar, hemergency, _, hknown, h⟩ := h
  obtain rfl := passes_pure.mp h
  refine ⟨⟨?_, ?_⟩, hknown, fun key hkey => ?_⟩
  · rcases htimeout with ⟨_, rfl⟩ | ⟨_, _, _, habove⟩
    · exact defaultHookSettings_valid.defaultTimeout
    · exact habove
  · rcases hemergency with ⟨_, rfl⟩ | ⟨_, _, _, hne⟩
    · exact defaultHookSettings_valid.emergencyEnvVar
    · exact hne
  · simp only [knownSettingsKeys, List.mem_cons, List.not_mem_nil, or_false] at hkey
    rcases hkey with rfl | rfl | rfl | rfl | rfl
    · rcases hfailFast with ⟨hnone, rfl⟩ | ⟨_, hsome, rfl⟩
      · rw [hnone]
        rfl
      · rw [hsome]
        rfl
    · rcases htimeout with ⟨hnone, rfl⟩ | ⟨_, hsome, rfl, _⟩
      · rw [hnone]
        rfl
      · rw [hsome]
        rfl
    · rcases hparallel with ⟨hnone, rfl⟩ | ⟨_, hsome, rfl⟩
      · rw [hnone]
        rfl
      · rw [hsome]
        rfl
    · rcases hformat with ⟨hnone, rfl⟩ | ⟨_, hsome, rfl⟩
      · rw [hnone]
        rfl
      · rw [hsome]
        rfl
    · rcases hemergency with ⟨hnone, rfl⟩ | ⟨_, hsome, rfl, _⟩
      · rw [hnone]
        rfl
      · rw [hsome]
        rfl

def SettingFits (key : String) (value : Yaml) : Prop :=
  ∃ settings : HookSettings, settings.Valid ∧ get key settings.fields = some value

/-- Settings that show, for each key, its explicit value or the default. -/
def HookSettings.Shows (settings : HookSettings) (explicit : Record String Yaml) : Prop :=
  ∀ key ∈ knownSettingsKeys, get key settings.fields =
    (get key explicit).or (get key defaultHookSettings.fields)

structure ExplicitSettings (explicit : Record String Yaml) : Prop where
  known : ∀ key ∈ explicit.map Prod.fst, key ∈ knownSettingsKeys
  fits : ∀ key ∈ knownSettingsKeys, ∀ value, get key explicit = some value →
    SettingFits key value

theorem parseSettingsKeys_of (hexplicit : ExplicitSettings s.entries)
    (hshows : settings.Shows s.entries) :
    (parseSettingsKeys s).Passes settings := by
  have hcases (key : String) (hkey : key ∈ knownSettingsKeys) :
      (s.get key = none ∧ get key settings.fields =
        get key defaultHookSettings.fields) ∨
      ∃ value, s.get key = some value ∧ get key settings.fields = some value ∧
        SettingFits key value := by
    have hshown := hshows key hkey
    cases hget : get key s.entries with
    | none => exact .inl ⟨hget, by rw [hshown, hget]; rfl⟩
    | some value =>
        exact .inr ⟨value, hget, by rw [hshown, hget]; rfl, hexplicit.fits key hkey value hget⟩
  unfold parseSettingsKeys
  simp only [passes_bind, readSetting_passes, passes_reportUnknownKeys, readBoolean_eq_ok,
    readString_eq_ok, readTimeout_eq_ok, readNonemptyString_eq_ok]
  refine ⟨settings.failFast, ?_, settings.defaultTimeout, ?_, settings.parallel, ?_,
    settings.outputFormat, ?_, settings.emergencyEnvVar, ?_, ⟨⟩, hexplicit.known,
    passes_pure.mpr rfl⟩
  · rcases hcases "fail_fast" (by decide) with ⟨hnone, hdefault⟩ | ⟨_, hsome, hfield, _⟩
    · exact .inl ⟨hnone, (boolean.inj (Option.some.inj hdefault)).symm⟩
    · exact .inr ⟨_, hsome, (Option.some.inj hfield).symm⟩
  · rcases hcases "default_timeout" (by decide) with
      ⟨hnone, hdefault⟩ | ⟨_, hsome, hfield, other, hvalid, hother⟩
    · exact .inl ⟨hnone, (number.inj (Option.some.inj hdefault)).symm⟩
    · have hsame := number.inj (Option.some.inj (hother.trans hfield.symm))
      exact .inr ⟨_, hsome, (Option.some.inj hfield).symm, hsame ▸ hvalid.defaultTimeout⟩
  · rcases hcases "parallel" (by decide) with ⟨hnone, hdefault⟩ | ⟨_, hsome, hfield, _⟩
    · exact .inl ⟨hnone, (boolean.inj (Option.some.inj hdefault)).symm⟩
    · exact .inr ⟨_, hsome, (Option.some.inj hfield).symm⟩
  · rcases hcases "output_format" (by decide) with ⟨hnone, hdefault⟩ | ⟨_, hsome, hfield, _⟩
    · exact .inl ⟨hnone, (string.inj (Option.some.inj hdefault)).symm⟩
    · exact .inr ⟨_, hsome, (Option.some.inj hfield).symm⟩
  · rcases hcases "emergency_env_var" (by decide) with
      ⟨hnone, hdefault⟩ | ⟨_, hsome, hfield, other, hvalid, hother⟩
    · exact .inl ⟨hnone, (string.inj (Option.some.inj hdefault)).symm⟩
    · have hsame := string.inj (Option.some.inj (hother.trans hfield.symm))
      exact .inr ⟨_, hsome, (Option.some.inj hfield).symm, hsame ▸ hvalid.emergencyEnvVar⟩

theorem defaultHookSettings_shows : defaultHookSettings.Shows [] := fun _ _ => rfl

theorem parseSettings_iff : (parseSettings raw).Passes settings ↔ Sectioned raw ∧
      ExplicitSettings (sectionEntries raw) ∧ settings.Shows (sectionEntries raw) := by
  have hempty : defaultHookSettings = settings ↔ ExplicitSettings [] ∧ settings.Shows [] := by
    constructor
    · rintro rfl
      exact ⟨⟨by simp, by simp⟩, defaultHookSettings_shows⟩
    · rintro ⟨_, hshows⟩
      exact HookSettings.fields_ext fun key hkey => (hshows key hkey).symm
  unfold parseSettings
  split
  next => simpa [Sectioned, sectionEntries, entries] using hempty
  next => simpa [Sectioned, sectionEntries, entries, typeOf] using hempty
  next value _ =>
    split
    next htype =>
      have hiff : (parseSettingsKeys value).Passes settings ↔
          ExplicitSettings value.entries ∧ settings.Shows value.entries := by
        constructor
        · intro h
          obtain ⟨hvalid, hknown, hshows⟩ := parseSettingsKeys_passes h
          refine ⟨⟨hknown, fun key hkey explicit hget => ⟨settings, hvalid, ?_⟩⟩, hshows⟩
          rw [hshows key hkey, Yaml.get, hget]
          rfl
        · exact fun h => parseSettingsKeys_of h.1 h.2
      rw [passes_locate, hiff]
      simp [Sectioned, sectionEntries, htype]
    next htype => simp [Sectioned, htype]

theorem parseSettings_valid (h : (parseSettings raw).Passes settings) : settings.Valid := by
  unfold parseSettings at h
  split at h
  next => exact passes_pure.mp h ▸ defaultHookSettings_valid
  next => exact passes_pure.mp h ▸ defaultHookSettings_valid
  next =>
    split at h
    next => exact (parseSettingsKeys_passes (passes_locate.mp h)).1
    next => exact absurd h not_passes_report

theorem parseSettings_embedded (hvalid : settings.Valid) :
    (parseSettings (some (.object settings.fields))).Passes settings := by
  have hentries : sectionEntries (some (.object settings.fields)) = settings.fields :=
    entries_object settings.distinct
  have hshows : settings.Shows settings.fields := by
    intro key hkey
    cases hget : get key settings.fields with
    | none => exact absurd (settings.keys ▸ hkey) (get_eq_none.mp hget)
    | some value => rfl
  refine parseSettings_iff.mpr ⟨.inr rfl, ?_⟩
  rw [hentries]
  exact ⟨⟨fun _ hkey => hkey, fun _ _ _ hget => ⟨settings, hvalid, hget⟩⟩, hshows⟩

/-! ## Configurations -/

/-- A configuration that `validateHookConfig` returns. -/
structure HookConfig.Valid (syntaxOf : ConditionSyntax) (config : HookConfig) : Prop where
  settings : config.settings.Valid
  gates : ValidGates config.gates
  hooks : ValidHooks syntaxOf config.gates config.hooks

variable {config : HookConfig}

theorem validateHookConfig_eq_ok {raw : Yaml} :
    validateHookConfig syntaxOf raw sourcePath = .ok config ↔
      ∃ fields, raw = .object fields ∧ (parseHookConfig syntaxOf raw).Passes config := by
  cases raw with
  | object fields =>
      have hmap (lead : String) : (locate lead (parseHookConfig syntaxOf
          (.object fields))).toExcept.mapError HookConfigError.validation = .ok config ↔
            (parseHookConfig syntaxOf (.object fields)).Passes config := by
        have hlocate : (locate lead (parseHookConfig syntaxOf (.object fields))).Passes config ↔ _ :=
          passes_locate
        rw [← hlocate, ← toExcept_eq_ok]
        cases (locate lead (parseHookConfig syntaxOf (.object fields))).toExcept with
        | error errors => simp [Except.mapError]
        | ok value => simp [Except.mapError]
      constructor
      · intro h
        exact ⟨fields, rfl, (hmap _).mp h⟩
      · rintro ⟨_, _, h⟩
        exact (hmap _).mpr h
  | null | boolean b | number n | string s | array items => simp [validateHookConfig]

theorem parseHookConfig_passes {obj : Yaml} : (parseHookConfig syntaxOf obj).Passes config ↔
      (parseSettings (obj.get "settings")).Passes config.settings ∧
      (parseGates (obj.get "gates")).Passes config.gates ∧
      (parseHookBindings syntaxOf (obj.get "hooks") config.gates).Passes config.hooks ∧
      (∀ key ∈ obj.entries.map Prod.fst, key ∈ knownTopKeys) ∧
      config.version = parseVersion obj := by
  unfold parseHookConfig
  simp only [passes_bind, passes_locate, passes_reportUnknownKeys, passes_pure]
  constructor
  · rintro ⟨_, hsettings, _, hgates, _, hhooks, _, hknown, rfl⟩
    exact ⟨hsettings, hgates, hhooks, hknown, rfl⟩
  · rintro ⟨hsettings, hgates, hhooks, hknown, hversion⟩
    refine ⟨_, hsettings, _, hgates, _, hhooks, ⟨⟩, hknown, ?_⟩
    rw [← hversion]

theorem validateHookConfig_valid {raw : Yaml}
    (h : validateHookConfig syntaxOf raw sourcePath = .ok config) : config.Valid syntaxOf := by
  obtain ⟨_, _, hpasses⟩ := validateHookConfig_eq_ok.mp h
  obtain ⟨hsettings, hgates, hhooks, _⟩ := parseHookConfig_passes.mp hpasses
  exact ⟨parseSettings_valid hsettings, parseGates_passes hgates,
    parseHookBindings_passes hhooks⟩

theorem validateHookConfig_toYaml (hvalid : config.Valid syntaxOf)
    (sourcePath : String) : validateHookConfig syntaxOf config.toYaml sourcePath = .ok config := by
  have hdistinct : Record.Distinct [("version", string config.version),
      ("settings", .object config.settings.fields), ("gates", gatesYaml config.gates),
      ("hooks", hooksYaml config.hooks)] := by
    have hkeys : ["version", "settings", "gates", "hooks"].Nodup := by decide
    exact hkeys
  have hget (key : String) : config.toYaml.get key = get key _ :=
    get_object hdistinct key
  refine validateHookConfig_eq_ok.mpr ⟨_, rfl, parseHookConfig_passes.mpr ?_⟩
  refine ⟨?_, ?_, ?_, ?_, ?_⟩
  · rw [hget]
    exact parseSettings_embedded hvalid.settings
  · rw [hget]
    exact parseGates_embedded hvalid.gates
  · rw [hget]
    exact parseHookBindings_embedded hvalid.hooks
  · rw [HookConfig.toYaml, entries_object hdistinct]
    exact fun key hkey => hkey
  · have hversion : optionalString config.toYaml "version" = some config.version :=
      optionalString_of_get (hget "version")
    rw [parseVersion, hversion]
    rfl

/-! ## Merges -/

def HookConfig.onto (override base : HookConfig) : HookConfig where
  version := override.version
  settings := override.settings
  gates := spread base.gates override.gates
  hooks := mergeHooksSection base.hooks override.hooks

theorem mergedObject_eq (base override : HookConfig) :
    mergedObject base override = (override.onto base).toYaml := by
  have hsettings : spread base.settings.fields override.settings.fields =
      override.settings.fields :=
    spread_same_keys override.settings.distinct
      (base.settings.keys.trans override.settings.keys.symm)
  rw [mergedObject, hsettings]
  rfl

theorem IsIn.mono {base override : Record String GateConfig} (hbase : Record.Distinct base)
    (hoverride : Record.Distinct override) (h : IsIn name base ∨ IsIn name override) :
    IsIn name (spread base override) := by
  have hkey (hkey : name ∈ base.map Prod.fst ∨ name ∈ override.map Prod.fst) :
      name ∈ (spread base override).map Prod.fst := by
    by_contra hnot
    have hnone := get_eq_none.mpr hnot
    rw [get_spread hbase hoverride, Option.or_eq_none_iff] at hnone
    rcases hkey with hkey | hkey
    · exact get_eq_none.mp hnone.2 hkey
    · exact get_eq_none.mp hnone.1 hkey
  rcases h with (hkeys | hinherited) | (hkeys | hinherited)
  · exact .inl (hkey (.inl hkeys))
  · exact .inr hinherited
  · exact .inl (hkey (.inr hkeys))
  · exact .inr hinherited

theorem HookBindingEntry.Valid.mono {gates' : Record String GateConfig}
    (h : entry.Valid syntaxOf gates) (hgates : IsIn entry.gate gates → IsIn entry.gate gates') :
    entry.Valid syntaxOf gates' where
  named := h.named
  defined := hgates h.defined
  priority := h.priority
  condition := h.condition
  timeout := h.timeout

theorem mem_mergeHooksSection {base override : Record HookPoint (List HookBindingEntry)}
    (hbase : Record.Distinct base) (hoverride : Record.Distinct override)
    {event : HookPoint × List HookBindingEntry} (hevent : event ∈ mergeHooksSection base override)
    (hentry : entry ∈ event.2) :
    ∃ bindings, entry ∈ bindings ∧
      ((event.1, bindings) ∈ base ∨ (event.1, bindings) ∈ override) := by
  have hget := Record.Distinct.get_of_mem (hbase.mergeWith _) hevent
  rw [get_mergeWith hbase hoverride] at hget
  cases hb : get event.1 base with
  | none =>
      rw [hb] at hget
      exact ⟨event.2, hentry, .inr (get_eq_some_mem hget)⟩
  | some bindings =>
      cases ho : get event.1 override with
      | none =>
          rw [hb, ho] at hget
          exact ⟨event.2, hentry, .inl (get_eq_some_mem (hb.trans hget))⟩
      | some appended =>
          rw [hb, ho] at hget
          rw [← Option.some.inj hget] at hentry
          rcases List.mem_append.mp hentry with hmem | hmem
          · exact ⟨bindings, hmem, .inl (get_eq_some_mem hb)⟩
          · exact ⟨appended, hmem, .inr (get_eq_some_mem ho)⟩

theorem HookConfig.Valid.onto {base : HookConfig} (hbase : base.Valid syntaxOf)
    (hoverride : override.Valid syntaxOf) : (override.onto base).Valid syntaxOf where
  settings := hoverride.settings
  gates :=
    { distinct := hbase.gates.distinct.spread _
      valid := fun entry hentry => by
        rcases mem_spread hbase.gates.distinct hentry with hmem | hmem
        · exact hbase.gates.valid entry hmem
        · exact hoverride.gates.valid entry hmem }
  hooks :=
    { distinct := hbase.hooks.distinct.mergeWith _
      valid := fun event hevent entry hentry => by
        have hgates (h : IsIn entry.gate base.gates ∨ IsIn entry.gate override.gates) :=
          IsIn.mono hbase.gates.distinct hoverride.gates.distinct h
        obtain ⟨_, hmem, hfrom | hfrom⟩ :=
          mem_mergeHooksSection hbase.hooks.distinct hoverride.hooks.distinct hevent hentry
        · exact (hbase.hooks.valid _ hfrom entry hmem).mono (hgates ∘ .inl)
        · exact (hoverride.hooks.valid _ hfrom entry hmem).mono (hgates ∘ .inr) }

theorem mergeHookConfigs_eq {base : HookConfig} (hbase : base.Valid syntaxOf)
    (hoverride : override.Valid syntaxOf) :
    mergeHookConfigs syntaxOf base override = .ok (override.onto base) := by
  rw [mergeHookConfigs, mergedObject_eq]
  exact validateHookConfig_toYaml (hbase.onto hoverride) _

end Newide.Hook
