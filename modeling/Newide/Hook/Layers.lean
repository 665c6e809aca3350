import Newide.Foundation.Fallible
import Newide.Hook.Revalidation

/-!
# Layered configurations

The layers of a hook configuration as documents that are merged key by
key before anything is validated.  The loader validates every layer on
its own and fills in its defaults first: a layer that leaves a setting
out then resets it, and a binding to a gate of a lower layer is refused.
Gates and bindings come out as in the merged document.
-/

namespace Newide.Hook

open Checked Record Fallible

variable {syntaxOf : ConditionSyntax}

/-! ## Merging documents -/

def Yaml.section (raw : Yaml) (key : String) : Record String Yaml :=
  sectionEntries (raw.get key)

def appendItems (base override : Yaml) : Yaml := .array (base.items ++ override.items)

/-- Two documents merged key by key; the bindings of an event are appended. -/
def mergeRaw (base override : Yaml) : Yaml :=
  let top := spread base.entries override.entries
  let settings := spread (base.section "settings") (override.section "settings")
  let gates := spread (base.section "gates") (override.section "gates")
  let hooks := mergeWith appendItems (base.section "hooks") (override.section "hooks")
  .object (set (set (set top "settings" (.object settings))
    "gates" (.object gates)) "hooks" (.object hooks))

def lastIn (raws : List Yaml) (key name : String) : Option Yaml :=
  raws.reverse.findSome? fun raw => get name (raw.section key)

def lastVersion (raws : List Yaml) : Option Yaml :=
  raws.reverse.findSome? fun raw => raw.get "version"

theorem lastIn_snoc (raws : List Yaml) (raw : Yaml) (key name : String) :
    lastIn (raws ++ [raw]) key name =
      (get name (raw.section key)).or (lastIn raws key name) := by
  rw [lastIn, List.reverse_append, List.reverse_singleton, List.singleton_append,
    List.findSome?_cons]
  cases get name (raw.section key) <;> rfl

theorem lastVersion_snoc (raws : List Yaml) (raw : Yaml) :
    lastVersion (raws ++ [raw]) = (raw.get "version").or (lastVersion raws) := by
  rw [lastVersion, List.reverse_append, List.reverse_singleton, List.singleton_append,
    List.findSome?_cons]
  cases raw.get "version" <;> rfl

theorem Yaml.section_distinct (raw : Yaml) (key : String) : Record.Distinct (raw.section key) :=
  sectionEntries_distinct _

/-! ### Reading a merged document -/

section Merged

variable (base override : Yaml)

theorem mergeRaw_get (key : String) : (mergeRaw base override).get key =
    if key = "hooks" then some (.object (mergeWith appendItems (base.section "hooks")
      (override.section "hooks")))
    else if key = "gates" then some (.object (spread (base.section "gates")
      (override.section "gates")))
    else if key = "settings" then some (.object (spread (base.section "settings")
      (override.section "settings")))
    else (override.get key).or (base.get key) := by
  have htop := base.entries_distinct.spread override.entries
  rw [mergeRaw, Yaml.get_object (((htop.set _ _).set _ _).set _ _),
    get_set ((htop.set _ _).set _ _), get_set (htop.set _ _), get_set htop,
    get_spread base.entries_distinct override.entries_distinct]
  rfl

theorem mergeRaw_settings : (mergeRaw base override).section "settings" =
    spread (base.section "settings") (override.section "settings") := by
  rw [Yaml.section, mergeRaw_get]
  exact Yaml.entries_object ((base.section_distinct _).spread _)

theorem mergeRaw_gates : (mergeRaw base override).section "gates" =
    spread (base.section "gates") (override.section "gates") := by
  rw [Yaml.section, mergeRaw_get]
  exact Yaml.entries_object ((base.section_distinct _).spread _)

theorem mergeRaw_hooks : (mergeRaw base override).section "hooks" =
    mergeWith appendItems (base.section "hooks") (override.section "hooks") := by
  rw [Yaml.section, mergeRaw_get]
  exact Yaml.entries_object ((base.section_distinct _).mergeWith _)

theorem mergeRaw_version : (mergeRaw base override).get "version" =
    (override.get "version").or (base.get "version") := by
  rw [mergeRaw_get]
  rfl

end Merged

/-! ## Loading -/

def present (layers : List HookLayer) : List Yaml := layers.filterMap (·.content)

def Validates (syntaxOf : ConditionSyntax) (raw : Yaml) (config : HookConfig) : Prop :=
  ∃ fields, raw = .object fields ∧ (parseHookConfig syntaxOf raw).Passes config

variable {config : HookConfig} {raw : Yaml} {merged : Option HookConfig} {layers : List HookLayer}
  {configs : List HookConfig} {raws : List Yaml} {gates gates' : Record String GateConfig}

theorem Validates.valid (h : Validates syntaxOf raw config) :
    config.Valid syntaxOf := by
  have hok : validateHookConfig syntaxOf raw "" = .ok config := validateHookConfig_eq_ok.mpr h
  exact validateHookConfig_valid hok

def addConfig (merged : Option HookConfig) (config : HookConfig) : Option HookConfig :=
  some (merged.elim config fun base => config.onto base)

variable {out : Option HookConfig}

theorem addLayer_eq_ok {path : String} (hmerged : ∀ base ∈ merged, base.Valid syntaxOf) :
    addLayer syntaxOf merged ⟨path, some raw⟩ = .ok out ↔
      ∃ config, Validates syntaxOf raw config ∧ addConfig merged config = out := by
  have hvalidates {config : HookConfig} : validateHookConfig syntaxOf raw path = .ok config ↔
      Validates syntaxOf raw config := validateHookConfig_eq_ok
  unfold addLayer
  rw [bind_eq_ok]
  simp only [hvalidates]
  refine exists_congr fun config => and_congr_right fun hconfig => ?_
  cases merged with
  | none => exact pure_eq_ok
  | some base =>
      simp only [mergeHookConfigs_eq (hmerged base rfl) hconfig.valid]
      exact pure_eq_ok

theorem addConfig_valid (hmerged : ∀ base ∈ merged, base.Valid syntaxOf)
    (hconfig : config.Valid syntaxOf) :
    ∀ base ∈ addConfig merged config, base.Valid syntaxOf := by
  rintro _ ⟨⟩
  cases merged with
  | none => exact hconfig
  | some base => exact (hmerged base rfl).onto hconfig

theorem foldlM_addLayer (hmerged : ∀ base ∈ merged, base.Valid syntaxOf) :
    layers.foldlM (addLayer syntaxOf) merged = .ok out ↔
      ∃ configs, List.Forall₂ (Validates syntaxOf) (present layers) configs ∧
        configs.foldl addConfig merged = out := by
  induction layers generalizing merged with
  | nil =>
      rw [List.foldlM_nil, pure_eq_ok]
      simp [present]
  | cons layer layers ih =>
      obtain ⟨path, content⟩ := layer
      rw [List.foldlM_cons]
      cases content with
      | none => exact ih hmerged
      | some raw =>
          have hpresent : present (⟨path, some raw⟩ :: layers) = raw :: present layers := rfl
          rw [bind_eq_ok, hpresent]
          simp only [addLayer_eq_ok hmerged, List.forall₂_cons_left_iff]
          constructor
          · rintro ⟨_, ⟨config, hconfig, rfl⟩, hrest⟩
            obtain ⟨configs, hconfigs, rfl⟩ :=
              (ih (addConfig_valid hmerged hconfig.valid)).mp hrest
            exact ⟨config :: configs, ⟨config, configs, hconfig, hconfigs, rfl⟩, rfl⟩
          · rintro ⟨_, ⟨config, configs, hconfig, hconfigs, rfl⟩, rfl⟩
            exact ⟨_, ⟨config, hconfig, rfl⟩, (ih (addConfig_valid hmerged hconfig.valid)).mpr
              ⟨configs, hconfigs, rfl⟩⟩

theorem foldl_addConfig (configs : List HookConfig) (base : HookConfig) :
    configs.foldl addConfig (some base) =
      some (configs.foldl (fun base config => config.onto base) base) := by
  induction configs generalizing base with
  | nil => rfl
  | cons config configs ih => exact ih (config.onto base)

theorem foldl_over_valid {base : HookConfig} (hbase : base.Valid syntaxOf)
    (hconfigs : List.Forall₂ (Validates syntaxOf) raws configs) :
    (configs.foldl (fun base config => config.onto base) base).Valid syntaxOf := by
  induction hconfigs generalizing base with
  | nil => exact hbase
  | cons hconfig _ ih => exact ih (hbase.onto hconfig.valid)

theorem load_eq_ok :
    loadMergedHookConfig syntaxOf layers = .ok config ↔
      ∃ first configs, List.Forall₂ (Validates syntaxOf) (present layers) (first :: configs) ∧
        configs.foldl (fun base config => config.onto base) first = config := by
  have hnone : ∀ base ∈ (none : Option HookConfig), base.Valid syntaxOf := by simp
  unfold loadMergedHookConfig
  rw [bind_eq_ok]
  simp only [foldlM_addLayer hnone]
  constructor
  · rintro ⟨_, ⟨configs, hconfigs, rfl⟩, h⟩
    cases configs with
    | nil => cases h
    | cons first configs =>
        refine ⟨first, configs, hconfigs, ?_⟩
        obtain ⟨_, _, hfirst, hrest, hpresent⟩ := List.forall₂_cons_right_iff.mp hconfigs
        have hmerged : (first :: configs).foldl addConfig none =
            some (configs.foldl (fun base config => config.onto base) first) :=
          foldl_addConfig configs first
        rw [hmerged] at h
        have hvalid := foldl_over_valid hfirst.valid hrest
        exact Except.ok.inj ((validateHookConfig_toYaml hvalid "").symm.trans h)
  · rintro ⟨first, configs, hconfigs, rfl⟩
    obtain ⟨_, _, hfirst, hrest, _⟩ := List.forall₂_cons_right_iff.mp hconfigs
    refine ⟨_, ⟨first :: configs, hconfigs, foldl_addConfig configs first⟩, ?_⟩
    exact validateHookConfig_toYaml (foldl_over_valid hfirst.valid hrest) ""

/-! ## The merged document and the merged configuration -/

theorem parseBinding_mono {item : Yaml} (h : (parseBinding syntaxOf gates item).errors = [])
    (hin : ∀ name, optionalString item "gate" = some name → IsIn name gates → IsIn name gates') :
    (parseBinding syntaxOf gates' item).errors = [] := by
  have hfields (b : Yaml)
      (hin : ∀ name, optionalString b "gate" = some name → IsIn name gates → IsIn name gates')
      (h : (parseBindingFields syntaxOf b gates).errors = []) :
      (parseBindingFields syntaxOf b gates').errors = [] := by
    have hpasses := passes_iff.mpr ⟨h, rfl⟩
    unfold parseBindingFields at hpasses
    obtain ⟨_, hgate, hrest⟩ := passes_bind.mp hpasses
    obtain ⟨name, hname, hne, hdefined⟩ := checkGateRef_passes.mp hgate
    have hgate' : (checkGateRef (optionalString b "gate") gates').Passes ⟨⟩ :=
      checkGateRef_passes.mpr ⟨name, hname, hne, hin name hname hdefined⟩
    exact (passes_iff.mp (passes_bind.mpr ⟨_, hgate', hrest⟩)).1
  cases item with
  | object fields => exact hfields _ hin h
  | array items => exact hfields _ hin h
  | null | boolean b | number n | string s => exact absurd h (by simp [parseBinding, report])

theorem EventOf.mono {entry : String × Yaml} (h : EventOf syntaxOf gates entry)
    (hin : ∀ item ∈ entry.2.items, ∀ name,
      optionalString item "gate" = some name → IsIn name gates → IsIn name gates') :
    EventOf syntaxOf gates' entry :=
  ⟨h.1, h.2.1, fun item hitem => parseBinding_mono (h.2.2 item hitem) (hin item hitem)⟩

theorem ExplicitSettings.spread {base override : Record String Yaml}
    (hbase : ExplicitSettings base) (hoverride : ExplicitSettings override)
    (hdistinct : Record.Distinct base) (hdistinct' : Record.Distinct override) :
    ExplicitSettings (spread base override) where
  known key hkey := by
    obtain ⟨entry, hentry, rfl⟩ := List.mem_map.mp hkey
    rcases mem_spread hdistinct hentry with hmem | hmem
    · exact hbase.known _ (List.mem_map_of_mem hmem)
    · exact hoverride.known _ (List.mem_map_of_mem hmem)
  fits key hkey value hget := by
    rw [get_spread hdistinct hdistinct', Option.or_eq_some_iff] at hget
    rcases hget with hget | ⟨_, hget⟩
    · exact hoverride.fits key hkey value hget
    · exact hbase.fits key hkey value hget

def bindingsIn (syntaxOf : ConditionSyntax) (raw : Yaml) (event : String) :
    List HookBindingEntry :=
  ((get event (raw.section "hooks")).map (bindingsOf syntaxOf)).getD []

/-- What the merged document and the merged configuration of some layers have in common. -/
structure Tracks (syntaxOf : ConditionSyntax) (raws : List Yaml) (merged : Yaml)
    (config : HookConfig) : Prop where
  object : ∃ fields, merged = .object fields
  known : ∀ key, merged.get key ≠ none → key ∈ knownTopKeys
  settingsSection : Sectioned (merged.get "settings")
  settings : ExplicitSettings (merged.section "settings")
  lastSettings : ∀ name, get name (merged.section "settings") = lastIn raws "settings" name
  gates : (parseGates (merged.get "gates")).Passes config.gates
  lastGates : ∀ name, get name (merged.section "gates") = lastIn raws "gates" name
  hooks : (parseHookBindings syntaxOf (merged.get "hooks") config.gates).Passes config.hooks
  allHooks : ∀ event, bindingsIn syntaxOf merged event = raws.flatMap (bindingsIn syntaxOf · event)
  version : merged.get "version" = lastVersion raws
  /-- The settings and the version are those of the last layer alone. -/
  last : ∃ last, raws.getLast? = some last ∧ config.settings.Shows (last.section "settings") ∧
    config.version = parseVersion last

theorem Validates.known (h : Validates syntaxOf raw config) {key : String}
    (hkey : raw.get key ≠ none) : key ∈ knownTopKeys := by
  obtain ⟨_, _, hpasses⟩ := h
  obtain ⟨_, _, _, hknown, _⟩ := parseHookConfig_passes.mp hpasses
  exact hknown key (mem_keys_of_get hkey)

theorem Tracks.first (h : Validates syntaxOf raw config) :
    Tracks syntaxOf [raw] raw config := by
  obtain ⟨fields, hobject, hpasses⟩ := id h
  obtain ⟨hsettings, hgates, hhooks, _, hversion⟩ := parseHookConfig_passes.mp hpasses
  obtain ⟨hsectioned, hexplicit, hshows⟩ := parseSettings_iff.mp hsettings
  have hlast (key name : String) : lastIn [raw] key name = get name (raw.section key) :=
    (lastIn_snoc [] raw key name).trans (Option.or_none ..)
  exact {
    object := ⟨fields, hobject⟩
    known := fun _ hkey => h.known hkey
    settingsSection := hsectioned
    settings := hexplicit
    lastSettings := fun name => (hlast "settings" name).symm
    gates := hgates
    lastGates := fun name => (hlast "gates" name).symm
    hooks := hhooks
    allHooks := fun event => (List.append_nil _).symm
    version := ((lastVersion_snoc [] raw).trans (Option.or_none ..)).symm
    last := ⟨raw, rfl, hshows, hversion⟩ }

theorem bindingsOf_appendItems (base override : Yaml) :
    bindingsOf syntaxOf (appendItems base override) =
      bindingsOf syntaxOf base ++ bindingsOf syntaxOf override :=
  List.map_append

theorem EventOf.mergeWith {base override : Record String Yaml} (hdistinct : Record.Distinct base)
    (hdistinct' : Record.Distinct override) (hbase : ∀ entry ∈ base, EventOf syntaxOf gates entry)
    (hoverride : ∀ entry ∈ override, EventOf syntaxOf gates entry) :
    ∀ entry ∈ mergeWith appendItems base override, EventOf syntaxOf gates entry := by
  rintro ⟨name, value⟩ hentry
  have hget := Record.Distinct.get_of_mem (hdistinct.mergeWith _) hentry
  rw [get_mergeWith hdistinct hdistinct'] at hget
  cases hb : get name base with
  | none =>
      rw [hb] at hget
      exact hoverride _ (get_eq_some_mem hget)
  | some old =>
      obtain ⟨hname, _, hold⟩ := hbase _ (get_eq_some_mem hb)
      cases ho : get name override with
      | none =>
          rw [hb, ho] at hget
          cases hget
          exact hbase _ (get_eq_some_mem hb)
      | some new =>
          obtain ⟨_, _, hnew⟩ := hoverride _ (get_eq_some_mem ho)
          rw [hb, ho] at hget
          cases hget
          refine ⟨hname, ⟨_, rfl⟩, fun item hitem => ?_⟩
          rcases List.mem_append.mp hitem with hmem | hmem
          · exact hold item hmem
          · exact hnew item hmem

theorem Tracks.next {merged : Yaml} {base : HookConfig} (h : Tracks syntaxOf raws merged base)
    (hraw : Validates syntaxOf raw config) :
    Tracks syntaxOf (raws ++ [raw]) (mergeRaw merged raw) (config.onto base) := by
  obtain ⟨_, _, hpasses⟩ := id hraw
  obtain ⟨hsettings, hgates, hhooks, _, hversion⟩ := parseHookConfig_passes.mp hpasses
  obtain ⟨_, hexplicit, hshows⟩ := parseSettings_iff.mp hsettings
  have hbaseGates := parseGates_passes h.gates
  obtain ⟨_, hcleanBase, hnamesBase⟩ := parseGates_iff.mp h.gates
  obtain ⟨_, hclean, hnames⟩ := parseGates_iff.mp hgates
  obtain ⟨_, heventsBase, hhooksBase⟩ := parseHookBindings_iff.mp h.hooks
  obtain ⟨_, hevents, hhooksOver⟩ := parseHookBindings_iff.mp hhooks
  have hbaseHooks := parseHookBindings_passes h.hooks
  have hin {name : String} (hname : IsIn name base.gates ∨ IsIn name config.gates) :
      IsIn name (config.onto base).gates :=
    IsIn.mono hbaseGates.distinct hraw.valid.gates.distinct hname
  refine ⟨⟨_, rfl⟩, fun key hkey => ?_, ?_, ?_, fun name => ?_, ?_, fun name => ?_, ?_,
    fun event => ?_, ?_, ?_⟩
  · rw [mergeRaw_get] at hkey
    by_cases hsection : key ∈ knownTopKeys
    · exact hsection
    · have hnone : raw.get key = none := by
        by_contra hsome
        exact hsection (hraw.known hsome)
      have hnone' : merged.get key = none := by
        by_contra hsome
        exact hsection (h.known key hsome)
      simp only [knownTopKeys, List.mem_cons, List.not_mem_nil, or_false, not_or] at hsection
      simp [hsection, hnone, hnone'] at hkey
  · rw [mergeRaw_get]
    exact .inr rfl
  · rw [mergeRaw_settings]
    exact h.settings.spread hexplicit (merged.section_distinct _) (raw.section_distinct _)
  · rw [mergeRaw_settings, lastIn_snoc, get_spread (merged.section_distinct _)
      (raw.section_distinct _), h.lastSettings]
  · have hsection : sectionEntries ((mergeRaw merged raw).get "gates") = _ :=
      mergeRaw_gates merged raw
    refine parseGates_iff.mpr ⟨?_, ?_, ?_⟩
    · rw [mergeRaw_get]
      exact .inr rfl
    · rw [hsection]
      intro entry hentry
      rcases mem_spread (merged.section_distinct _) hentry with hmem | hmem
      · exact hcleanBase entry hmem
      · exact hclean entry hmem
    · rw [hsection, mapValues_spread _ (merged.section_distinct _)]
      exact congrArg₂ spread hnamesBase hnames
  · rw [mergeRaw_gates, lastIn_snoc, get_spread (merged.section_distinct _)
      (raw.section_distinct _), h.lastGates]
  · have hsection : sectionEntries ((mergeRaw merged raw).get "hooks") = _ :=
      mergeRaw_hooks merged raw
    refine parseHookBindings_iff.mpr ⟨?_, ?_, ?_⟩
    · rw [mergeRaw_get]
      exact .inr rfl
    · rw [hsection]
      exact EventOf.mergeWith (merged.section_distinct _) (raw.section_distinct _)
        (fun entry hentry => (heventsBase entry hentry).mono fun _ _ _ _ hname => hin (.inl hname))
        (fun entry hentry => (hevents entry hentry).mono fun _ _ _ _ hname => hin (.inr hname))
    · have hjoin (_ : String) (old new : Yaml) : bindingsOf syntaxOf (appendItems old new) =
          (· ++ ·) (bindingsOf syntaxOf old) (bindingsOf syntaxOf new) :=
        bindingsOf_appendItems old new
      rw [hsection, mapValues_mergeWith (merged.section_distinct _) hjoin]
      have hmerged : hookNames (config.onto base).hooks = _ :=
        mapKeys_mergeWith Subtype.val_injective hbaseHooks.distinct
      rw [hmerged]
      exact congrArg₂ (mergeWith (· ++ ·)) hhooksBase hhooksOver
  · have hmerged := h.allHooks event
    unfold bindingsIn at hmerged ⊢
    rw [mergeRaw_hooks, get_mergeWith (merged.section_distinct _)
      (raw.section_distinct _), List.flatMap_append, ← hmerged, List.flatMap_singleton]
    cases get event (merged.section "hooks") with
    | none => simp
    | some old =>
        cases get event (raw.section "hooks") with
        | none => simp
        | some new => exact bindingsOf_appendItems old new
  · rw [mergeRaw_version, lastVersion_snoc, h.version]
  · exact ⟨raw, List.getLast?_concat, hshows, hversion⟩

theorem Tracks.foldl {rest : List Yaml} {merged : Yaml} {base : HookConfig}
    (h : Tracks syntaxOf raws merged base) (hrest : List.Forall₂ (Validates syntaxOf) rest configs) :
    
    Tracks syntaxOf (raws ++ rest) (rest.foldl mergeRaw merged)
      (configs.foldl (fun base config => config.onto base) base) := by
  induction hrest generalizing raws merged base with
  | nil => simpa using h
  | cons hraw _ ih =>
      have hnext := ih (h.next hraw)
      rwa [List.append_assoc] at hnext

end Newide.Hook
