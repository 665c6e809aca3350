import Newide.Gate.Runner

/-!
# The report of a driver

`src/driver/driver-return-converter.ts`: how a near report is repaired, and
how an object is cut out of a transcript.  A JSON value is a YAML value, and
`toLowerCase` a parameter.
-/

namespace Newide.Driver

open Hook Gate

variable (lower : String → String)

/-! ## Values -/

/-- `EffectivenessSchema` -/
def effectivenessNames : List String :=
  ["fully_effective", "partially_effective", "ineffective", "not_applicable"]

/-- `EFFECTIVENESS_ALIASES`, by the name that is meant. -/
def effectivenessAliases : List (String × List String) := [
  ("fully_effective", ["fully_effective", "fully effective", "fully-effective", "fully", "full",
    "complete", "completely"]),
  ("partially_effective", ["partially_effective", "partially effective", "partially-effective",
    "partial", "partly", "somewhat", "some"]),
  ("ineffective", ["ineffective", "no", "none", "failed"]),
  ("not_applicable", ["not_applicable", "not applicable", "not-applicable", "n/a", "na", "unused"])]

/-- `text.trim().length > 0` -/
def filled (text : String) : Bool := trim text.toList ≠ []

/-- `text.trim().toLowerCase()` -/
def lowered (text : String) : String := lower (String.ofList (trim text.toList))

def isString : Yaml → Bool
  | .string _ => true
  | _ => false

def toStringArray : Option Yaml → List Yaml
  | some (.array items) => items.filter isString
  | some (.string s) => if filled s then [.string s] else []
  | _ => []

def toStringValue (fallback : String) : Option Yaml → String
  | some (.string s) => s
  | _ => fallback

def toBooleanValue : Option Yaml → Bool
  | some (.boolean b) => b
  | some (.number n) => n.value ≠ .finite 0
  | some (.string s) => lowered lower s ∈ ["true", "yes", "1", "y", "done", "completed"]
  | _ => false

/-- What every object inherits under a name is an object or a function; `{}` stands for it. -/
def toEffectiveness : Option Yaml → Option Yaml
  | some (.string s) =>
      match effectivenessAliases.find? (lowered lower s ∈ ·.2) with
      | some (effectiveness, _) => some (.string effectiveness)
      | none => if lowered lower s ∈ inheritedNames then some (.object []) else none
  | _ => none

/-- The text names, in lower case, what every object inherits. -/
def NamesInherited (value : Option Yaml) : Prop :=
  ∃ s, value = some (.string s) ∧ lowered lower s ∈ inheritedNames

/-! ## Rules -/

/-- A place of the report: which values the schema takes there and what it makes of them, what a
value is repaired to, and which values that leaves alone and which it makes acceptable. -/
structure Rule where
  accepts : Option Yaml → Bool
  data : Option Yaml → Option Yaml := id
  normalize : Option Yaml → Option Yaml
  keeps : Option Yaml → Prop := fun _ => True
  clean : Option Yaml → Prop := fun _ => True

namespace Rule

def text (fallback : String) : Rule where
  accepts := fun value => value.any isString
  normalize := fun value => some (.string (toStringValue fallback value))

def noSummary : String := "Driver executed the task (no summary provided)."

def summary : Rule where
  accepts := fun value => value.any isString
  normalize := fun value =>
    some (.string (if filled (toStringValue "" value) then toStringValue "" value else noSummary))
  keeps := fun value => filled (toStringValue "" value)

def texts : Rule where
  accepts := fun
    | some (.array items) => items.all isString
    | _ => false
  normalize := fun value => some (.array (toStringArray value))

def flag : Rule where
  accepts := fun
    | some (.boolean _) => true
    | _ => false
  normalize := fun value => some (.boolean (toBooleanValue lower value))

def effectiveness (fallback : Option String) : Rule where
  accepts := fun
    | some (.string s) => s ∈ effectivenessNames
    | none => fallback.isNone
    | _ => false
  normalize := fun value => (toEffectiveness lower value).or (fallback.map .string)
  clean := fun value => ¬ NamesInherited lower value

def read (value : Option Yaml) (key : String) : Option Yaml := value.bind (·.get key)

def make (f : Rule → Option Yaml → Option Yaml) (fields : Record String Rule)
    (value : Option Yaml) : Yaml :=
  .object (fields.filterMap fun field => (f field.2 (read value field.1)).map (field.1, ·))

def isObject : Option Yaml → Bool
  | some (.object _) => true
  | _ => false

def object (fields : Record String Rule) : Rule where
  accepts := fun value =>
    isObject value && fields.all fun field => field.2.accepts (read value field.1)
  data := fun value => some (make Rule.data fields value)
  normalize := fun value => some (make Rule.normalize fields value)
  keeps := fun value => ∀ field ∈ fields, field.2.keeps (read value field.1)
  clean := fun value => ∀ field ∈ fields, field.2.clean (read value field.1)

/-- What an item becomes that is a text or an object; others are left out. -/
def normalizeItem (fields : Record String Rule) (ofText : String → Yaml) : Yaml → Option Yaml
  | .string s => some (ofText s)
  | .object entries => some (make Rule.normalize fields (some (.object entries)))
  | _ => none

def elements : Option Yaml → List Yaml
  | some (.array items) => items
  | _ => []

/-- The loop of the five `normalize…` functions. -/
def items (fields : Record String Rule) (ofText : String → Yaml) : Rule where
  accepts := fun
    | some (.array items) => items.all fun item => (object fields).accepts (some item)
    | _ => false
  data := fun value => some (.array ((elements value).map fun item => make Rule.data fields (some item)))
  normalize := fun value => some (.array ((elements value).filterMap (normalizeItem fields ofText)))
  clean := fun value => ∀ entries, .object entries ∈ elements value →
    (object fields).clean (some (.object entries))

end Rule

open Rule

def normalizeArtifacts : Rule :=
  items [("type", text "file"), ("path", text ""), ("summary", text "")] fun s =>
    .object [("type", .string "file"), ("path", .string s), ("summary", .string "")]

def normalizeDecisions : Rule :=
  items [("point", text "Decision"), ("options", texts), ("chosen", text ""), ("reason", text "")]
    fun s => .object [("point", .string s), ("options", .array []), ("chosen", .string ""),
      ("reason", .string "")]

def normalizeBlockers : Rule :=
  items [("blocker", text ""), ("attempts", texts), ("resolution", text ""),
    ("resolved", flag lower)] fun s =>
      .object [("blocker", .string s), ("attempts", .array []), ("resolution", .string ""),
        ("resolved", .boolean false)]

def normalizeReferencedExperiences : Rule :=
  items [("experience_id", text ""), ("applied", flag lower),
    ("effectiveness", effectiveness lower "not_applicable"), ("note", text "")] fun s =>
      .object [("experience_id", .string s), ("applied", .boolean true),
        ("effectiveness", .string "not_applicable"), ("note", .string "")]

def normalizeAssumptions : Rule :=
  items [("assumption", text ""), ("risk_if_wrong", text "")] fun s =>
    .object [("assumption", .string s), ("risk_if_wrong", .string "")]

def reportFields : Record String Rule :=
  [("artifacts", normalizeArtifacts), ("summary", summary),
    ("effectiveness", effectiveness lower none), ("decisions", normalizeDecisions),
    ("blockers", normalizeBlockers lower),
    ("referenced_experiences", normalizeReferencedExperiences lower),
    ("assumptions", normalizeAssumptions)]

def driverReturn : Rule := object (reportFields lower)

/-- `DriverReturnSchema.safeParse` -/
def driverReturnSchema (value : Option Yaml) : Option Yaml :=
  if (driverReturn lower).accepts value then (driverReturn lower).data value else none

def normalizeDriverReturn (raw : Yaml) : Option Yaml :=
  if isObject (some raw) then driverReturnSchema lower ((driverReturn lower).normalize (some raw))
  else none

/-! ## Objects in a text -/

def closing : List Char → Int → Bool → Bool → Option Nat
  | [], _, _, _ => none
  | char :: rest, depth, inString, escaped =>
      (if escaped then closing rest depth inString false
      else if char = '\\' ∧ inString then closing rest depth inString true
      else if char = '"' then closing rest depth (!inString) false
      else if inString then closing rest depth inString false
      else if char = '\x7b' then closing rest (depth + 1) false false
      else if char = '\x7d' then
        if depth - 1 = 0 then some 0 else closing rest (depth - 1) false false
      else closing rest depth false false).map (· + 1)

def extractJsonObject (text : List Char) (startIndex : Nat) : Option (List Char) :=
  (closing (text.drop startIndex) 0 false false).map (text.drop startIndex).take

/-! ## Laws of the rules -/

/-- A repair leaves alone what is accepted, and is accepted of the clean values only. -/
structure Rule.Lawful (rule : Rule) : Prop where
  kept : ∀ value, rule.accepts value → rule.keeps value → rule.normalize value = rule.data value
  cleaned : ∀ value, rule.accepts value → rule.clean value
  sound : ∀ value, rule.clean value → rule.accepts (rule.normalize value) ∧
    rule.data (rule.normalize value) = rule.normalize value
  exact : ∀ value, rule.accepts (rule.normalize value) → rule.clean value
  settles : ∀ value, rule.keeps (rule.normalize value)

namespace Rule

variable {lower}

theorem lawful_text (fallback : String) : (text fallback).Lawful where
  kept
    | some (.string _), _, _ => rfl
  cleaned _ _ := trivial
  sound _ _ := ⟨rfl, rfl⟩
  exact _ _ := trivial
  settles _ := trivial

theorem lawful_summary : summary.Lawful where
  kept
    | some (.string _), _, hkeeps => congrArg (fun s => some (Yaml.string s)) (if_pos hkeeps)
  cleaned _ _ := trivial
  sound _ _ := ⟨rfl, rfl⟩
  exact _ _ := trivial
  settles value := by
    by_cases hfilled : filled (toStringValue "" value)
    · simp only [summary, if_pos hfilled]
      exact hfilled
    · simp only [summary, if_neg hfilled]
      exact (by decide : filled noSummary)

theorem lawful_texts : texts.Lawful where
  kept
    | some (.array _), haccepts, _ =>
        congrArg (fun items => some (Yaml.array items))
          (List.filter_eq_self.mpr (List.all_eq_true.mp haccepts))
  cleaned _ _ := trivial
  sound value _ := by
    refine ⟨List.all_eq_true.mpr fun item hitem => ?_, rfl⟩
    unfold toStringArray at hitem
    split at hitem
    · exact (List.mem_filter.mp hitem).2
    · split at hitem
      · exact List.mem_singleton.mp hitem ▸ rfl
      · cases hitem
    · cases hitem
  exact _ _ := trivial
  settles _ := trivial

theorem lawful_flag : (flag lower).Lawful where
  kept
    | some (.boolean _), _, _ => rfl
  cleaned _ _ := trivial
  sound _ _ := ⟨rfl, rfl⟩
  exact _ _ := trivial
  settles _ := trivial

theorem toEffectiveness_name (hlower : ∀ s ∈ effectivenessNames, lower s = s) {s : String}
    (hs : s ∈ effectivenessNames) : toEffectiveness lower (some (.string s)) = some (.string s) := by
  have htrim : ∀ s ∈ effectivenessNames, String.ofList (trim s.toList) = s := by decide
  have halias : ∀ s ∈ effectivenessNames,
      (effectivenessAliases.find? (s ∈ ·.2)).map Prod.fst = some s := by decide
  obtain ⟨entry, hentry, hname⟩ := Option.map_eq_some_iff.mp (halias s hs)
  unfold toEffectiveness lowered
  simp only [htrim s hs, hlower s hs, hentry, hname]

theorem toEffectiveness_inherited {value : Option Yaml} (h : NamesInherited lower value) :
    toEffectiveness lower value = some (.object []) := by
  obtain ⟨s, rfl, hs⟩ := h
  have hnone : ∀ name ∈ inheritedNames, effectivenessAliases.find? (name ∈ ·.2) = none := by decide
  unfold toEffectiveness
  simp only [hnone _ hs, if_pos hs]

theorem toEffectiveness_eq_some {value : Option Yaml} {given : Yaml}
    (hclean : ¬ NamesInherited lower value) (h : toEffectiveness lower value = some given) :
    ∃ s ∈ effectivenessNames, given = .string s := by
  unfold toEffectiveness at h
  split at h
  · split at h
    · next hfind =>
        cases h
        have hnames : ∀ entry ∈ effectivenessAliases, entry.1 ∈ effectivenessNames := by decide
        exact ⟨_, hnames _ (List.mem_of_find?_eq_some hfind), rfl⟩
    · split at h
      · next hin => exact absurd ⟨_, rfl, hin⟩ hclean
      · cases h
  · cases h

theorem lawful_effectiveness (hlower : ∀ s ∈ effectivenessNames, lower s = s)
    {fallback : Option String} (hfallback : ∀ s ∈ fallback, s ∈ effectivenessNames) :
    (effectiveness lower fallback).Lawful where
  kept
    | some (.string s), haccepts, _ => by
        simp only [effectiveness, toEffectiveness_name hlower (of_decide_eq_true haccepts)]
        rfl
    | none, haccepts, _ => by
        rw [Option.isNone_iff_eq_none.mp haccepts]
        rfl
  cleaned
    | some (.string s), haccepts => fun hinherited => by
        have hname := toEffectiveness_name hlower (of_decide_eq_true haccepts)
        rw [toEffectiveness_inherited hinherited] at hname
        cases hname
    | none, _ => fun ⟨_, hvalue, _⟩ => by cases hvalue
  sound value hclean := by
    refine ⟨?_, rfl⟩
    cases hgiven : toEffectiveness lower value with
    | some given =>
        obtain ⟨s, hs, rfl⟩ := toEffectiveness_eq_some hclean hgiven
        simp only [effectiveness, hgiven]
        exact decide_eq_true hs
    | none =>
        simp only [effectiveness, hgiven, Option.none_or]
        cases fallback with
        | none => rfl
        | some name => exact decide_eq_true (hfallback name rfl)
  exact value haccepts hinherited := by
    simp only [effectiveness, toEffectiveness_inherited hinherited] at haccepts
    cases haccepts
  settles _ := trivial

/-! ### Objects and arrays -/

variable {fields : Record String Rule} {value : Option Yaml}

theorem read_make (hdistinct : fields.Distinct) {f : Rule → Option Yaml → Option Yaml}
    {field : String × Rule} (hfield : field ∈ fields) :
    read (some (make f fields value)) field.1 = f field.2 (read value field.1) := by
  have hkeys : ∀ entry ∈ fields, ∀ out,
      (f entry.2 (read value entry.1)).map (entry.1, ·) = some out → out.1 = entry.1 := by
    intro entry _ out hout
    obtain ⟨_, _, rfl⟩ := Option.map_eq_some_iff.mp hout
    rfl
  have hentries : (make f fields value).entries = fields.filterMap fun field =>
      (f field.2 (read value field.1)).map (field.1, ·) := (hdistinct.filterMap hkeys).ofEntries
  rw [read, Option.bind_some, Yaml.get, hentries, Record.get_filterMap hdistinct hkeys,
    hdistinct.get_of_mem hfield, Option.bind_some, Option.map_map]
  exact Option.map_id'

theorem make_congr {f g : Rule → Option Yaml → Option Yaml} {other : Option Yaml}
    (h : ∀ field ∈ fields, f field.2 (read value field.1) = g field.2 (read other field.1)) :
    make f fields value = make g fields other :=
  congrArg Yaml.object (List.filterMap_congr fun field hfield => by rw [h field hfield])

theorem lawful_object (hdistinct : fields.Distinct) (hfields : ∀ field ∈ fields, field.2.Lawful) :
    (object fields).Lawful where
  kept value haccepts hkeeps := by
    have hall := List.all_eq_true.mp (Bool.and_eq_true_iff.mp haccepts).2
    exact congrArg some (make_congr fun field hfield =>
      (hfields field hfield).kept _ (hall field hfield) (hkeeps field hfield))
  cleaned value haccepts field hfield := (hfields field hfield).cleaned _
    (List.all_eq_true.mp (Bool.and_eq_true_iff.mp haccepts).2 field hfield)
  sound value hclean := by
    constructor
    · refine List.all_eq_true.mpr fun field hfield => ?_
      rw [object, read_make hdistinct hfield]
      exact ((hfields field hfield).sound _ (hclean field hfield)).1
    · refine congrArg some (make_congr fun field hfield => ?_)
      rw [object, read_make hdistinct hfield]
      exact ((hfields field hfield).sound _ (hclean field hfield)).2
  exact value haccepts field hfield := by
    have haccepted := List.all_eq_true.mp haccepts field hfield
    rw [object, read_make hdistinct hfield] at haccepted
    exact (hfields field hfield).exact _ haccepted
  settles value field hfield := by
    rw [object, read_make hdistinct hfield]
    exact (hfields field hfield).settles _

theorem lawful_items {ofText : String → Yaml} (hdistinct : fields.Distinct)
    (hfields : ∀ field ∈ fields, field.2.Lawful)
    (hkeeps : ∀ field ∈ fields, ∀ value, field.2.keeps value)
    (htext : ∀ s, (object fields).accepts (some (ofText s)) ∧
      make Rule.data fields (some (ofText s)) = ofText s) : (items fields ofText).Lawful where
  kept
    | some (.array elements), haccepts, _ => by
        refine congrArg (fun items => some (Yaml.array items)) ?_
        rw [← List.filterMap_eq_map]
        refine List.filterMap_congr fun item hitem => ?_
        have haccepted := List.all_eq_true.mp haccepts item hitem
        have hobject := (Bool.and_eq_true_iff.mp haccepted).1
        have hkept := (lawful_object hdistinct hfields).kept (some item) haccepted
          fun field hfield => hkeeps field hfield _
        cases item with
        | object entries => exact hkept
        | null | boolean | number | string | array => cases hobject
  cleaned
    | some (.array _), haccepts, entries, hitem =>
        (lawful_object hdistinct hfields).cleaned _ (List.all_eq_true.mp haccepts _ hitem)
  sound value hclean := by
    have hitem (item : Yaml) (h : item ∈ (elements value).filterMap (normalizeItem fields ofText)) :
        (object fields).accepts (some item) ∧ make Rule.data fields (some item) = item := by
      obtain ⟨raw, hraw, hnormal⟩ := List.mem_filterMap.mp h
      cases raw with
      | string s =>
          cases hnormal
          exact htext s
      | object entries =>
          cases hnormal
          exact ((lawful_object hdistinct hfields).sound _ (hclean entries hraw)).imp_right
            Option.some.inj
      | null | boolean | number | array => cases hnormal
    refine ⟨List.all_eq_true.mpr fun item h => (hitem item h).1, ?_⟩
    exact congrArg (fun items => some (Yaml.array items))
      ((List.map_congr_left fun item h => (hitem item h).2).trans (List.map_id' _))
  exact value haccepts entries hentries :=
    (lawful_object hdistinct hfields).exact _ (List.all_eq_true.mp haccepts _
      (List.mem_filterMap.mpr ⟨_, hentries, rfl⟩))
  settles _ := trivial

end Rule

/-! ## Reports -/

theorem lawful_driverReturn (hlower : ∀ s ∈ effectivenessNames, lower s = s) :
    (driverReturn lower).Lawful := by
  have hchosen : (effectiveness lower (some "not_applicable")).Lawful :=
    lawful_effectiveness hlower (by decide)
  refine lawful_object (by simp [reportFields, Record.Distinct, Rows.Distinct]) ?_
  simp only [reportFields, List.forall_mem_cons]
  refine ⟨?_, lawful_summary, lawful_effectiveness hlower fun _ h => (by cases h),
    ?_, ?_, ?_, ?_, fun _ h => (by cases h)⟩
  all_goals
    refine lawful_items (by simp [Record.Distinct, Rows.Distinct]) ?_ ?_ fun s => ⟨rfl, rfl⟩
    · simp [lawful_text, lawful_texts, lawful_flag, hchosen]
    · simp [text, texts, flag, effectiveness]

/-- The report is repaired to one that stays as it is, and a valid one is left alone, up to
fields that no report has. -/
structure Repaired (raw : Yaml) : Prop where
  repaired : ∃ result, normalizeDriverReturn lower raw = some result ∧
    driverReturnSchema lower (some result) = some result ∧
    normalizeDriverReturn lower result = some result
  valid : ∀ data, driverReturnSchema lower (some raw) = some data →
    filled (toStringValue "" (raw.get "summary")) → normalizeDriverReturn lower raw = some data

/-- No effectiveness, of the report or of an experience it refers to, names what every object
inherits. -/
def NamesOwn (raw : Yaml) : Prop :=
  ¬ NamesInherited lower (raw.get "effectiveness") ∧
    ∀ entries, .object entries ∈ elements (raw.get "referenced_experiences") →
      ¬ NamesInherited lower ((Yaml.object entries).get "effectiveness")

variable {lower}

theorem clean_iff {raw : Yaml} : (driverReturn lower).clean (some raw) ↔ NamesOwn lower raw := by
  simp [driverReturn, reportFields, object, items, text, texts, flag, summary, effectiveness,
    normalizeArtifacts, normalizeDecisions, normalizeBlockers, normalizeReferencedExperiences,
    normalizeAssumptions, Rule.read, NamesOwn]

theorem normalizeDriverReturn_of_clean (hlaw : (driverReturn lower).Lawful) {raw : Yaml}
    (hobject : isObject (some raw)) (hclean : (driverReturn lower).clean (some raw)) :
    normalizeDriverReturn lower raw = (driverReturn lower).normalize (some raw) := by
  obtain ⟨haccepts, hdata⟩ := hlaw.sound _ hclean
  rw [normalizeDriverReturn, if_pos hobject, driverReturnSchema, if_pos haccepts, hdata]

theorem repaired_iff (hlower : ∀ s ∈ effectivenessNames, lower s = s) {raw : Yaml}
    (hobject : isObject (some raw)) : Repaired lower raw ↔ NamesOwn lower raw := by
  rw [← clean_iff]
  have hlaw := lawful_driverReturn lower hlower
  constructor
  · rintro ⟨⟨result, hresult, -⟩, -⟩
    rw [normalizeDriverReturn, if_pos hobject, driverReturnSchema] at hresult
    split at hresult
    · next haccepts => exact hlaw.exact _ haccepts
    · cases hresult
  · intro hclean
    have hraw := normalizeDriverReturn_of_clean hlaw hobject hclean
    obtain ⟨haccepts, hdata⟩ := hlaw.sound _ hclean
    refine ⟨⟨make Rule.normalize (reportFields lower) (some raw), hraw, ?_, ?_⟩,
      fun data hvalid hfilled => ?_⟩
    · exact (if_pos haccepts).trans hdata
    · rw [normalizeDriverReturn_of_clean hlaw rfl (hlaw.cleaned _ haccepts)]
      exact (hlaw.kept _ haccepts (hlaw.settles _)).trans hdata
    · rw [driverReturnSchema] at hvalid
      split at hvalid
      · next hraw' =>
          rw [hraw, ← hvalid]
          refine hlaw.kept _ hraw' ?_
          simpa [driverReturn, reportFields, object, items, summary, effectiveness,
            normalizeArtifacts, normalizeDecisions, normalizeBlockers,
            normalizeReferencedExperiences, normalizeAssumptions, Rule.read] using hfilled
      · cases hvalid

/-! ## Objects in a text -/

/-- The rest of a string literal, up to its closing quote. -/
inductive StringBody : List Char → Prop where
  | nil : StringBody []
  | plain {c : Char} {body : List Char} (hquote : c ≠ '"') (hescape : c ≠ '\\')
      (h : StringBody body) : StringBody (c :: body)
  | escaped {c : Char} {body : List Char} (h : StringBody body) : StringBody ('\\' :: c :: body)

/-- What a text of JSON has between the braces of an object: string literals, objects, and
characters that are neither quotes nor braces. -/
inductive ObjectBody : List Char → Prop where
  | nil : ObjectBody []
  | other {c : Char} {rest : List Char} (hquote : c ≠ '"') (hopen : c ≠ '\x7b')
      (hclose : c ≠ '\x7d') (h : ObjectBody rest) : ObjectBody (c :: rest)
  | string {body rest : List Char} (hbody : StringBody body) (h : ObjectBody rest) :
      ObjectBody ('"' :: (body ++ '"' :: rest))
  | object {inner rest : List Char} (hinner : ObjectBody inner) (h : ObjectBody rest) :
      ObjectBody ('\x7b' :: (inner ++ '\x7d' :: rest))

theorem closing_string {body : List Char} (h : StringBody body) (rest : List Char) (depth : Int) :
    closing (body ++ '"' :: rest) depth true false =
      (closing rest depth false false).map (· + (body.length + 1)) := by
  induction h with
  | nil => simp [closing]
  | plain hquote hescape h ih => simp [closing, hquote, hescape, ih, Function.comp_def, Nat.add_assoc]
  | escaped h ih => simp [closing, ih, Function.comp_def, Nat.add_assoc]

theorem closing_body {body : List Char} (h : ObjectBody body) :
    ∀ (rest : List Char) (depth : Int), 0 < depth → closing (body ++ rest) depth false false =
      (closing rest depth false false).map (· + body.length) := by
  induction h with
  | nil => simp
  | other hquote hopen hclose h ih =>
      intro rest depth hdepth
      simp [closing, hquote, hopen, hclose, ih rest depth hdepth, Function.comp_def, Nat.add_assoc]
  | string hbody h ih =>
      intro rest depth hdepth
      rw [List.cons_append, List.append_assoc, List.cons_append]
      simp only [closing, Bool.false_eq_true, if_false, and_false, if_true, Bool.not_false,
        closing_string hbody, ih rest depth hdepth, Option.map_map]
      congr 1
      funext n
      simp
      omega
  | object hinner h ihinner ih =>
      intro rest depth hdepth
      rw [List.cons_append, List.append_assoc, List.cons_append]
      simp only [closing, ihinner _ (depth + 1) (by omega)]
      simp [ih rest depth hdepth, show depth ≠ 0 by omega, Function.comp_def]
      congr 1
      funext n
      omega

/-- A report is repaired just when no effectiveness in it names what every object inherits; and
an object is cut out of any text it stands in. -/
theorem report_repaired_iff (hlower : ∀ s ∈ effectivenessNames, lower s = s) :
    (∀ raw, isObject (some raw) → (Repaired lower raw ↔ NamesOwn lower raw)) ∧
      ∀ before body after : List Char, ObjectBody body →
        extractJsonObject (before ++ '\x7b' :: (body ++ '\x7d' :: after)) before.length =
          some ('\x7b' :: (body ++ ['\x7d'])) := by
  refine ⟨fun raw hobject => repaired_iff hlower hobject, fun before body after hbody => ?_⟩
  have hclosing : closing ('\x7b' :: (body ++ '\x7d' :: after)) 0 false false =
      some (body.length + 2) := by
    simp [closing, closing_body hbody]
    omega
  have htext : '\x7b' :: (body ++ '\x7d' :: after) = '\x7b' :: (body ++ ['\x7d']) ++ after := by
    simp
  rw [extractJsonObject, List.drop_left, hclosing, htext]
  exact congrArg some (List.take_left' (by simp))

theorem report_repaired_lower : Repaired id (.object [("effectiveness", .string "partly")]) ↔
    NamesOwn id (.object [("effectiveness", .string "partly")]) :=
  (report_repaired_iff fun _ _ => rfl).1 _ rfl

/-- A report whose effectiveness is called `constructor` is dropped. -/
theorem constructor_dropped :
    normalizeDriverReturn id (.object [("effectiveness", .string "constructor")]) = none ∧
      ¬ Repaired id (.object [("effectiveness", .string "constructor")]) := by
  have hnone : normalizeDriverReturn id (.object [("effectiveness", .string "constructor")]) =
      none := by decide
  refine ⟨hnone, fun h => ?_⟩
  obtain ⟨result, hresult, -⟩ := h.repaired
  rw [hnone] at hresult
  cases hresult

end Newide.Driver
