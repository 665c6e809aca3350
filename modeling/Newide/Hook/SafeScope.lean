import Newide.Foundation.Tables
import Mathlib.Data.Fintype.Card
import Mathlib.Data.List.Forall2

/-!
# The scope of hook conditions

`safeScope` of `src/hook/hook.ts`: the proxies around an event, and what
property paths read through them.  Objects are references into a finite
graph, so that an event can share an object or contain itself.
-/

namespace Newide.Hook.Scope

variable {Ref Primitive : Type}

/-! ## Events -/

/-- A JavaScript value; primitive ones are those beside `undefined` and `null`. -/
inductive Value (Ref Primitive : Type) where
  | undefined
  | null
  | primitive (p : Primitive)
  | object (r : Ref)

inductive Node (Ref Primitive : Type) where
  /-- `get` reads the inherited members as well. -/
  | plain (get : String → Value Ref Primitive)
  | array (items : List (Value Ref Primitive))
  | callable (get : String → Value Ref Primitive)

structure Graph (Ref Primitive : Type) where
  node : Ref → Node Ref Primitive
  /-- What an array of this length has beside its elements. -/
  ofArray : Nat → String → Value Ref Primitive
  ofPrimitive : Primitive → String → Value Ref Primitive

open Graph

def elementIndex (length : Nat) (key : String) : Option Nat :=
  (List.range length).find? fun i => decide (toString i = key)

def blockedProperties : List String := ["constructor", "__proto__", "prototype"]

namespace Graph

variable (G : Graph Ref Primitive)

/-- `typeof value === 'function'`. -/
def isCallable (r : Ref) : Bool :=
  match G.node r with
  | .callable _ => true
  | _ => false

/-- `value[key]`. -/
def member (value : Value Ref Primitive) (key : String) : Value Ref Primitive :=
  match value with
  | .undefined | .null => .undefined
  | .primitive p => G.ofPrimitive p key
  | .object r =>
      match G.node r with
      | .plain get | .callable get => get key
      | .array items =>
          match elementIndex items.length key with
          | some i => (items[i]?).getD .undefined
          | none => G.ofArray items.length key

def sanitised : Value Ref Primitive → Value Ref Primitive
  | .undefined | .null => .null
  | .primitive p => .primitive p
  | .object r => if G.isCallable r then .null else .object r

/-- The value of a path, or `null` if a step of it is missing, `undefined`, a function or
blocked. -/
def valueAt : Value Ref Primitive → List String → Value Ref Primitive
  | value, [] => G.sanitised value
  | value, key :: path =>
      if key ∈ blockedProperties then .null
      else valueAt (G.member (G.sanitised value) key) path

/-- What reading the path gives without any scope around the value; a path ends with `null` where
there is nothing to read from. -/
def bareRead : Value Ref Primitive → List String → Value Ref Primitive
  | value, [] => value
  | .undefined, _ :: _ | .null, _ :: _ => .null
  | .primitive p, key :: path => bareRead (G.member (.primitive p) key) path
  | .object r, key :: path => bareRead (G.member (.object r) key) path

end Graph

/-! ## Wrapping -/

inductive ScopeValue (Ref Primitive : Type) where
  | undefined
  | null
  | primitive (p : Primitive)
  /-- The object, array or function itself. -/
  | raw (r : Ref)
  | proxy (r : Ref)
  /-- A new array of the wrapped elements. -/
  | copy (r : Ref) (items : List (ScopeValue Ref Primitive))

def bare : Value Ref Primitive → ScopeValue Ref Primitive
  | .undefined => .undefined
  | .null => .null
  | .primitive p => .primitive p
  | .object r => .raw r

section

variable [DecidableEq Ref] (G : Graph Ref Primitive)

/-- `value.map((item) => wrap(item))`, with the objects seen so far. -/
def wrapItems (wrapItem : List Ref → Value Ref Primitive → ScopeValue Ref Primitive × List Ref) :
    List Ref → List (Value Ref Primitive) → List (ScopeValue Ref Primitive) × List Ref
  | seen, [] => ([], seen)
  | seen, item :: items =>
      let now := wrapItem seen item
      let later := wrapItems wrapItem now.2 items
      (now.1 :: later.1, later.2)

/-- The body of `wrap`, given what wraps the elements of arrays. -/
def wrapValue (wrapItem : List Ref → Value Ref Primitive → ScopeValue Ref Primitive × List Ref)
    (seen : List Ref) : Value Ref Primitive → ScopeValue Ref Primitive × List Ref
  | .undefined | .null => (.null, seen)
  | .primitive p => (.primitive p, seen)
  | .object r =>
      match G.node r with
      | .callable _ => (.null, seen)
      | .plain _ => if r ∈ seen then (.raw r, seen) else (.proxy r, r :: seen)
      | .array items =>
          if r ∈ seen then (.raw r, seen)
          else
            let wrapped := wrapItems wrapItem (r :: seen) items
            (.copy r wrapped.1, wrapped.2)

/-- `wrap`, for arrays that are nested less deep than this. -/
def wrapWithin : Nat → List Ref → Value Ref Primitive → ScopeValue Ref Primitive × List Ref
  | 0 => wrapValue G fun seen value => (bare (G.sanitised value), seen)
  | depth + 1 => wrapValue G (wrapWithin depth)

/-- `wrap`; arrays cannot be nested deeper than there are objects. -/
def wrap [Fintype Ref] : List Ref → Value Ref Primitive → ScopeValue Ref Primitive × List Ref :=
  wrapWithin G (Fintype.card Ref)

variable [Fintype Ref]

/-- One property read.  Reading from nothing throws, which makes a condition false; here the
read ends with `null`. -/
def step (seen : List Ref) (value : ScopeValue Ref Primitive) (key : String) :
    ScopeValue Ref Primitive × List Ref :=
  match value with
  | .undefined | .null => (.null, seen)
  | .primitive p => (bare (G.member (.primitive p) key), seen)
  | .raw r => (bare (G.member (.object r) key), seen)
  | .copy _ items =>
      match elementIndex items.length key with
      | some i => ((items[i]?).getD .undefined, seen)
      | none => (bare (G.ofArray items.length key), seen)
  | .proxy r =>
      if key ∈ blockedProperties then (.null, seen) else wrap G seen (G.member (.object r) key)

def walk : List Ref → ScopeValue Ref Primitive → List String → ScopeValue Ref Primitive × List Ref
  | seen, value, [] => (value, seen)
  | seen, value, key :: path =>
      let next := step G seen value key
      walk next.2 next.1 path

def safeScope (event : Ref) : ScopeValue Ref Primitive × List Ref := wrap G [] (.object event)

/-- The objects seen after some paths have been read. -/
def seenAfter (event : Ref) (history : List (List String)) : List Ref :=
  history.foldl (fun seen path => (walk G seen (safeScope G event).1 path).2) (safeScope G event).2

/-- What reading a path gives after some others have been read. -/
def readAfter (event : Ref) (history : List (List String)) (path : List String) :
    ScopeValue Ref Primitive :=
  (walk G (seenAfter G event history) (safeScope G event).1 path).1

end

/-! ## Wrapping comes to an end -/

variable {wrapItem : List Ref → Value Ref Primitive → ScopeValue Ref Primitive × List Ref}

theorem wrapItems_grows
    (hgrows : ∀ seen value, seen ⊆ (wrapItem seen value).2) (items : List (Value Ref Primitive)) :
    ∀ seen, seen ⊆ (wrapItems wrapItem seen items).2 := by
  induction items with
  | nil => exact fun seen => List.Subset.refl seen
  | cons item items ih => exact fun seen => List.Subset.trans (hgrows seen item) (ih _)

section

variable [DecidableEq Ref] {G : Graph Ref Primitive} {depth : Nat} {seen : List Ref}

def unseen [Fintype Ref] (seen : List Ref) : Nat := (Finset.univ.filter (· ∉ seen)).card

theorem unseen_le [Fintype Ref] {later : List Ref} (h : seen ⊆ later) :
    unseen later ≤ unseen seen := by
  refine Finset.card_le_card fun r hr => ?_
  rw [Finset.mem_filter] at hr ⊢
  exact ⟨hr.1, fun hmem => hr.2 (h hmem)⟩

theorem unseen_lt [Fintype Ref] {r : Ref} (h : r ∉ seen) : unseen (r :: seen) < unseen seen := by
  refine Finset.card_lt_card ⟨fun other hother => ?_, fun hsub => ?_⟩
  · rw [Finset.mem_filter] at hother ⊢
    exact ⟨hother.1, fun hmem => hother.2 (List.mem_cons_of_mem r hmem)⟩
  · have hr := hsub (Finset.mem_filter.mpr ⟨Finset.mem_univ r, h⟩)
    exact (Finset.mem_filter.mp hr).2 List.mem_cons_self

theorem wrapValue_grows (hgrows : ∀ seen value, seen ⊆ (wrapItem seen value).2) (seen : List Ref)
    (value : Value Ref Primitive) : seen ⊆ (wrapValue G wrapItem seen value).2 := by
  cases value with
  | object r =>
      unfold wrapValue
      dsimp only
      split
      · exact List.Subset.refl seen
      · split
        · exact List.Subset.refl seen
        · exact List.subset_cons_self r seen
      · split
        · exact List.Subset.refl seen
        · exact List.Subset.trans (List.subset_cons_self r seen) (wrapItems_grows hgrows _ _)
  | _ => exact List.Subset.refl seen

theorem wrapWithin_grows (seen : List Ref) (value : Value Ref Primitive) :
    seen ⊆ (wrapWithin G depth seen value).2 := by
  induction depth generalizing seen value with
  | zero => exact wrapValue_grows (fun seen _ => List.Subset.refl seen) seen value
  | succ depth ih => exact wrapValue_grows ih seen value

variable [Fintype Ref]

theorem wrapItems_congr
    {f g : List Ref → Value Ref Primitive → ScopeValue Ref Primitive × List Ref} {limit : Nat}
    (hgrows : ∀ seen value, seen ⊆ (f seen value).2)
    (hsame : ∀ seen value, unseen seen ≤ limit → f seen value = g seen value)
    (items : List (Value Ref Primitive)) :
    ∀ seen, unseen seen ≤ limit → wrapItems f seen items = wrapItems g seen items := by
  induction items with
  | nil => exact fun _ _ => rfl
  | cons item items ih =>
      intro seen hle
      have hlater : unseen (f seen item).2 ≤ limit := (unseen_le (hgrows seen item)).trans hle
      unfold wrapItems
      dsimp only
      rw [ih _ hlater, hsame seen item hle]

theorem wrapValue_congr
    {f g : List Ref → Value Ref Primitive → ScopeValue Ref Primitive × List Ref}
    (hgrows : ∀ seen value, seen ⊆ (f seen value).2)
    (hsame : ∀ later value, unseen later < unseen seen → f later value = g later value)
    (value : Value Ref Primitive) : wrapValue G f seen value = wrapValue G g seen value := by
  cases value with
  | object r =>
      unfold wrapValue
      dsimp only
      cases hnode : G.node r with
      | array items =>
          dsimp only
          by_cases hseen : r ∈ seen
          · rw [if_pos hseen, if_pos hseen]
          · have hless := unseen_lt hseen
            have hitems : wrapItems f (r :: seen) items = wrapItems g (r :: seen) items :=
              wrapItems_congr hgrows
                (fun later value hle => hsame later value (Nat.lt_of_le_of_lt hle hless)) items
                (r :: seen) (Nat.le_refl _)
            rw [if_neg hseen, if_neg hseen, hitems]
      | _ => rfl
  | _ => rfl

theorem wrapWithin_succ (hle : unseen seen ≤ depth) (value : Value Ref Primitive) :
    wrapWithin G (depth + 1) seen value = wrapWithin G depth seen value := by
  induction depth generalizing seen value with
  | zero =>
      refine wrapValue_congr wrapWithin_grows (fun later _ hless => ?_) value
      omega
  | succ depth ih =>
      refine wrapValue_congr wrapWithin_grows (fun later value hless => ?_) value
      exact ih (by omega) value

/-- The recursion of the source. -/
theorem wrap_eq (seen : List Ref) (value : Value Ref Primitive) :
    wrap G seen value = wrapValue G (wrap G) seen value :=
  (wrapWithin_succ (Finset.card_le_univ _) value).symm

end

/-! ## What a scope value stands for -/

/-- The scope value is what a wrapper or an exposed value of the event comes to. -/
inductive Stands (G : Graph Ref Primitive) :
    ScopeValue Ref Primitive → Value Ref Primitive → Prop where
  | nothing {value : Value Ref Primitive} (h : G.sanitised value = .null) : Stands G .null value
  | primitive (p : Primitive) : Stands G (.primitive p) (.primitive p)
  | raw {r : Ref} (h : G.isCallable r = false) : Stands G (.raw r) (.object r)
  | proxy {r : Ref} {get : String → Value Ref Primitive} (h : G.node r = .plain get) :
      Stands G (.proxy r) (.object r)
  | copy {r : Ref} {wrapped : List (ScopeValue Ref Primitive)} {items : List (Value Ref Primitive)}
      (h : G.node r = .array items) (hlength : wrapped.length = items.length)
      (hitems : ∀ (i : Nat) w v, wrapped[i]? = some w → items[i]? = some v → Stands G w v) :
      Stands G (.copy r wrapped) (.object r)

/-- The scope value is the value, with objects and arrays behind their wrapper. -/
inductive Shows : ScopeValue Ref Primitive → Value Ref Primitive → Prop where
  | null : Shows .null .null
  | primitive (p : Primitive) : Shows (.primitive p) (.primitive p)
  | proxy (r : Ref) : Shows (.proxy r) (.object r)
  | copy (r : Ref) (items : List (ScopeValue Ref Primitive)) : Shows (.copy r items) (.object r)

variable {v : Value Ref Primitive} {w : ScopeValue Ref Primitive}
  {items : List (Value Ref Primitive)}

variable {other : Value Ref Primitive}

theorem Shows.unique (h : Shows w v) (hother : Shows w other) :
    v = other := by
  cases h <;> cases hother <;> rfl

def Alike (w other : ScopeValue Ref Primitive) : Prop := ∀ v, Shows w v ↔ Shows other v

theorem Shows.alike {other : ScopeValue Ref Primitive} (h : Shows w v) (hother : Shows other v) :
    Alike w other := by
  intro u
  constructor
  · intro hu
    rw [hu.unique h]
    exact hother
  · intro hu
    rw [hu.unique hother]
    exact h

section

variable {G : Graph Ref Primitive} {r : Ref}

theorem not_callable_of_plain {get : String → Value Ref Primitive} (h : G.node r = .plain get) :
    G.isCallable r = false := by
  unfold isCallable
  rw [h]

theorem not_callable_of_array (h : G.node r = .array items) :
    G.isCallable r = false := by
  unfold isCallable
  rw [h]

theorem sanitised_object (h : G.isCallable r = false) : G.sanitised (.object r) = .object r := by
  unfold sanitised
  dsimp only
  rw [h]
  rfl

theorem sanitised_callable (h : G.isCallable r = true) : G.sanitised (.object r) = .null := by
  unfold sanitised
  dsimp only
  rw [h]
  rfl

theorem wrapItems_stands (hstands : ∀ seen value, Stands G (wrapItem seen value).1 value)
    (items : List (Value Ref Primitive)) :
    ∀ seen, (wrapItems wrapItem seen items).1.length = items.length ∧
      ∀ (i : Nat) w v, (wrapItems wrapItem seen items).1[i]? = some w → items[i]? = some v →
        Stands G w v := by
  induction items with
  | nil => exact fun _ => ⟨rfl, fun i w v _ hv => (by cases hv)⟩
  | cons item items ih =>
      intro seen
      obtain ⟨hlength, hitems⟩ := ih (wrapItem seen item).2
      refine ⟨congrArg Nat.succ hlength, fun i w v hw hv => ?_⟩
      cases i with
      | zero =>
          obtain rfl : (wrapItem seen item).1 = w := Option.some.inj hw
          obtain rfl : item = v := Option.some.inj hv
          exact hstands seen item
      | succ i => exact hitems i w v hw hv

theorem bare_sanitised_stands (value : Value Ref Primitive) :
    Stands G (bare (G.sanitised value)) value := by
  cases value with
  | undefined => exact .nothing rfl
  | null => exact .nothing rfl
  | primitive p => exact .primitive p
  | object r =>
      cases hcallable : G.isCallable r with
      | true =>
          have hnull := sanitised_callable hcallable
          rw [hnull]
          exact .nothing hnull
      | false =>
          rw [sanitised_object hcallable]
          exact .raw hcallable

variable [DecidableEq Ref] {seen : List Ref}

theorem wrapValue_stands
    (hstands : ∀ seen value, Stands G (wrapItem seen value).1 value) (seen : List Ref)
    (value : Value Ref Primitive) : Stands G (wrapValue G wrapItem seen value).1 value := by
  cases value with
  | undefined => exact .nothing rfl
  | null => exact .nothing rfl
  | primitive p => exact .primitive p
  | object r =>
      unfold wrapValue
      dsimp only
      cases hnode : G.node r with
      | callable get =>
          refine .nothing (sanitised_callable ?_)
          unfold isCallable
          rw [hnode]
      | plain get =>
          dsimp only
          by_cases hseen : r ∈ seen
          · rw [if_pos hseen]
            exact .raw (not_callable_of_plain hnode)
          · rw [if_neg hseen]
            exact .proxy hnode
      | array items =>
          dsimp only
          by_cases hseen : r ∈ seen
          · rw [if_pos hseen]
            exact .raw (not_callable_of_array hnode)
          · rw [if_neg hseen]
            obtain ⟨hlength, hitems⟩ := wrapItems_stands hstands items (r :: seen)
            exact .copy hnode hlength hitems

variable [Fintype Ref]

theorem wrap_stands (seen : List Ref) (value : Value Ref Primitive) :
    Stands G (wrap G seen value).1 value := by
  unfold wrap
  generalize Fintype.card Ref = depth
  induction depth generalizing seen value with
  | zero => exact wrapValue_stands (fun _ => bare_sanitised_stands) seen value
  | succ depth ih => exact wrapValue_stands ih seen value

end

/-! ## Reads outside of the wrappers -/

/-- Every step of the path is there, is no function and is not blocked. -/
def Clean (G : Graph Ref Primitive) : Value Ref Primitive → List String → Prop
  | value, [] => G.sanitised value = value
  | value, key :: path =>
      G.sanitised value = value ∧ key ∉ blockedProperties ∧ Clean G (G.member value key) path

/-- Read without a wrapper, the path comes to `null`, or by clean steps to a primitive value. -/
def Passes (G : Graph Ref Primitive) (value : Value Ref Primitive) (path : List String) : Prop :=
  G.bareRead value path = .null ∨
    Clean G value path ∧ ∃ p, G.bareRead value path = .primitive p

variable {path : List String}

section

variable {G : Graph Ref Primitive} {value : Value Ref Primitive}

theorem sanitised_or (value : Value Ref Primitive) :
    G.sanitised value = value ∨ G.sanitised value = .null := by
  cases value with
  | undefined => exact .inr rfl
  | null => exact .inr rfl
  | primitive p => exact .inl rfl
  | object r =>
      cases hcallable : G.isCallable r with
      | false => exact .inl (sanitised_object hcallable)
      | true => exact .inr (sanitised_callable hcallable)

theorem valueAt_nothing (h : G.sanitised value = .null) (path : List String) :
    G.valueAt value path = .null := by
  induction path generalizing value with
  | nil => exact h
  | cons key path ih =>
      unfold valueAt
      split
      · rfl
      · rw [h]
        exact ih rfl

theorem valueAt_of_clean (h : Clean G value path) :
    G.valueAt value path = G.bareRead value path := by
  induction path generalizing value with
  | nil => exact h
  | cons key path ih =>
      obtain ⟨hvalue, hkey, hrest⟩ := h
      unfold valueAt
      rw [if_neg hkey, hvalue, ih hrest]
      cases value with
      | undefined => cases hvalue
      | null =>
          -- a step from `null` is missing
          cases path with
          | nil => cases hrest
          | cons key path => cases hrest.1
      | primitive p => rfl
      | object r => rfl

theorem valueAt_of_not_clean (h : ¬ Clean G value path) :
    G.valueAt value path = .null := by
  induction path generalizing value with
  | nil => exact (sanitised_or value).resolve_left h
  | cons key path ih =>
      rcases sanitised_or value with hvalue | hnothing
      · unfold valueAt
        by_cases hkey : key ∈ blockedProperties
        · rw [if_pos hkey]
        · rw [if_neg hkey, hvalue]
          exact ih fun hrest => h ⟨hvalue, hkey, hrest⟩
      · exact valueAt_nothing hnothing _

theorem bare_shows :
    Shows (bare value) other ↔
      value = .null ∧ other = .null ∨ ∃ p, value = .primitive p ∧ other = .primitive p := by
  constructor
  · intro h
    cases value with
    | undefined => cases h
    | object r => cases h
    | null =>
        cases h
        exact .inl ⟨rfl, rfl⟩
    | primitive p =>
        cases h
        exact .inr ⟨p, rfl, rfl⟩
  · rintro (⟨rfl, rfl⟩ | ⟨p, rfl, rfl⟩)
    · exact .null
    · exact .primitive p

theorem bareRead_shows :
    Shows (bare (G.bareRead value path)) (G.valueAt value path) ↔ Passes G value path := by
  rw [bare_shows]
  by_cases hclean : Clean G value path
  · have hsame := valueAt_of_clean hclean
    constructor
    · rintro (⟨hnull, _⟩ | ⟨p, hp, _⟩)
      · exact .inl hnull
      · exact .inr ⟨hclean, p, hp⟩
    · rintro (hnull | ⟨_, p, hp⟩)
      · exact .inl ⟨hnull, hsame.trans hnull⟩
      · exact .inr ⟨p, hp, hsame.trans hp⟩
  · have hnull := valueAt_of_not_clean hclean
    constructor
    · rintro (⟨hbare, _⟩ | ⟨p, _, hp⟩)
      · exact .inl hbare
      · cases hnull.symm.trans hp
    · rintro (hbare | ⟨habsurd, _⟩)
      · exact .inl ⟨hbare, hnull⟩
      · exact absurd habsurd hclean

variable [DecidableEq Ref] [Fintype Ref]

theorem walk_null (seen : List Ref) (path : List String) :
    walk G seen .null path = (.null, seen) := by
  induction path with
  | nil => rfl
  | cons key path ih => exact ih

theorem walk_bare (seen : List Ref) (value : Value Ref Primitive) (path : List String) :
    walk G seen (bare value) path = (bare (G.bareRead value path), seen) := by
  induction path generalizing value with
  | nil => rfl
  | cons key path ih =>
      cases value with
      | undefined => exact walk_null seen path
      | null => exact walk_null seen path
      | primitive p => exact ih (G.member (.primitive p) key)
      | object r => exact ih (G.member (.object r) key)

end

/-! ## Reads through the scope -/

theorem toString_not_blocked (i : Nat) : toString i ∉ blockedProperties := by
  intro h
  have hdigits : ∀ c ∈ (toString i).toList, c.isDigit = true := fun _ => Tables.isDigit_of_mem
  have hall : ∀ key ∈ blockedProperties, ¬ ∀ c ∈ key.toList, c.isDigit = true := by
    simp [blockedProperties]
  exact hall _ h hdigits

theorem elementIndex_eq_some {length i : Nat} {key : String}
    (h : elementIndex length key = some i) : i < length ∧ toString i = key := by
  unfold elementIndex at h
  have hkey := List.find?_some h
  exact ⟨List.mem_range.mp (List.mem_of_find?_eq_some h), of_decide_eq_true hkey⟩

theorem member_array {G : Graph Ref Primitive} {r : Ref} (h : G.node r = .array items)
    (key : String) : G.member (.object r) key =
      match elementIndex items.length key with
      | some i => (items[i]?).getD .undefined
      | none => G.ofArray items.length key := by
  unfold member
  dsimp only
  rw [h]

section

variable [DecidableEq Ref] [Fintype Ref] (G : Graph Ref Primitive)

/-- The read stays behind the wrappers to its end, or what is read once they are left passes.
They are left at primitive values, at what an array has beside its elements, and at objects and
arrays that have been seen before. -/
def Contained : List String → List Ref → ScopeValue Ref Primitive → Prop
  | _, _, .null => True
  | path, _, .undefined => Passes G .undefined path
  | path, _, .primitive p => Passes G (.primitive p) path
  | path, _, .raw r => Passes G (.object r) path
  | [], _, .proxy _ | [], _, .copy _ _ => True
  | key :: path, seen, .proxy r =>
      let next := step G seen (.proxy r) key
      Contained path next.2 next.1
  | key :: path, seen, .copy r items =>
      match elementIndex items.length key with
      | some i => Contained path seen ((items[i]?).getD .undefined)
      | none => Passes G (.object r) (key :: path)

variable {G}

theorem walk_exposed (seen : List Ref) (value : Value Ref Primitive) (path : List String) :
    Shows (walk G seen (bare value) path).1 (G.valueAt value path) ↔ Passes G value path := by
  rw [walk_bare]
  exact bareRead_shows

theorem walk_shows {seen : List Ref} (hstands : Stands G w v) :
    Shows (walk G seen w path).1 (G.valueAt v path) ↔ Contained G path seen w := by
  induction path generalizing seen w v with
  | nil =>
      cases hstands with
      | nothing h =>
          rw [valueAt_nothing h]
          exact ⟨fun _ => trivial, fun _ => .null⟩
      | primitive p => exact walk_exposed seen (.primitive p) []
      | raw h => exact walk_exposed seen (.object _) []
      | proxy h =>
          refine ⟨fun _ => trivial, fun _ => ?_⟩
          unfold valueAt
          rw [sanitised_object (not_callable_of_plain h)]
          exact .proxy _
      | copy h hlength hitems =>
          refine ⟨fun _ => trivial, fun _ => ?_⟩
          unfold valueAt
          rw [sanitised_object (not_callable_of_array h)]
          exact .copy _ _
  | cons key path ih =>
      cases hstands with
      | nothing h =>
          rw [valueAt_nothing h, walk_null]
          exact ⟨fun _ => trivial, fun _ => .null⟩
      | primitive p => exact walk_exposed seen (.primitive p) (key :: path)
      | raw h => exact walk_exposed seen (.object _) (key :: path)
      | @proxy r get h =>
          have hvalue := sanitised_object (not_callable_of_plain h)
          unfold walk Contained valueAt step
          dsimp only
          by_cases hkey : key ∈ blockedProperties
          · rw [if_pos hkey, if_pos hkey, walk_null]
            unfold Contained
            exact ⟨fun _ => trivial, fun _ => .null⟩
          · rw [if_neg hkey, if_neg hkey, hvalue]
            exact ih (wrap_stands seen _)
      | @copy r wrapped items h hlength hitems =>
          have hvalue := sanitised_object (not_callable_of_array h)
          have hmember := member_array h key
          cases hindex : elementIndex wrapped.length key with
          | some i =>
              obtain ⟨hlt, hname⟩ := elementIndex_eq_some hindex
              have hkey : key ∉ blockedProperties := hname ▸ toString_not_blocked i
              have hw : wrapped[i]? = some wrapped[i] := List.getElem?_eq_getElem hlt
              have hv : items[i]? = some items[i] := List.getElem?_eq_getElem (hlength ▸ hlt)
              rw [← hlength, hindex] at hmember
              dsimp only at hmember
              unfold walk Contained valueAt step
              dsimp only
              rw [hindex, if_neg hkey, hvalue, hmember]
              dsimp only
              rw [hw, hv]
              exact ih (hitems i _ _ hw hv)
          | none =>
              -- what an array has beside its elements is the same for the copy
              have hexposed := @walk_exposed _ _ _ _ G seen (.object r) (key :: path)
              rw [← hlength, hindex] at hmember
              dsimp only at hmember
              unfold walk step at hexposed ⊢
              dsimp only [bare] at hexposed ⊢
              unfold Contained
              rw [hindex]
              rw [hmember] at hexposed
              exact hexposed

/-! ## Sequences of reads -/

/-- A sequence of reads sees the values of the event, each of them whatever was read before. -/
structure SeesEvent (G : Graph Ref Primitive) (event : Ref) (paths : List (List String)) :
    Prop where
  shows : ∀ history path later, paths = history ++ path :: later →
    Shows (readAfter G event history path) (G.valueAt (.object event) path)
  stable : ∀ history later other others path, paths = history ++ path :: later →
    paths = other ++ path :: others →
      Alike (readAfter G event history path) (readAfter G event other path)

/-- Each read of a sequence is contained. -/
def AllContained (G : Graph Ref Primitive) (event : Ref) (paths : List (List String)) : Prop :=
  ∀ history path later, paths = history ++ path :: later →
    Contained G path (seenAfter G event history) (safeScope G event).1

end

/-- An event `0` with a payload `1` that holds a number, and the function `2` that every object
inherits as its constructor. -/
def payloadEvent : Graph (Fin 3) Nat where
  node
    | 0 => .plain fun key =>
        if key = "payload" then .object 1 else if key = "constructor" then .object 2 else .undefined
    | 1 => .plain fun key =>
        if key = "size" then .primitive 1
        else if key = "constructor" then .object 2 else .undefined
    | 2 => .callable fun _ => .undefined
  ofArray _ _ := .undefined
  ofPrimitive _ _ := .undefined

end Newide.Hook.Scope
