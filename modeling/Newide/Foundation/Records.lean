import Newide.Foundation.Upserts

/-!
# Records

Values by key, in the order in which the keys were first set.  Spreading
one record over another keeps the later value of each key; merging with a
function joins the values of a key that both have.
-/

universe u v w

abbrev Record (κ : Type u) (α : Type v) := List (κ × α)

namespace Record

open Rows

variable {κ : Type u} {α : Type v} {β : Type w}

/-- No key occurs twice. -/
abbrev Distinct (r : Record κ α) : Prop := Rows.Distinct Prod.fst r

/-- Every value through `f`, which also sees its key. -/
def mapValues (f : κ → α → β) (r : Record κ α) : Record κ β :=
  r.map fun entry => (entry.1, f entry.1 entry.2)

variable {base upper r : Record κ α} {k : κ} {a : α}

@[simp] theorem mapValues_nil (f : κ → α → β) : mapValues f [] = [] := rfl

@[simp] theorem mapValues_cons (f : κ → α → β) (entry : κ × α) (r : Record κ α) :
    mapValues f (entry :: r) = (entry.1, f entry.1 entry.2) :: mapValues f r := rfl

theorem keys_mapValues (f : κ → α → β) (r : Record κ α) :
    (mapValues f r).map Prod.fst = r.map Prod.fst := by
  simp [mapValues]

theorem Distinct.mapValues (h : Distinct r) (f : κ → α → β) : Distinct (mapValues f r) := by
  unfold Record.Distinct Rows.Distinct
  rw [keys_mapValues]
  exact h

variable [DecidableEq κ]

def get (k : κ) (r : Record κ α) : Option α := (lookup Prod.fst k r).map Prod.snd

/-- Set the value of a key in its place, or at the end. -/
def set (r : Record κ α) (k : κ) (a : α) : Record κ α := upsert Prod.fst (k, a) r

/-- `{ ...base, ...upper }`. -/
def spread (base upper : Record κ α) : Record κ α :=
  upper.foldl (fun r entry => set r entry.1 entry.2) base

/-- The object with these entries: of two entries of one key the later one stays. -/
def ofEntries (entries : List (κ × α)) : Record κ α := spread [] entries

/-- Set the keys of `upper` that `base` does not have. -/
def fill (base upper : Record κ α) : Record κ α :=
  upper.foldl (fun r entry => if (get entry.1 r).isSome then r else set r entry.1 entry.2) base

/-- As `spread`, but the values of a key in both are joined by `f`. -/
def mergeWith (f : α → α → α) (base upper : Record κ α) : Record κ α :=
  upper.foldl (fun r entry =>
    match get entry.1 r with
    | some old => set r entry.1 (f old entry.2)
    | none => set r entry.1 entry.2) base

/-! ## Reading -/

@[simp] theorem get_nil (k : κ) : get k ([] : Record κ α) = none := rfl

theorem get_cons (entry : κ × α) (r : Record κ α) :
    get k (entry :: r) = if entry.1 = k then some entry.2 else get k r := by
  unfold get lookup
  by_cases h : entry.1 = k
  · simp [h]
  · simp [h]

theorem get_eq_some_mem (h : get k r = some a) : (k, a) ∈ r := by
  obtain ⟨entry, hentry, rfl⟩ := Option.map_eq_some_iff.mp h
  have hkey := lookup_key hentry
  subst hkey
  exact lookup_mem hentry

theorem Distinct.get_of_mem (h : Distinct r) (hmem : (k, a) ∈ r) : get k r = some a := by
  have hlookup := Rows.Distinct.lookup_of_mem h hmem
  unfold get
  rw [hlookup]
  rfl

theorem get_eq_none : get k r = none ↔ k ∉ r.map Prod.fst := by
  unfold get
  rw [Option.map_eq_none_iff, lookup_eq_none]
  simp only [List.mem_map, not_exists, not_and, ne_eq]

theorem get_mapValues (f : κ → α → β) (r : Record κ α) (k : κ) :
    get k (mapValues f r) = (get k r).map (f k) := by
  induction r with
  | nil => rfl
  | cons entry r ih =>
      rw [mapValues_cons, get_cons, get_cons, ih]
      by_cases h : entry.1 = k
      · subst h
        simp
      · simp [h]

/-! ## Setting one key -/

theorem set_new (h : k ∉ r.map Prod.fst) : set r k a = r ++ [(k, a)] := by
  refine upsert_new fun old hold hkey => h ?_
  exact List.mem_map.mpr ⟨old, hold, hkey⟩

theorem set_cons_self (entry : κ × α) (hr : entry.1 ∉ r.map Prod.fst) :
    set (entry :: r) entry.1 a = (entry.1, a) :: r := by
  have hkeep : replace Prod.fst (entry.1, a) r = r := by
    refine (List.map_congr_left fun old hold => ?_).trans (List.map_id _)
    have hne : old.1 ≠ entry.1 := fun h => hr (List.mem_map.mpr ⟨old, hold, h⟩)
    simp [hne]
  have hfound : ∃ old ∈ entry :: r, old.1 = entry.1 := ⟨entry, List.mem_cons_self, rfl⟩
  have hreplace : replace Prod.fst (entry.1, a) (entry :: r) =
      (entry.1, a) :: replace Prod.fst (entry.1, a) r := by
    simp [replace]
  unfold set upsert
  rw [if_pos hfound, hreplace, hkeep]

theorem set_cons_ne (entry : κ × α) (h : entry.1 ≠ k) :
    set (entry :: r) k a = entry :: set r k a := by
  unfold set upsert
  have hiff : (∃ old ∈ entry :: r, old.1 = k) ↔ ∃ old ∈ r, old.1 = k := by
    simp [h]
  by_cases hfound : ∃ old ∈ r, old.1 = k
  · rw [if_pos (hiff.mpr hfound), if_pos hfound]
    simp [replace, h]
  · rw [if_neg (mt hiff.mp hfound), if_neg hfound]
    rfl

theorem Distinct.set (h : Distinct r) (k : κ) (a : α) : Distinct (set r k a) :=
  Rows.Distinct.upsert h _

theorem get_set (h : Distinct r) (other : κ) :
    get other (set r k a) = if other = k then some a else get other r := by
  induction r with
  | nil =>
      rw [set_new (by simp), List.nil_append, get_cons]
      simp [eq_comm]
  | cons entry r ih =>
      obtain ⟨hnew, hr⟩ := List.nodup_cons.mp h
      by_cases hk : entry.1 = k
      · subst hk
        rw [set_cons_self entry hnew, get_cons, get_cons]
        by_cases ho : other = entry.1
        · simp [ho]
        · simp [ho, Ne.symm ho]
      · rw [set_cons_ne entry hk, get_cons, get_cons, ih hr]
        by_cases ho : entry.1 = other
        · subst ho
          simp [hk]
        · simp [ho]

theorem mem_keys_set (other : κ) : other ∈ (set r k a).map Prod.fst ↔
    other = k ∨ other ∈ r.map Prod.fst := by
  unfold set upsert
  split
  · rename_i hfound
    obtain ⟨old, hold, rfl⟩ := hfound
    rw [replace_keys]
    exact ⟨.inr, fun h => h.elim (fun he => he ▸ List.mem_map_of_mem hold) id⟩
  · simp [or_comm]

theorem mem_keys_iff : k ∈ r.map Prod.fst ↔ (get k r).isSome := by
  rw [← not_iff_not, ← get_eq_none]
  cases get k r <;> simp

variable {entry : κ × α} {middle : Record κ α}

theorem mem_set (h : Distinct r) (hmem : entry ∈ set r k a) :
    entry = (k, a) ∨ entry ∈ r := by
  have hget := Distinct.get_of_mem (h.set k a) hmem
  rw [get_set h] at hget
  by_cases hk : entry.1 = k
  · rw [if_pos hk] at hget
    exact .inl (Prod.ext hk (Option.some.inj hget).symm)
  · rw [if_neg hk] at hget
    exact .inr (get_eq_some_mem hget)

theorem Distinct.set_get (h : Distinct r) (hget : get k r = some a) : Record.set r k a = r := by
  induction r with
  | nil => cases hget
  | cons entry r ih =>
      obtain ⟨hnew, hr⟩ := List.nodup_cons.mp h
      rw [get_cons] at hget
      by_cases hk : entry.1 = k
      · subst hk
        rw [if_pos rfl] at hget
        cases hget
        exact set_cons_self entry hnew
      · rw [if_neg hk] at hget
        rw [set_cons_ne entry hk, ih hr hget]

theorem mapValues_set (f : κ → α → β) (h : Distinct r) :
    mapValues f (set r k a) = set (mapValues f r) k (f k a) := by
  induction r with
  | nil => rfl
  | cons entry r ih =>
      obtain ⟨hnew, hr⟩ := List.nodup_cons.mp h
      by_cases hk : entry.1 = k
      · subst hk
        have hnew' : entry.1 ∉ (mapValues f r).map Prod.fst := by rwa [keys_mapValues]
        have hset := set_cons_self (a := f entry.1 a) (entry.1, f entry.1 entry.2) hnew'
        rw [set_cons_self entry hnew, mapValues_cons, mapValues_cons, hset]
      · have hset := set_cons_ne (r := mapValues f r) (a := f k a)
          (entry.1, f entry.1 entry.2) hk
        rw [set_cons_ne entry hk, mapValues_cons, mapValues_cons, hset, ih hr]

/-! ## Spreading -/

@[simp] theorem spread_nil : spread base [] = base := rfl

theorem spread_cons (entry : κ × α) :
    spread base (entry :: upper) = spread (set base entry.1 entry.2) upper := rfl

theorem Distinct.spread (h : Distinct base) (upper : Record κ α) : Distinct (spread base upper) := by
  induction upper generalizing base with
  | nil => exact h
  | cons entry upper ih => exact ih (h.set entry.1 entry.2)

theorem mem_keys_spread (other : κ) : other ∈ (spread base upper).map Prod.fst ↔
    other ∈ base.map Prod.fst ∨ other ∈ upper.map Prod.fst := by
  induction upper generalizing base with
  | nil => simp
  | cons entry upper ih =>
      rw [spread_cons, ih, mem_keys_set, List.map_cons, List.mem_cons, or_assoc, or_left_comm]

theorem distinct_ofEntries (entries : List (κ × α)) : Distinct (ofEntries entries) :=
  Distinct.spread Rows.Distinct.nil entries

theorem ofEntries_snoc (entries : List (κ × α)) (entry : κ × α) :
    ofEntries (entries ++ [entry]) = set (ofEntries entries) entry.1 entry.2 := by
  unfold ofEntries spread
  rw [List.foldl_append]
  rfl

theorem get_ofEntries_eq_some {entries : List (κ × α)} : get k (ofEntries entries) = some a ↔
    ∃ pre post, entries = pre ++ (k, a) :: post ∧ k ∉ post.map Prod.fst := by
  induction entries using List.reverseRecOn with
  | nil => simp [ofEntries, spread]
  | append_singleton entries entry ih =>
      rw [ofEntries_snoc, get_set (distinct_ofEntries entries)]
      by_cases hk : k = entry.1
      · rw [if_pos hk]
        constructor
        · intro ha
          have hentry : entry = (k, a) := Prod.ext hk.symm (Option.some.inj ha)
          exact ⟨entries, [], by rw [hentry], by simp⟩
        · rintro ⟨pre, post, hentries, hnew⟩
          rcases List.eq_nil_or_concat post with rfl | ⟨init, last, rfl⟩
          · have hlast := List.singleton_inj.mp (List.append_inj' hentries rfl).2
            rw [hlast]
          · rw [List.concat_eq_append, ← List.cons_append, ← List.append_assoc] at hentries
            have hlast := List.singleton_inj.mp (List.append_inj' hentries rfl).2
            exact absurd (by simp [hk, hlast]) hnew
      · rw [if_neg hk, ih]
        constructor
        · rintro ⟨pre, post, rfl, hnew⟩
          refine ⟨pre, post ++ [entry], by simp, ?_⟩
          simpa [hk] using hnew
        · rintro ⟨pre, post, hentries, hnew⟩
          rcases List.eq_nil_or_concat post with rfl | ⟨init, last, rfl⟩
          · have hlast := List.singleton_inj.mp (List.append_inj' hentries rfl).2
            exact absurd (by rw [hlast]) hk
          · rw [List.concat_eq_append, ← List.cons_append, ← List.append_assoc] at hentries
            refine ⟨pre, init, (List.append_inj' hentries rfl).1, fun hmem => hnew ?_⟩
            rw [List.concat_eq_append, List.map_append]
            exact List.mem_append_left _ hmem

theorem get_spread (hbase : Distinct base) (hupper : Distinct upper) (k : κ) :
    get k (spread base upper) = (get k upper).or (get k base) := by
  induction upper generalizing base with
  | nil => simp
  | cons entry upper ih =>
      obtain ⟨hnew, hrest⟩ := List.nodup_cons.mp hupper
      rw [spread_cons, ih (hbase.set entry.1 entry.2) hrest, get_set hbase, get_cons]
      by_cases hk : entry.1 = k
      · subst hk
        rw [get_eq_none.mpr hnew]
        simp
      · simp [hk, Ne.symm hk]

theorem mem_spread (hbase : Distinct base) (h : entry ∈ spread base upper) :
    entry ∈ base ∨ entry ∈ upper := by
  induction upper generalizing base with
  | nil => exact .inl h
  | cons first upper ih =>
      rcases ih (hbase.set first.1 first.2) h with hmem | hmem
      · rcases mem_set hbase hmem with rfl | hmem
        · exact .inr List.mem_cons_self
        · exact .inl hmem
      · exact .inr (List.mem_cons_of_mem _ hmem)

theorem mapValues_spread (f : κ → α → β) (h : Distinct base) :
    mapValues f (spread base upper) = spread (mapValues f base) (mapValues f upper) := by
  induction upper generalizing base with
  | nil => rfl
  | cons entry upper ih =>
      rw [spread_cons, ih (h.set entry.1 entry.2), mapValues_set f h, mapValues_cons, spread_cons]

theorem spread_append (h : Distinct (base ++ upper)) : spread base upper = base ++ upper :=
  upsertAll_append h

theorem Distinct.ofEntries (h : Distinct r) : ofEntries r = r :=
  spread_append h

theorem spread_same_keys (h : Distinct upper) (hkeys : base.map Prod.fst = upper.map Prod.fst) :
    spread base upper = upper := by
  have hd : Rows.Distinct Prod.fst ([] ++ upper) := h
  exact upsertAll_replace hd hkeys

/-! ## Choosing entries -/

section FilterMap

variable {f : κ × α → Option (κ × β)}

omit [DecidableEq κ] in
theorem keys_filterMap (hf : ∀ entry ∈ r, ∀ out, f entry = some out → out.1 = entry.1) :
    List.Sublist ((r.filterMap f).map Prod.fst) (r.map Prod.fst) := by
  induction r with
  | nil => exact List.Sublist.refl _
  | cons entry r ih =>
      have hrest := ih fun e he => hf e (List.mem_cons_of_mem _ he)
      cases hout : f entry with
      | none =>
          rw [List.filterMap_cons_none hout]
          exact hrest.cons _
      | some out =>
          rw [List.filterMap_cons_some hout, List.map_cons, List.map_cons,
            hf entry List.mem_cons_self out hout]
          exact hrest.cons_cons _

omit [DecidableEq κ] in
theorem Distinct.filterMap (h : Distinct r)
    (hf : ∀ entry ∈ r, ∀ out, f entry = some out → out.1 = entry.1) :
    Distinct (r.filterMap f) :=
  (keys_filterMap hf).nodup h

theorem get_filterMap (h : Distinct r)
    (hf : ∀ entry ∈ r, ∀ out, f entry = some out → out.1 = entry.1) (k : κ) :
    get k (r.filterMap f) = (get k r).bind fun a => (f (k, a)).map Prod.snd := by
  induction r with
  | nil => rfl
  | cons entry r ih =>
      obtain ⟨hnew, hr⟩ := List.nodup_cons.mp h
      have hrest := ih hr fun e he => hf e (List.mem_cons_of_mem _ he)
      rw [get_cons]
      cases hout : f entry with
      | none =>
          rw [List.filterMap_cons_none hout, hrest]
          by_cases hk : entry.1 = k
          · subst hk
            rw [get_eq_none.mpr hnew, if_pos rfl]
            simp [hout]
          · rw [if_neg hk]
      | some out =>
          rw [List.filterMap_cons_some hout, get_cons, hrest,
            hf entry List.mem_cons_self out hout]
          by_cases hk : entry.1 = k
          · subst hk
            simp [hout]
          · rw [if_neg hk, if_neg hk]

end FilterMap

/-! ## Filling -/

theorem fill_cons (entry : κ × α) : fill base (entry :: upper) =
    fill (if (get entry.1 base).isSome then base else set base entry.1 entry.2) upper := rfl

theorem Distinct.fill (h : Distinct base) (upper : Record κ α) : Distinct (fill base upper) := by
  induction upper generalizing base with
  | nil => exact h
  | cons entry upper ih =>
      rw [fill_cons]
      split
      · exact ih h
      · exact ih (h.set _ _)

theorem mem_keys_fill (other : κ) : other ∈ (fill base upper).map Prod.fst ↔
    other ∈ base.map Prod.fst ∨ other ∈ upper.map Prod.fst := by
  induction upper generalizing base with
  | nil => simp [fill]
  | cons entry upper ih =>
      rw [fill_cons, ih, List.map_cons, List.mem_cons]
      split
      · rename_i hhas
        have hmem : entry.1 ∈ base.map Prod.fst := mem_keys_iff.mpr hhas
        exact ⟨fun h => h.imp_right .inr, fun h => h.elim .inl
          fun h => h.elim (fun he => .inl (he ▸ hmem)) .inr⟩
      · rw [mem_keys_set, or_assoc, or_left_comm]

theorem get_fill (hbase : Distinct base) (hupper : Distinct upper) (k : κ) :
    get k (fill base upper) = (get k base).or (get k upper) := by
  induction upper generalizing base with
  | nil => simp [fill]
  | cons entry upper ih =>
      obtain ⟨hnew, hrest⟩ := List.nodup_cons.mp hupper
      rw [fill_cons, get_cons]
      split
      · rename_i hhas
        rw [ih hbase hrest]
        by_cases hk : entry.1 = k
        · subst hk
          obtain ⟨a, ha⟩ := Option.isSome_iff_exists.mp hhas
          simp [ha]
        · simp [hk]
      · rename_i hhas
        rw [ih (hbase.set _ _) hrest, get_set hbase]
        by_cases hk : k = entry.1
        · subst hk
          have hnone : get entry.1 base = none := by simpa using hhas
          simp [hnone]
        · simp [hk, Ne.symm hk]

/-! ## Merging -/

section Merge

variable {f : α → α → α}

theorem mergeWith_cons (entry : κ × α) :
    mergeWith f base (entry :: upper) =
      mergeWith f (set base entry.1 ((get entry.1 base).elim entry.2 (f · entry.2))) upper := by
  unfold mergeWith
  rw [List.foldl_cons]
  cases get entry.1 base with
  | none => rfl
  | some old => rfl

theorem Distinct.mergeWith (h : Distinct base) (upper : Record κ α) :
    Distinct (mergeWith f base upper) := by
  induction upper generalizing base with
  | nil => exact h
  | cons entry upper ih =>
      rw [mergeWith_cons]
      exact ih (h.set _ _)

theorem get_mergeWith (hbase : Distinct base) (hupper : Distinct upper) (k : κ) :
    get k (mergeWith f base upper) =
      match get k base, get k upper with
      | some a, some b => some (f a b)
      | some a, none => some a
      | none, b => b := by
  induction upper generalizing base with
  | nil =>
      rw [get_nil]
      change get k base = _
      cases get k base <;> rfl
  | cons entry upper ih =>
      obtain ⟨hnew, hrest⟩ := List.nodup_cons.mp hupper
      rw [mergeWith_cons, ih (hbase.set _ _) hrest, get_set hbase, get_cons]
      by_cases hk : k = entry.1
      · subst hk
        rw [get_eq_none.mpr hnew, if_pos rfl, if_pos rfl]
        cases get entry.1 base <;> rfl
      · rw [if_neg hk, if_neg (Ne.symm hk)]

theorem mapValues_mergeWith {g : κ → α → β} {f' : β → β → β} (h : Distinct base)
    (hjoin : ∀ k a b, g k (f a b) = f' (g k a) (g k b)) :
    mapValues g (mergeWith f base upper) = mergeWith f' (mapValues g base) (mapValues g upper) := by
  induction upper generalizing base with
  | nil => rfl
  | cons entry upper ih =>
      rw [mergeWith_cons, ih (h.set _ _), mapValues_set g h, mapValues_cons, mergeWith_cons,
        get_mapValues]
      cases get entry.1 base with
      | none => rfl
      | some old =>
          simp only [Option.elim, Option.map_some, hjoin]

theorem Distinct.ext {r' : Record κ α} (h : Distinct r)
    (hkeys : r.map Prod.fst = r'.map Prod.fst) (hget : ∀ k, get k r = get k r') : r = r' := by
  induction r generalizing r' with
  | nil => exact (List.map_eq_nil_iff.mp hkeys.symm).symm
  | cons entry r ih =>
      cases r' with
      | nil => cases hkeys
      | cons entry' r' =>
          obtain ⟨hkey, hrest⟩ := List.cons.inj hkeys
          obtain ⟨hnew, hdistinct⟩ := List.nodup_cons.mp h
          have hvalue := hget entry.1
          rw [get_cons, get_cons, if_pos rfl, if_pos hkey.symm] at hvalue
          have hentry : entry = entry' := Prod.ext hkey (Option.some.inj hvalue)
          rw [hentry, ih hdistinct hrest fun k => ?_]
          by_cases hk : entry.1 = k
          · rw [get_eq_none.mpr (hk ▸ hnew), get_eq_none.mpr (hrest ▸ hk ▸ hnew)]
          · have := hget k
            rwa [get_cons, get_cons, if_neg hk, if_neg (hkey ▸ hk)] at this

theorem keys_set : (set r k a).map Prod.fst =
    if k ∈ r.map Prod.fst then r.map Prod.fst else r.map Prod.fst ++ [k] := by
  by_cases h : k ∈ r.map Prod.fst
  · rw [if_pos h]
    unfold set upsert
    rw [if_pos (List.mem_map.mp h), replace_keys]
  · rw [if_neg h, set_new h, List.map_append]
    rfl

theorem keys_mergeWith (hupper : Distinct upper) : (mergeWith f base upper).map Prod.fst =
    base.map Prod.fst ++ (upper.map Prod.fst).filter (· ∉ base.map Prod.fst) := by
  induction upper generalizing base with
  | nil => simp [mergeWith]
  | cons entry upper ih =>
      obtain ⟨hnew, hrest⟩ := List.nodup_cons.mp hupper
      rw [mergeWith_cons, ih hrest, keys_set, List.map_cons]
      by_cases h : entry.1 ∈ base.map Prod.fst
      · rw [if_pos h, List.filter_cons_of_neg (by simpa using h)]
      · rw [if_neg h, List.filter_cons_of_pos (by simpa using h), List.append_assoc,
          List.singleton_append]
        congr 2
        refine List.filter_congr fun key hkey => ?_
        have hne : key ≠ entry.1 := fun heq => hnew (heq ▸ hkey)
        simp [hne]

theorem mergeWith_assoc (hf : ∀ a b c, f (f a b) c = f a (f b c)) (hbase : Distinct base)
    (hmiddle : Distinct middle) (hupper : Distinct upper) :
    mergeWith f (mergeWith f base middle) upper =
      mergeWith f base (mergeWith f middle upper) := by
  have hboth : Distinct (mergeWith f middle upper) := hmiddle.mergeWith upper
  refine Distinct.ext ((hbase.mergeWith middle).mergeWith upper) ?_ fun k => ?_
  · rw [keys_mergeWith hupper, keys_mergeWith hmiddle, keys_mergeWith hboth,
      keys_mergeWith hupper, List.filter_append, List.append_assoc, List.filter_filter]
    congr 2
    refine List.filter_congr fun key _ => ?_
    by_cases hin : key ∈ base.map Prod.fst <;> simp_all
  · rw [get_mergeWith (hbase.mergeWith middle) hupper, get_mergeWith hbase hmiddle,
      get_mergeWith hbase hboth, get_mergeWith hmiddle hupper]
    cases get k base <;> cases get k middle <;> cases get k upper <;> simp [hf]

theorem spread_eq_mergeWith (base upper : Record κ α) :
    spread base upper = mergeWith (fun _ b => b) base upper := by
  induction upper generalizing base with
  | nil => rfl
  | cons entry upper ih =>
      rw [spread_cons, ih, mergeWith_cons]
      cases get entry.1 base <;> rfl

theorem spread_assoc (hbase : Distinct base) (hmiddle : Distinct middle) (hupper : Distinct upper) :
    spread (spread base middle) upper = spread base (spread middle upper) := by
  simp only [spread_eq_mergeWith]
  exact mergeWith_assoc (fun _ _ _ => rfl) hbase hmiddle hupper

end Merge

/-! ## Other names for the keys -/

section MapKeys

variable {μ : Type*} {f : κ → μ}

def mapKeys (f : κ → μ) (r : Record κ α) : Record μ α := r.map fun entry => (f entry.1, entry.2)

omit [DecidableEq κ] in
@[simp] theorem mapKeys_cons (entry : κ × α) :
    mapKeys f (entry :: r) = (f entry.1, entry.2) :: mapKeys f r := rfl

omit [DecidableEq κ] in
theorem keys_mapKeys : (mapKeys f r).map Prod.fst = (r.map Prod.fst).map f := by
  simp [mapKeys]

omit [DecidableEq κ] in
theorem Distinct.mapKeys (hf : Function.Injective f) (h : Distinct r) :
    Distinct (mapKeys f r) := by
  unfold Record.Distinct Rows.Distinct
  rw [keys_mapKeys]
  exact h.map hf

variable [DecidableEq μ]

theorem get_mapKeys (hf : Function.Injective f) (k : κ) : get (f k) (mapKeys f r) = get k r := by
  induction r with
  | nil => rfl
  | cons entry r ih =>
      rw [mapKeys_cons, get_cons, get_cons, ih]
      simp [hf.eq_iff]

theorem mapKeys_set (hf : Function.Injective f) (h : Distinct r) :
    mapKeys f (set r k a) = set (mapKeys f r) (f k) a := by
  induction r with
  | nil => rfl
  | cons entry r ih =>
      obtain ⟨hnew, hr⟩ := List.nodup_cons.mp h
      by_cases hk : entry.1 = k
      · subst hk
        have hnew' : f entry.1 ∉ (mapKeys f r).map Prod.fst := by
          rw [keys_mapKeys]
          intro hmem
          obtain ⟨_, hother, heq⟩ := List.mem_map.mp hmem
          exact hnew (hf heq ▸ hother)
        have hset := set_cons_self (a := a) (f entry.1, entry.2) hnew'
        rw [set_cons_self entry hnew, mapKeys_cons, mapKeys_cons, hset]
      · have hset := set_cons_ne (r := mapKeys f r) (a := a) (f entry.1, entry.2)
          (hf.ne hk)
        rw [set_cons_ne entry hk, mapKeys_cons, mapKeys_cons, hset, ih hr]

theorem mapKeys_mergeWith (hf : Function.Injective f) {join : α → α → α} (h : Distinct base) :
    mapKeys f (mergeWith join base upper) = mergeWith join (mapKeys f base) (mapKeys f upper) := by
  induction upper generalizing base with
  | nil => rfl
  | cons entry upper ih =>
      rw [mergeWith_cons, ih (h.set _ _), mapKeys_set hf h, mapKeys_cons, mergeWith_cons,
        get_mapKeys hf]

end MapKeys

end Record
