import Mathlib.Data.Set.Insert
import Newide.Foundation.Records

/-!
# Gathering by key

A sequence is gathered into a record: the first element of a key starts
its value and each later one is added to it.  What is known of a value is
a summary of the elements of its key; where a summary says all there is to
the value, neither the order of the sequence nor repetition matters.
-/

universe u v w

namespace Record

variable {κ : Type u} {α : Type v} {β : Type w} {key : α → κ} {a b : α} {elements more : List α}
  {k : κ}

def ofKey (key : α → κ) (k : κ) (elements : List α) : Set α :=
  {a | a ∈ elements ∧ key a = k}

theorem ofKey_snoc_self : ofKey key (key a) (elements ++ [a]) =
    insert a (ofKey key (key a) elements) := by
  ext other
  simp only [ofKey, Set.mem_ofPred_eq, Set.mem_insert_iff, List.mem_append, List.mem_singleton]
  constructor
  · rintro ⟨hin | rfl, hkey⟩
    · exact .inr ⟨hin, hkey⟩
    · exact .inl rfl
  · rintro (rfl | ⟨hin, hkey⟩)
    · exact ⟨.inr rfl, rfl⟩
    · exact ⟨.inl hin, hkey⟩

theorem ofKey_snoc_ne (h : key a ≠ k) : ofKey key k (elements ++ [a]) = ofKey key k elements := by
  ext other
  simp only [ofKey, Set.mem_ofPred_eq, List.mem_append, List.mem_singleton]
  constructor
  · rintro ⟨hin | rfl, hkey⟩
    · exact ⟨hin, hkey⟩
    · exact absurd hkey h
  · exact fun ⟨hin, hkey⟩ => ⟨.inl hin, hkey⟩

theorem ofKey_congr (h : ∀ a, a ∈ elements ↔ a ∈ more) : ofKey key k elements = ofKey key k more :=
  Set.ext fun a => and_congr_left' (h a)

/-! ## Gathering -/

variable [DecidableEq κ]

def gatherInto (key : α → κ) (start : α → β) (add : β → α → β) (r : Record κ β) (a : α) :
    Record κ β :=
  match get (key a) r with
  | none => set r (key a) (start a)
  | some current => set r (key a) (add current a)

def gather (key : α → κ) (start : α → β) (add : β → α → β) (elements : List α) : Record κ β :=
  elements.foldl (gatherInto key start add) []

variable {start : α → β} {add : β → α → β} {r r' : Record κ β}

theorem gather_snoc : gather key start add (elements ++ [a]) =
    gatherInto key start add (gather key start add elements) a := by
  rw [gather, List.foldl_append]
  rfl

theorem Distinct.gatherInto (h : Distinct r) (a : α) :
    Distinct (gatherInto key start add r a) := by
  unfold Record.gatherInto
  split
  · exact h.set _ _
  · exact h.set _ _

theorem distinct_gather : Distinct (gather key start add elements) :=
  List.foldlRecOn elements (gatherInto key start add) List.nodup_nil fun _ h a _ => h.gatherInto a

theorem keys_gatherInto : (gatherInto key start add r a).map Prod.fst =
    if key a ∈ r.map Prod.fst then r.map Prod.fst else r.map Prod.fst ++ [key a] := by
  unfold gatherInto
  split
  · exact keys_set
  · exact keys_set

theorem keys_gather_append : (gather key start add elements).map Prod.fst <+:
    (gather key start add (elements ++ more)).map Prod.fst := by
  induction more using List.reverseRecOn with
  | nil =>
      exact ⟨[], by rw [List.append_nil, List.append_nil]⟩
  | append_singleton more last ih =>
      rw [← List.append_assoc, gather_snoc, keys_gatherInto]
      split
      · exact ih
      · exact ih.trans (List.prefix_append _ _)

theorem keys_gather_pair (h : key a ≠ key b) : [key a, key b] <+:
    (gather key start add (a :: b :: more)).map Prod.fst := by
  have hpair : (gather key start add [a, b]).map Prod.fst = [key a, key b] := by
    have hfirst : (gather key start add [a]).map Prod.fst = [key a] := rfl
    have hnew : key b ∉ [key a] := fun hin => h (List.mem_singleton.mp hin).symm
    rw [← List.singleton_append, gather_snoc, keys_gatherInto, hfirst, if_neg hnew,
      List.singleton_append]
  have hmore : (gather key start add [a, b]).map Prod.fst <+:
      (gather key start add ([a, b] ++ more)).map Prod.fst := keys_gather_append
  exact hpair ▸ hmore

/-! ## Summaries -/

variable {Summary : Set α → β → Prop}

theorem gather_spec (hstart : ∀ a, Summary {a} (start a))
    (hadd : ∀ (S : Set α) (a : α) (current : β), S.Nonempty → (∀ x ∈ S, key x = key a) →
      Summary S current → Summary (insert a S) (add current a)) :
    (get k (gather key start add elements) = none → ofKey key k elements = ∅) ∧
      ∀ current, get k (gather key start add elements) = some current →
        (ofKey key k elements).Nonempty ∧ Summary (ofKey key k elements) current := by
  induction elements using List.reverseRecOn with
  | nil => exact ⟨fun _ => by simp [ofKey], nofun⟩
  | append_singleton elements last ih =>
      rw [gather_snoc]
      by_cases hkey : key last = k
      · subst hkey
        have hsame : ∀ x ∈ ofKey key (key last) elements, key x = key last := fun x hx => hx.2
        rw [ofKey_snoc_self]
        unfold gatherInto
        cases hget : get (key last) (gather key start add elements) with
        | none =>
            rw [ih.1 hget, get_set distinct_gather, if_pos rfl, insert_empty_eq]
            refine ⟨nofun, fun current h => ?_⟩
            cases h
            exact ⟨Set.singleton_nonempty _, hstart last⟩
        | some before =>
            obtain ⟨hnonempty, hbefore⟩ := ih.2 before hget
            rw [get_set distinct_gather, if_pos rfl]
            refine ⟨nofun, fun current h => ?_⟩
            cases h
            exact ⟨Set.insert_nonempty _ _, hadd _ last before hnonempty hsame hbefore⟩
      · have hget : get k (gatherInto key start add (gather key start add elements) last) =
            get k (gather key start add elements) := by
          unfold gatherInto
          split
          · rw [get_set distinct_gather, if_neg (Ne.symm hkey)]
          · rw [get_set distinct_gather, if_neg (Ne.symm hkey)]
        rw [hget, ofKey_snoc_ne hkey]
        exact ih

theorem get_gather_congr (hstart : ∀ a, Summary {a} (start a))
    (hadd : ∀ (S : Set α) (a : α) (current : β), S.Nonempty → (∀ x ∈ S, key x = key a) →
      Summary S current → Summary (insert a S) (add current a))
    (hunique : ∀ current other, Summary (ofKey key k elements) current →
      Summary (ofKey key k elements) other → current = other) (hsame : ∀ a, a ∈ elements ↔ a ∈ more) :
    
    get k (gather key start add elements) = get k (gather key start add more) := by
  have hspec (elements : List α) := @gather_spec _ _ _ key elements k _ _ _ _ hstart hadd
  have hmore := hspec more
  rw [← ofKey_congr hsame] at hmore
  cases hget : get k (gather key start add elements) with
  | none =>
      cases hother : get k (gather key start add more) with
      | none => rfl
      | some other =>
          obtain ⟨hnonempty, _⟩ := hmore.2 other hother
          rw [(hspec elements).1 hget] at hnonempty
          exact absurd hnonempty Set.not_nonempty_empty
  | some current =>
      obtain ⟨hnonempty, hcurrent⟩ := (hspec elements).2 current hget
      cases hother : get k (gather key start add more) with
      | none =>
          rw [hmore.1 hother] at hnonempty
          exact absurd hnonempty Set.not_nonempty_empty
      | some other => exact congrArg some (hunique _ _ hcurrent (hmore.2 other hother).2)

theorem Distinct.perm_of_get (h : Distinct r) (h' : Distinct r') (hget : ∀ k, get k r = get k r') :
    r.Perm r' := by
  refine (List.perm_ext_iff_of_nodup h.of_map h'.of_map).mpr fun entry => ?_
  constructor
  · exact fun hin => get_eq_some_mem ((hget entry.1).symm.trans (h.get_of_mem hin))
  · exact fun hin => get_eq_some_mem ((hget entry.1).trans (h'.get_of_mem hin))

theorem get_foldl_gatherInto_of_not_mem (h : Distinct r) (hnot : ∀ a ∈ more, key a ≠ k) :
    get k (more.foldl (gatherInto key start add) r) = get k r := by
  induction more generalizing r with
  | nil => rfl
  | cons first rest ih =>
      rw [List.foldl_cons, ih (h.gatherInto first) fun a ha => hnot a (List.mem_cons_of_mem _ ha)]
      have hne : k ≠ key first := (hnot first List.mem_cons_self).symm
      unfold gatherInto
      split
      · rw [get_set h, if_neg hne]
      · rw [get_set h, if_neg hne]

theorem get_foldl_gatherInto_of_mem (h : Distinct r) (hmore : (more.map key).Nodup)
    (ha : a ∈ more) : get (key a) (more.foldl (gatherInto key start add) r) =
      some ((get (key a) r).elim (start a) fun current => add current a) := by
  induction more generalizing r with
  | nil => cases ha
  | cons first rest ih =>
      obtain ⟨hfirst, hrest⟩ := List.nodup_cons.mp hmore
      rw [List.foldl_cons]
      rcases List.mem_cons.mp ha with rfl | ha
      · have hnot (b : α) (hb : b ∈ rest) : key b ≠ key a := fun heq =>
          hfirst (heq ▸ List.mem_map_of_mem hb)
        rw [get_foldl_gatherInto_of_not_mem (h.gatherInto _) hnot]
        unfold gatherInto
        cases hget : get (key a) r with
        | none => simp [get_set h]
        | some current => simp [get_set h]
      · have hne : key a ≠ key first := fun heq => hfirst (heq ▸ List.mem_map_of_mem ha)
        rw [ih (h.gatherInto first) hrest ha]
        unfold gatherInto
        split
        · rw [get_set h, if_neg hne]
        · rw [get_set h, if_neg hne]

end Record

/-! ## The leader of a field -/

/-- What a field that need not be there comes to: one of the values of the highest rank. -/
def Leads {β : Type u} {γ : Type v} [LE γ] (rank : β → γ) (S : Set (Option β)) : Option β → Prop
  | none => ∀ x ∈ S, x = none
  | some b => some b ∈ S ∧ ∀ c, some c ∈ S → rank c ≤ rank b

namespace Leads

variable {β : Type u} {γ : Type v} [PartialOrder γ] {rank : β → γ} {S T : Set (Option β)}
  {x y : Option β} {b : β}

theorem single (x : Option β) : Leads rank {x} x := by
  cases x with
  | none => exact fun _ h => h
  | some b =>
      refine ⟨rfl, fun c hc => ?_⟩
      cases hc
      exact le_rfl

theorem keep (h : Leads rank S x) (hle : ∀ c, y = some c → ∃ b, x = some b ∧ rank c ≤ rank b) :
    Leads rank (insert y S) x := by
  cases x with
  | none =>
      rintro z (rfl | hz)
      · cases z with
        | none => rfl
        | some c =>
            obtain ⟨_, hb, _⟩ := hle c rfl
            cases hb
      · exact h z hz
  | some b =>
      refine ⟨.inr h.1, fun c hc => ?_⟩
      rcases hc with hc | hc
      · obtain ⟨_, hb, hrank⟩ := hle c hc.symm
        cases hb
        exact hrank
      · exact h.2 c hc

theorem take (h : Leads rank S x) (hle : ∀ c, x = some c → rank c ≤ rank b) :
    Leads rank (insert (some b) S) (some b) := by
  refine ⟨.inl rfl, fun c hc => ?_⟩
  rcases hc with hc | hc
  · cases hc
    exact le_rfl
  · cases x with
    | none => cases h _ hc
    | some lead => exact (h.2 c hc).trans (hle lead rfl)

theorem unique (h : Leads rank S x) (h' : Leads rank S y)
    (hrank : ∀ b c, some b ∈ S → some c ∈ S → rank b = rank c → b = c) : x = y := by
  cases x with
  | none =>
      cases y with
      | none => rfl
      | some c => cases h _ h'.1
  | some b =>
      cases y with
      | none => cases h' _ h.1
      | some c => rw [hrank b c h.1 h'.1 (le_antisymm (h'.2 b h.1) (h.2 c h'.1))]

theorem mono (h : Leads rank S (some b)) (h' : Leads rank T x) (hsub : S ⊆ T) :
    ∃ c, x = some c ∧ rank b ≤ rank c := by
  cases x with
  | none => cases h' _ (hsub h.1)
  | some c => exact ⟨c, rfl, h'.2 b (hsub h.1)⟩

end Leads
