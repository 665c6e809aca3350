import Mathlib.Data.List.Chain
import Mathlib.Data.List.Induction

/-!
# Runs of a labelled system

A run is a sequence of labelled steps.  Its rules are the induction
principles of a verification: an invariant of the state, an invariant of
the state and the labels so far, and the restriction of a system to the
steps a guard lets through.  A step that passes through intermediate
states is a chain, with the matching invariant rule.
-/

namespace Runs

universe u v

variable {σ : Type u} {ℓ : Type v}

/-- `Steps step s labels t`: the labels lead from `s` to `t`, one step each. -/
inductive Steps (step : σ → ℓ → σ → Prop) (s : σ) : List ℓ → σ → Prop where
  | nil : Steps step s [] s
  | snoc {t u : σ} {labels : List ℓ} {label : ℓ} :
      Steps step s labels t → step t label u → Steps step s (labels ++ [label]) u

/-- The steps of a system that meet a condition on the state before and the label. -/
def Guarded (guard : σ → ℓ → Prop) (step : σ → ℓ → σ → Prop) (s : σ) (label : ℓ) (t : σ) : Prop :=
  guard s label ∧ step s label t

namespace Steps

variable {step : σ → ℓ → σ → Prop} {s t u : σ} {labels more : List ℓ} {label : ℓ}

theorem invariant {I : σ → Prop} (hinit : I s)
    (hstep : ∀ a l b, I a → step a l b → I b) (h : Steps step s labels t) : I t := by
  induction h with
  | nil => exact hinit
  | snoc _ hlast ih => exact hstep _ _ _ ih hlast

theorem invariant_history {I : List ℓ → σ → Prop} (hinit : I [] s)
    (hstep : ∀ past a l b, I past a → step a l b → I (past ++ [l]) b)
    (h : Steps step s labels t) : I labels t := by
  induction h with
  | nil => exact hinit
  | snoc _ hlast ih => exact hstep _ _ _ _ ih hlast

theorem mono {step' : σ → ℓ → σ → Prop} (hle : ∀ a l b, step a l b → step' a l b)
    (h : Steps step s labels t) : Steps step' s labels t := by
  induction h with
  | nil => exact .nil
  | snoc _ hlast ih => exact .snoc ih (hle _ _ _ hlast)

theorem append (h : Steps step s labels t) (h' : Steps step t more u) :
    Steps step s (labels ++ more) u := by
  induction h' with
  | nil => simpa using h
  | snoc _ hlast ih =>
      rw [← List.append_assoc]
      exact .snoc ih hlast

theorem single (h : step s label t) : Steps step s [label] t := by
  simpa using Steps.snoc .nil h

theorem cons (h : step s label t) (h' : Steps step t more u) :
    Steps step s (label :: more) u := by
  simpa using (single h).append h'

end Steps

/-! ## Executing a system -/

def exec (next : σ → ℓ → Option σ) (s : σ) : List ℓ → Option σ
  | [] => some s
  | label :: rest => (next s label).bind fun t => exec next t rest

theorem exec_steps {step : σ → ℓ → σ → Prop} {next : σ → ℓ → Option σ}
    (hnext : ∀ a l b, next a l = some b → step a l b) {s t : σ} {labels : List ℓ}
    (h : exec next s labels = some t) : Steps step s labels t := by
  induction labels generalizing s with
  | nil =>
      cases h
      exact .nil
  | cons label rest ih =>
      obtain ⟨u, hu, ht⟩ := Option.bind_eq_some_iff.mp h
      exact Steps.cons (hnext s label u hu) (ih ht)

theorem exists_steps {step : σ → ℓ → σ → Prop} (next : σ → ℓ → Option σ)
    (hnext : ∀ a l b, next a l = some b → step a l b) (s : σ) (labels : List ℓ)
    {P : σ → Prop} [DecidablePred P] (h : (exec next s labels).any (fun t => P t) = true) :
    ∃ t, Steps step s labels t ∧ P t := by
  obtain ⟨t, hrun, hP⟩ := (Option.any_eq_true _ _).mp h
  exact ⟨t, exec_steps hnext hrun, by simpa using hP⟩

/-! ## Total systems -/

variable {J : σ → Prop} {R : σ → σ → Prop}

section
variable {next : σ → ℓ → σ} {s : σ} {labels : List ℓ} {label : ℓ} {P : σ → ℓ → σ → Prop}

/-- One of the steps of a run had the property `P`. -/
def Happened (next : σ → ℓ → σ) (s : σ) (labels : List ℓ) (P : σ → ℓ → σ → Prop) : Prop :=
  ∃ pre label post, labels = pre ++ label :: post ∧
    P (pre.foldl next s) label (next (pre.foldl next s) label)

theorem Happened.snoc (h : Happened next s labels P) : Happened next s (labels ++ [label]) P := by
  obtain ⟨pre, first, post, rfl, hP⟩ := h
  exact ⟨pre, first, post ++ [label], by simp, hP⟩

theorem Happened.append (h : Happened next s labels P) (more : List ℓ) :
    Happened next s (labels ++ more) P := by
  obtain ⟨pre, first, post, rfl, hP⟩ := h
  exact ⟨pre, first, post ++ more, by simp, hP⟩

theorem Happened.last (h : P (labels.foldl next s) label (next (labels.foldl next s) label)) :
    Happened next s (labels ++ [label]) P :=
  ⟨labels, label, [], rfl, h⟩

theorem happened_snoc_iff : Happened next s (labels ++ [label]) P ↔
    Happened next s labels P ∨ P (labels.foldl next s) label (next (labels.foldl next s) label) := by
  constructor
  · rintro ⟨pre, first, post, hlabels, hP⟩
    rcases List.eq_nil_or_concat post with rfl | ⟨init, last, rfl⟩
    · obtain ⟨rfl, hlast⟩ := List.append_inj' hlabels rfl
      cases hlast
      exact .inr hP
    · refine .inl ⟨pre, first, init, ?_, hP⟩
      rw [List.concat_eq_append, ← List.cons_append, ← List.append_assoc] at hlabels
      exact (List.append_inj' hlabels rfl).1
  · rintro (h | h)
    · exact h.snoc
    · exact .last h

theorem happened_cons_iff : Happened next s (label :: labels) P ↔
    P s label (next s label) ∨ Happened next (next s label) labels P := by
  constructor
  · rintro ⟨pre, first, post, hlabels, hP⟩
    cases pre with
    | nil =>
        cases hlabels
        exact .inl hP
    | cons head pre =>
        cases hlabels
        exact .inr ⟨pre, first, post, rfl, hP⟩
  · rintro (h | ⟨pre, first, post, rfl, hP⟩)
    · exact ⟨[], label, labels, rfl, h⟩
    · exact ⟨label :: pre, first, post, rfl, hP⟩

theorem not_happened_nil : ¬ Happened next s [] P := by
  rintro ⟨pre, label, post, hlabels, _⟩
  simp at hlabels

instance decidableHappened [∀ a l b, Decidable (P a l b)] (s : σ) :
    (labels : List ℓ) → Decidable (Happened next s labels P)
  | [] => .isFalse not_happened_nil
  | label :: labels =>
      have := decidableHappened (next s label) labels
      decidable_of_iff' _ happened_cons_iff

variable {I : σ → Prop} {bad : σ → ℓ → σ → Prop}

/-- What every step without `bad` keeps holds after a run in which `bad` never happened. -/
theorem invariant_of_not_happened (hstep : ∀ a l, I a → ¬ bad a l (next a l) → I (next a l))
    (hs : I s) (h : ¬ Happened next s labels bad) : I (labels.foldl next s) := by
  induction labels using List.reverseRecOn with
  | nil => exact hs
  | append_singleton labels label ih =>
      rw [happened_snoc_iff, not_or] at h
      rw [List.foldl_append]
      exact hstep _ _ (ih h.1) h.2

theorem not_happened (hstep : ∀ a l, I a → ¬ bad a l (next a l) → I (next a l))
    (hP : ∀ a l, I a → ¬ bad a l (next a l) → ¬ P a l (next a l)) (hs : I s)
    (h : ¬ Happened next s labels bad) : ¬ Happened next s labels P := by
  induction labels using List.reverseRecOn with
  | nil => exact not_happened_nil
  | append_singleton labels label ih =>
      rw [happened_snoc_iff, not_or] at h ⊢
      exact ⟨ih h.1, hP _ _ (invariant_of_not_happened hstep hs h.1) h.2⟩

/-- When `bad` steps are those that break `I`, it holds all along a run in which none happened. -/
theorem always_iff_not_happened (hJ : ∀ a l, J a → J (next a l))
    (hstep : ∀ a l, J a → I a → ¬ bad a l (next a l) → I (next a l))
    (hbreak : ∀ a l, J a → I a → bad a l (next a l) → ¬ I (next a l)) (hJs : J s) (hs : I s) :
    (∀ seen, seen <+: labels → I (seen.foldl next s)) ↔ ¬ Happened next s labels bad := by
  constructor
  · rintro halways ⟨pre, label, post, rfl, hbad⟩
    have hpre : J (pre.foldl next s) :=
      List.foldlRecOn pre next hJs fun a ha l _ => hJ a l ha
    refine hbreak _ _ hpre (halways pre (List.prefix_append _ _)) hbad ?_
    have hnext := halways (pre ++ [label]) ⟨post, by simp⟩
    rwa [List.foldl_append] at hnext
  · rintro hnot seen ⟨rest, rfl⟩
    have hseen : ¬ Happened next s seen bad := fun hbad => hnot (hbad.append rest)
    have hboth : ∀ a l, (J a ∧ I a) → ¬ bad a l (next a l) → J (next a l) ∧ I (next a l) :=
      fun a l h hgood => ⟨hJ a l h.1, hstep a l h.1 h.2 hgood⟩
    exact (invariant_of_not_happened (I := fun a => J a ∧ I a) hboth ⟨hJs, hs⟩ hseen).2

/-- What a step has exactly when the state had it and the step was not `bad` holds after a run
exactly when no step of the run was. -/
theorem holds_iff_not_happened (hJ : ∀ a l, J a → J (next a l))
    (hstep : ∀ a l, J a → (I (next a l) ↔ I a ∧ ¬ bad a l (next a l))) (hJs : J s) (hs : I s) :
    I (labels.foldl next s) ↔ ¬ Happened next s labels bad := by
  induction labels using List.reverseRecOn with
  | nil => exact ⟨fun _ => not_happened_nil, fun _ => hs⟩
  | append_singleton labels label ih =>
      have hlast : J (labels.foldl next s) :=
        List.foldlRecOn labels next hJs fun a ha l _ => hJ a l ha
      rw [List.foldl_append, happened_snoc_iff, not_or, ← ih]
      exact hstep _ label hlast

end

/-! ## Chains -/

theorem chain_invariant {I : σ → Prop} (hR : ∀ a b, I a → R a b → I b) :
    ∀ {s : σ} {states : List σ}, I s → List.IsChain R (s :: states) → ∀ t ∈ states, I t
  | _, [], _, _, _, ht => by cases ht
  | s, next :: rest, hs, hchain, t, ht => by
      rw [List.isChain_cons_cons] at hchain
      have hnext := hR s next hs hchain.1
      rcases List.mem_cons.mp ht with rfl | ht
      · exact hnext
      · exact chain_invariant hR hnext hchain.2 t ht

theorem chain_strengthen {I : σ → Prop} (hR : ∀ a b, I a → R a b → I b) :
    ∀ {s : σ} {states : List σ}, I s → List.IsChain R (s :: states) →
      List.IsChain (fun a b => I a ∧ R a b) (s :: states)
  | _, [], _, _ => List.isChain_singleton _
  | s, next :: rest, hs, hchain => by
      rw [List.isChain_cons_cons] at hchain ⊢
      exact ⟨⟨hs, hchain.1⟩, chain_strengthen hR (hR s next hs hchain.1) hchain.2⟩

end Runs
