import Mathlib.Data.Option.Basic

/-!
# Journals

A journal says, entry by entry, what the rows of a table have become.  An
entry concerns at most one key and carries the value of that key from
then on; replaying the journal keeps the last value of each key.
-/

universe u v w

structure JournalReading (ε : Type u) (κ : Type v) (σ : Type w) where
  /-- The key an entry is about. -/
  concern : ε → Option κ
  value : ε → σ

namespace JournalReading

variable {ε : Type u} {κ : Type v} {σ : Type w} [DecidableEq κ]
  {reading : JournalReading ε κ σ} {log : List ε} {entry : ε}

/-- The value of `k` after one more entry. -/
def note (reading : JournalReading ε κ σ) (k : κ) (shown : Option σ) (entry : ε) : Option σ :=
  if reading.concern entry = some k then some (reading.value entry) else shown

/-- The value of `k` after a journal. -/
def replay (reading : JournalReading ε κ σ) (log : List ε) (k : κ) : Option σ :=
  log.foldl (reading.note k) none

@[simp] theorem replay_snoc (k : κ) :
    reading.replay (log ++ [entry]) k = reading.note k (reading.replay log k) entry := by
  simp [replay]

variable {k : κ} {table : κ → Option σ} {holds : κ → σ → Prop}

theorem note_self (h : reading.concern entry = some k) (shown : Option σ) :
    reading.note k shown entry = some (reading.value entry) :=
  if_pos h

theorem note_ne (h : reading.concern entry ≠ some k) (shown : Option σ) :
    reading.note k shown entry = shown :=
  if_neg h

/-! ## A table with one row for each key -/

def Mirrors (reading : JournalReading ε κ σ) (log : List ε) (table : κ → Option σ) : Prop :=
  ∀ k, reading.replay log k = table k

theorem Mirrors.snoc {table' : κ → Option σ} (h : reading.Mirrors log table)
    (hstep : ∀ k, table' k = reading.note k (table k) entry) :
    reading.Mirrors (log ++ [entry]) table' := by
  intro k
  rw [replay_snoc, h k, hstep k]

theorem Mirrors.skip (h : reading.Mirrors log table) (hentry : reading.concern entry = none) :
    reading.Mirrors (log ++ [entry]) table :=
  h.snoc fun k => (note_ne (by simp [hentry]) (table k)).symm

/-! ## A table with several rows for a key -/

/-- The journal replays to the value of one of the rows of each key. -/
structure Reflects (reading : JournalReading ε κ σ) (log : List ε) (holds : κ → σ → Prop) :
    Prop where
  shown {k : κ} {v : σ} : reading.replay log k = some v → holds k v
  told {k : κ} {v : σ} : holds k v → reading.replay log k ≠ none

theorem Reflects.snoc {holds' : κ → σ → Prop} (h : reading.Reflects log holds)
    (hentry : reading.concern entry = some k) (hnew : holds' k (reading.value entry))
    (hother : ∀ other v, other ≠ k → (holds' other v ↔ holds other v)) :
    reading.Reflects (log ++ [entry]) holds' := by
  have hreplay (other : κ) (hne : other ≠ k) :
      reading.replay (log ++ [entry]) other = reading.replay log other := by
    rw [replay_snoc, note_ne (by simpa [hentry] using hne.symm)]
  constructor
  · intro other v hshown
    by_cases hk : other = k
    · subst hk
      rw [replay_snoc, note_self hentry] at hshown
      exact Option.some.inj hshown ▸ hnew
    · rw [hreplay other hk] at hshown
      exact (hother other v hk).mpr (h.shown hshown)
  · intro other v hholds
    by_cases hk : other = k
    · subst hk
      simp [note_self hentry]
    · rw [hreplay other hk]
      exact h.told ((hother other v hk).mp hholds)

theorem Reflects.skip (h : reading.Reflects log holds) (hentry : reading.concern entry = none) :
    reading.Reflects (log ++ [entry]) holds := by
  have hreplay (k : κ) : reading.replay (log ++ [entry]) k = reading.replay log k := by
    rw [replay_snoc, note_ne (by simp [hentry])]
  exact ⟨fun hshown => h.shown (hreplay _ ▸ hshown), fun hholds => hreplay _ ▸ h.told hholds⟩

end JournalReading
