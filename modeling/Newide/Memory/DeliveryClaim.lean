import Newide.Foundation.Rows
import Newide.Foundation.Runs
import Newide.Memory.DeliveryLifecycle

/-!
# Claims on a delivery channel

`src/memory/services/delivery-claim.ts`: the rules of the lifecycle run
as read, decide and write in the critical section of one record.  A call
that does not get the lock of a record does nothing to it; which locks a
call gets is up to the environment.

The record store keeps one record for each role and id.  A run is any
sequence of calls on it, by any workers and at any times.
-/

namespace Newide.Memory

open Fallible DeliveryMove Rows

variable {α : Type}

/-! ## The record store -/

structure DeliveryCandidate (α : Type) where
  roleId : String
  id : String
  record : DeliveryRecord α

open DeliveryCandidate

abbrev DeliveryKey := String × String

def DeliveryCandidate.key (candidate : DeliveryCandidate α) : DeliveryKey :=
  (candidate.roleId, candidate.id)

structure DeliveryStore (α : Type) where
  candidates : List (DeliveryCandidate α)
  distinct : Rows.Distinct DeliveryCandidate.key candidates

variable {other : DeliveryKey} {allows : DeliveryMove → Prop}
  {candidates : List (DeliveryCandidate α)} {input : ClaimDeliveryRecordInput} {now : Time}
  {finishes : DeliveryKey → Prop} {steps : List DeliveryStep}

variable {new : DeliveryRecord α}

namespace DeliveryStore

def read (store : DeliveryStore α) (key : DeliveryKey) : Option (DeliveryRecord α) :=
  (lookup DeliveryCandidate.key key store.candidates).map (·.record)

def write (store : DeliveryStore α) (key : DeliveryKey) (record : DeliveryRecord α) :
    DeliveryStore α where
  candidates := update DeliveryCandidate.key key (fun old => { old with record })
    store.candidates
  distinct := store.distinct.update fun _ => rfl

def list (store : DeliveryStore α) (roleId : Option String) : List (DeliveryCandidate α) :=
  store.candidates.filter fun candidate => roleId.all (· = candidate.roleId)

def submit (store : DeliveryStore α) (key : DeliveryKey) (record : DeliveryRecord α) :
    DeliveryStore α :=
  match hnew : lookup DeliveryCandidate.key key store.candidates with
  | some _ => store
  | none =>
      { candidates := store.candidates ++ [{ roleId := key.1, id := key.2, record }]
        distinct :=
          have habsent : ∀ old ∈ store.candidates,
              old.key ≠ DeliveryCandidate.key { roleId := key.1, id := key.2, record } :=
            lookup_eq_none.mp hnew
          store.distinct.append_new habsent }

variable {key : DeliveryKey} {record : DeliveryRecord α} {store : DeliveryStore α}

theorem read_submit :
    (store.submit key record).read other =
      if other = key then some ((store.read key).getD record) else store.read other := by
  unfold submit read
  split
  · next found hfound =>
      by_cases hother : other = key
      · rw [if_pos hother, hother, hfound]
        rfl
      · rw [if_neg hother]
  · next hnew =>
      have hkey : DeliveryCandidate.key { roleId := key.1, id := key.2, record } = key := rfl
      simp only
      rw [lookup_append_new (hkey ▸ hnew), hkey]
      by_cases hother : other = key
      · rw [if_pos hother, if_pos hother, hnew]
        rfl
      · rw [if_neg hother, if_neg hother]

theorem submit_kept (h : store.read other = some record) :
    (store.submit key new).read other = some record := by
  rw [read_submit]
  split
  · next heq => rw [← heq, h]; rfl
  · exact h

theorem submit_cases (h : (store.submit key new).read other = some record) :
    
    store.read other = some record ∨ other = key ∧ record = new := by
  rw [read_submit] at h
  split at h
  · next heq =>
      cases hbefore : store.read key with
      | none =>
          rw [hbefore] at h
          exact .inr ⟨heq, (Option.some.inj h).symm⟩
      | some old =>
          rw [hbefore] at h
          exact .inl (heq ▸ hbefore.trans h)
  · exact .inl h

theorem read_write :
    (store.write key record).read other =
      if other = key then (store.read other).map fun _ => record else store.read other := by
  simp only [read, write]
  rw [lookup_update (f := fun old : DeliveryCandidate α => { old with record }) fun _ => rfl]
  split
  · simp [Function.comp_def]
  · rfl

end DeliveryStore

/-! ## The calls -/

/-- `compareDeliveryCandidates`: first due first, then by age, then by id. -/
def DeliveryCandidate.before (left right : DeliveryCandidate α) : Prop :=
  match compare left.record.nextRetryAt right.record.nextRetryAt with
  | .lt => True
  | .gt => False
  | .eq =>
      match compare left.record.updatedAt right.record.updatedAt with
      | .lt => True
      | .gt => False
      | .eq => left.id ≤ right.id

instance : DecidableRel (before (α := α)) := fun left right => by
  unfold before
  split
  · infer_instance
  · infer_instance
  · split <;> infer_instance

abbrev Locks := DeliveryKey → Bool

/-- `mutateRecord`: read, decide and write under the lock of the record. -/
def mutateRecord (policy : DeliveryRetryPolicy) (locks : Locks) (store : DeliveryStore α)
    (key : DeliveryKey) (move : DeliveryMove) :
    Except String (Option (DeliveryRecord α) × DeliveryStore α) :=
  if locks key then
    match store.read key with
    | none => .ok (none, store)
    | some record =>
        match move.apply policy record with
        | .error message => .error message
        | .ok none => .ok (none, store)
        | .ok (some next) => .ok (some next, store.write key next)
  else .ok (none, store)

def answerOf (key : DeliveryKey) (answer : Option (DeliveryRecord α) × DeliveryStore α) :
    List (DeliveryCandidate α) × DeliveryStore α :=
  ((answer.1.map fun record => { roleId := key.1, id := key.2, record }).toList, answer.2)

/-- The candidates one by one, until one is claimed. -/
def claimFirst (policy : DeliveryRetryPolicy) (locks : Locks) (store : DeliveryStore α)
    (input : ClaimDeliveryRecordInput) :
    List (DeliveryCandidate α) → Except String (Option (DeliveryCandidate α) × DeliveryStore α)
  | [] => .ok (none, store)
  | candidate :: rest => do
      let (claimed, after) ← mutateRecord policy locks store candidate.key (.claim input)
      match claimed with
      | some record => return (some { candidate with record }, after)
      | none => claimFirst policy locks after input rest

def claimNextRecord (policy : DeliveryRetryPolicy) (locks : Locks) (store : DeliveryStore α)
    (roleId : Option String) (input : ClaimDeliveryRecordInput) :
    Except String (Option (DeliveryCandidate α) × DeliveryStore α) :=
  claimFirst policy locks store input
    (((store.list roleId).filter fun candidate => isDeliveryDue candidate.record input.now)
      |>.insertionSort before)

/-- Each expired record is read again under its own lock. -/
def restoreEach (policy : DeliveryRetryPolicy) (locks : Locks) (now : Time) :
    DeliveryStore α → List (DeliveryCandidate α) →
      Except String (List (DeliveryCandidate α) × DeliveryStore α)
  | store, [] => .ok ([], store)
  | store, candidate :: rest => do
      let (restored, after) ← mutateRecord policy locks store candidate.key (.expire now)
      let (others, final) ← restoreEach policy locks now after rest
      return ((answerOf candidate.key (restored, after)).1 ++ others, final)

def restoreExpiredRecords (policy : DeliveryRetryPolicy) (locks : Locks) (store : DeliveryStore α)
    (roleId : Option String) (now : Time) :
    Except String (List (DeliveryCandidate α) × DeliveryStore α) :=
  restoreEach policy locks now store
    (((store.list roleId).filter fun candidate => isDeliveryClaimExpired candidate.record now)
      |>.insertionSort before)

inductive DeliveryCall where
  | claim (key : DeliveryKey) (input : ClaimDeliveryRecordInput)
  | claimNext (roleId : Option String) (input : ClaimDeliveryRecordInput)
  | renew (key : DeliveryKey) (input : HolderInput) (leaseMs : Int)
  | complete (key : DeliveryKey) (input : HolderInput) (processorVersion : Option String)
  | fail (key : DeliveryKey) (input : HolderInput) (error : String) (retryable : Bool)
  | restoreExpired (roleId : Option String) (now : Time)
  | retryDeadLetter (key : DeliveryKey) (now : Time)

/-- A call: the records it answers with, and the store after it. -/
def DeliveryCall.exec (policy : DeliveryRetryPolicy) (locks : Locks) (store : DeliveryStore α) :
    DeliveryCall → Except String (List (DeliveryCandidate α) × DeliveryStore α)
  | .claim key input =>
      (mutateRecord policy locks store key (.claim input)).map (answerOf key)
  | .claimNext roleId input =>
      (claimNextRecord policy locks store roleId input).map fun answer =>
        (answer.1.toList, answer.2)
  | .renew key input leaseMs =>
      (mutateRecord policy locks store key (.renew input leaseMs)).map (answerOf key)
  | .complete key input processorVersion =>
      (mutateRecord policy locks store key (.complete input processorVersion)).map (answerOf key)
  | .fail key input error retryable =>
      (mutateRecord policy locks store key (.fail input error retryable)).map (answerOf key)
  | .restoreExpired roleId now => restoreExpiredRecords policy locks store roleId now
  | .retryDeadLetter key now =>
      (mutateRecord policy locks store key (.reset now)).map (answerOf key)

structure DeliveryStep where
  call : DeliveryCall
  locks : Locks := fun _ => true

/-- What a step answers with; a call that throws answers with nothing. -/
def DeliveryStep.returned (policy : DeliveryRetryPolicy) (store : DeliveryStore α)
    (step : DeliveryStep) : List (DeliveryCandidate α) :=
  match step.call.exec policy step.locks store with
  | .ok (returned, _) => returned
  | .error _ => []

/-- The store after a step; a call that throws has changed nothing. -/
def DeliveryStore.step (policy : DeliveryRetryPolicy) (store : DeliveryStore α)
    (step : DeliveryStep) : DeliveryStore α :=
  match step.call.exec policy step.locks store with
  | .ok (_, after) => after
  | .error _ => store

/-! ## What a call can do to one record -/

def DeliveryCall.Allows (key : DeliveryKey) (move : DeliveryMove) : DeliveryCall → Prop
  | .claim own input => own = key ∧ move = .claim input
  | .claimNext _ input => move = .claim input
  | .renew own input leaseMs => own = key ∧ move = .renew input leaseMs
  | .complete own input processorVersion => own = key ∧ move = .complete input processorVersion
  | .fail own input error retryable => own = key ∧ move = .fail input error retryable
  | .restoreExpired _ now => move = .expire now
  | .retryDeadLetter own now => own = key ∧ move = .reset now

def DeliveryCall.isClaim : DeliveryCall → Bool
  | .claim .. => true
  | .claimNext .. => true
  | _ => false

def DeliveryCall.holder : DeliveryCall → Option (DeliveryKey × HolderInput)
  | .renew key input _ => some (key, input)
  | .complete key input _ => some (key, input)
  | .fail key input _ _ => some (key, input)
  | _ => none

section
variable {policy : DeliveryRetryPolicy} {locks : Locks} {store after : DeliveryStore α}
  {key : DeliveryKey} {record next : DeliveryRecord α} {move : DeliveryMove} {call : DeliveryCall}
  {answer : Option (DeliveryRecord α)} {returned : List (DeliveryCandidate α)}

theorem DeliveryCall.Allows.isClaim (h : call.Allows key move) : move.isClaim = call.isClaim := by
  cases call with
  | claimNext | restoreExpired =>
      cases h
      rfl
  | claim | renew | complete | fail | retryDeadLetter =>
      cases h.2
      rfl

theorem DeliveryCall.Allows.reset (h : call.Allows key move) (hreset : move.isReset = true) :
    ∃ now, call = .retryDeadLetter key now := by
  cases call with
  | claimNext | restoreExpired =>
      cases h
      cases hreset
  | claim | renew | complete | fail =>
      cases h.2
      cases hreset
  | retryDeadLetter own now =>
      cases h.1
      exact ⟨now, rfl⟩

theorem mutateRecord_cases (h : mutateRecord policy locks store key move = .ok (answer, after)) :
    (answer = none ∧ after = store) ∨
    ∃ record next, store.read key = some record ∧ move.apply policy record = .ok (some next) ∧
      answer = some next ∧ after = store.write key next := by
  unfold mutateRecord at h
  split at h
  · split at h
    · cases h
      exact .inl ⟨rfl, rfl⟩
    · next record hread =>
        split at h
        · cases h
        · cases h
          exact .inl ⟨rfl, rfl⟩
        · next next happly =>
            cases h
            exact .inr ⟨record, next, hread, happly, rfl, rfl⟩
  · cases h
    exact .inl ⟨rfl, rfl⟩

/-- How a call leaves the record of a key: alone and out of its answer, or moved. -/
inductive RecordStep (policy : DeliveryRetryPolicy) (allows : DeliveryMove → Prop)
    (store after : DeliveryStore α) (returned : List (DeliveryCandidate α)) (key : DeliveryKey) :
    Prop where
  | same (hread : after.read key = store.read key)
      (hnot : ∀ candidate ∈ returned, candidate.key ≠ key) :
      RecordStep policy allows store after returned key
  | moved {record next : DeliveryRecord α} {move : DeliveryMove}
      (hbefore : store.read key = some record) (hafter : after.read key = some next)
      (hmove : move.apply policy record = .ok (some next)) (hallows : allows move)
      (hin : ∃ candidate ∈ returned, candidate.key = key) :
      RecordStep policy allows store after returned key

theorem RecordStep.write (hread : store.read key = some record)
    (hmove : move.apply policy record = .ok (some next)) (hallows : allows move)
    {candidate : DeliveryCandidate α} (hkey : candidate.key = key) (other : DeliveryKey) :
    RecordStep policy (fun move => other = key ∧ allows move) store (store.write key next)
      [candidate] other := by
  by_cases hother : other = key
  · subst hother
    refine .moved hread ?_ hmove ⟨rfl, hallows⟩ ⟨candidate, List.mem_singleton_self _, hkey⟩
    rw [DeliveryStore.read_write, if_pos rfl, hread]
    rfl
  · refine .same ?_ fun found hfound => ?_
    · rw [DeliveryStore.read_write, if_neg hother]
    · rw [List.mem_singleton.mp hfound, hkey]
      exact fun h => hother h.symm

theorem RecordStep.mono {allows' : DeliveryMove → Prop}
    (h : RecordStep policy allows store after returned key)
    (hle : ∀ move, allows move → allows' move) :
    RecordStep policy allows' store after returned key := by
  cases h with
  | same hread hnot => exact .same hread hnot
  | moved hbefore hafter hmove hallows hin => exact .moved hbefore hafter hmove (hle _ hallows) hin

theorem mutateRecord_step (h : mutateRecord policy locks store key move = .ok (answer, after))
    (other : DeliveryKey) :
    RecordStep policy (fun made => key = other ∧ made = move) store after
      (answerOf key (answer, after)).1 other := by
  rcases mutateRecord_cases h with ⟨rfl, rfl⟩ | ⟨record, next, hread, happly, rfl, rfl⟩
  · exact .same rfl fun candidate hin => (by cases hin)
  · refine (RecordStep.write hread happly (rfl : _ = move) rfl other).mono ?_
    rintro made ⟨rfl, rfl⟩
    exact ⟨rfl, rfl⟩

theorem claimFirst_step {claimed : Option (DeliveryCandidate α)}
    (h : claimFirst policy locks store input candidates = .ok (claimed, after))
    (other : DeliveryKey) :
    RecordStep policy (· = .claim input) store after claimed.toList other := by
  induction candidates generalizing store with
  | nil =>
      cases h
      exact .same rfl fun candidate hin => (by cases hin)
  | cons candidate rest ih =>
      simp only [claimFirst, bind_eq_ok] at h
      obtain ⟨⟨answer, middle⟩, hmutate, h⟩ := h
      rcases mutateRecord_cases hmutate with ⟨rfl, rfl⟩ | ⟨record, next, hread, happly, rfl, rfl⟩
      · exact ih h
      · cases h
        have hkey : DeliveryCandidate.key { candidate with record := next } = candidate.key := rfl
        refine (RecordStep.write hread happly (rfl : _ = claim input) hkey other).mono ?_
        exact fun made hmade => hmade.2.symm

theorem mutateRecord_written
    (h : mutateRecord policy locks store key move = .ok (some record, after)) :
    after.read key = some record := by
  rcases mutateRecord_cases h with ⟨hnone, _⟩ | ⟨old, next, hread, _, hnext, rfl⟩
  · cases hnone
  · cases hnext
    rw [DeliveryStore.read_write, if_pos rfl, hread]
    rfl

theorem claimFirst_written {claimed : DeliveryCandidate α}
    (h : claimFirst policy locks store input candidates = .ok (some claimed, after)) :
    after.read claimed.key = some claimed.record := by
  induction candidates generalizing store with
  | nil => cases h
  | cons first rest ih =>
      simp only [claimFirst, bind_eq_ok] at h
      obtain ⟨⟨answer, middle⟩, hmutate, h⟩ := h
      cases answer with
      | none => exact ih h
      | some record =>
          cases h
          exact mutateRecord_written hmutate

theorem DeliveryCall.claimed_read (hclaim : call.isClaim = true)
    (h : call.exec policy locks store = .ok (returned, after)) :
    ∀ candidate ∈ returned, after.read candidate.key = some candidate.record := by
  intro candidate hin
  cases call with
  | renew | complete | fail | restoreExpired | retryDeadLetter => cases hclaim
  | claim key input =>
      obtain ⟨⟨answer, final⟩, hmutate, hpair⟩ := mapped_eq_ok.mp h
      cases hpair
      cases answer with
      | none => cases hin
      | some record =>
          obtain rfl := List.mem_singleton.mp hin
          exact mutateRecord_written hmutate
  | claimNext roleId input =>
      obtain ⟨⟨claimed, final⟩, hnext, hpair⟩ := mapped_eq_ok.mp h
      cases hpair
      cases claimed with
      | none => cases hin
      | some record =>
          obtain rfl := List.mem_singleton.mp hin
          exact claimFirst_written hnext

theorem expire_once (h : (expire now).apply policy record = .ok (some next)) :
    (expire now).apply policy next = .ok none := by
  have hnot : next.status ≠ .processing := by
    cases effect h with
    | leave _ hstatus => rcases hstatus with h | h | ⟨h, _⟩ <;> simp [h]
  simp [apply, isDeliveryClaimExpired, hnot]

theorem restoreEach_step (h : restoreEach policy locks now store candidates = .ok (returned, after))
    (other : DeliveryKey) :
    RecordStep policy (· = .expire now) store after returned other := by
  induction candidates generalizing store returned with
  | nil =>
      cases h
      exact .same rfl fun candidate hin => (by cases hin)
  | cons candidate rest ih =>
      simp only [restoreEach, bind_eq_ok, pure_eq_ok] at h
      obtain ⟨⟨answer, middle⟩, hmutate, ⟨others, final⟩, hrest, hpair⟩ := h
      cases hpair
      have hfirst := (mutateRecord_step hmutate other).mono fun made hmade => hmade.2
      cases ih hrest with
      | same hread hnot =>
          cases hfirst with
          | same hread' hnot' =>
              refine .same (hread.trans hread') fun found hfound => ?_
              rcases List.mem_append.mp hfound with hfound | hfound
              · exact hnot' found hfound
              · exact hnot found hfound
          | moved hbefore hafter hmove hallows hin =>
              obtain ⟨found, hfound, hfoundKey⟩ := hin
              exact .moved hbefore (hread.trans hafter) hmove hallows
                ⟨found, List.mem_append_left _ hfound, hfoundKey⟩
      | moved hbefore hafter hmove hallows hin =>
          cases hfirst with
          | same hread' hnot' =>
              obtain ⟨found, hfound, hfoundKey⟩ := hin
              exact .moved (hread' ▸ hbefore) hafter hmove hallows
                ⟨found, List.mem_append_right _ hfound, hfoundKey⟩
          | moved hbefore' hafter' hmove' hallows' hin' =>
              cases hallows
              cases hallows'
              obtain rfl := Option.some.inj (hafter'.symm.trans hbefore)
              rw [expire_once hmove'] at hmove
              cases hmove

theorem DeliveryCall.exec_step (h : call.exec policy locks store = .ok (returned, after))
    (key : DeliveryKey) :
    RecordStep policy (call.Allows key) store after returned key := by
  cases call with
  | claim | renew | complete | fail | retryDeadLetter =>
      obtain ⟨⟨answer, final⟩, hmutate, hpair⟩ := mapped_eq_ok.mp h
      cases hpair
      exact mutateRecord_step hmutate key
  | claimNext roleId input =>
      obtain ⟨⟨claimed, final⟩, hclaim, hpair⟩ := mapped_eq_ok.mp h
      cases hpair
      exact claimFirst_step hclaim key
  | restoreExpired roleId now => exact restoreEach_step h key

end

/-! ## What a call leaves -/

/-- Every record stays, with the fields of its channel; only those of `finishes` become processed. -/
structure DeliveryStore.Evolves (finishes : DeliveryKey → Prop) (store after : DeliveryStore α) :
    Prop where
  kept : ∀ key record, store.read key = some record →
    ∃ next, after.read key = some next ∧ next.item = record.item
  back : ∀ key next, after.read key = some next →
    ∃ record, store.read key = some record ∧ next.item = record.item ∧
      (next.status = .processed → record.status = .processed ∨ finishes key)

theorem DeliveryStore.Evolves.rfl {store : DeliveryStore α} :
    store.Evolves finishes store where
  kept _ record h := ⟨record, h, Eq.refl _⟩
  back _ record h := ⟨record, h, Eq.refl _, .inl⟩

theorem DeliveryStore.Evolves.of_recordStep {policy : DeliveryRetryPolicy}
    {store after : DeliveryStore α} {returned : List (DeliveryCandidate α)}
    {allows : DeliveryKey → DeliveryMove → Prop}
    (h : ∀ key, RecordStep policy (allows key) store after returned key)
    (hcomplete : ∀ key input version, allows key (.complete input version) → finishes key) :
    store.Evolves finishes after where
  kept key record hread := by
    cases h key with
    | same hsame => exact ⟨record, hsame.trans hread, Eq.refl _⟩
    | moved hbefore hafter hmove =>
        obtain rfl := Option.some.inj (hbefore.symm.trans hread)
        exact ⟨_, hafter, item_eq hmove⟩
  back key next hread := by
    cases h key with
    | same hsame => exact ⟨next, hsame ▸ hread, Eq.refl _, .inl⟩
    | moved hbefore hafter hmove hallows =>
        obtain rfl := Option.some.inj (hafter.symm.trans hread)
        refine ⟨_, hbefore, item_eq hmove, fun hprocessed => .inr ?_⟩
        obtain ⟨input, version, rfl⟩ := complete_of_processed hmove hprocessed
        exact hcomplete key input version hallows

/-! ## Steps and runs -/

section
variable {policy : DeliveryRetryPolicy} {store : DeliveryStore α} {step : DeliveryStep}
  {key : DeliveryKey}

theorem DeliveryStore.step_cases (policy : DeliveryRetryPolicy) (store : DeliveryStore α)
    (step : DeliveryStep) (key : DeliveryKey) :
    RecordStep policy (step.call.Allows key) store (store.step policy step)
      (step.returned policy store) key := by
  unfold DeliveryStore.step DeliveryStep.returned
  cases hexec : step.call.exec policy step.locks store with
  | error message => exact .same rfl fun candidate hin => (by cases hin)
  | ok answer => exact DeliveryCall.exec_step hexec key

/-- The step claims the record of the key. -/
def DeliveryStep.Claims (policy : DeliveryRetryPolicy) (store : DeliveryStore α) (key : DeliveryKey)
    (step : DeliveryStep) : Prop :=
  step.call.isClaim = true ∧ ∃ candidate ∈ step.returned policy store, candidate.key = key

instance : Decidable (step.Claims policy store key) :=
  inferInstanceAs (Decidable (_ ∧ ∃ candidate ∈ step.returned policy store, candidate.key = key))

def DeliveryStep.Resets (policy : DeliveryRetryPolicy) (store : DeliveryStore α) (key : DeliveryKey)
    (step : DeliveryStep) : Prop :=
  (∃ now, step.call = .retryDeadLetter key now) ∧
    ∃ candidate ∈ step.returned policy store, candidate.key = key

def claimCount (policy : DeliveryRetryPolicy) (key : DeliveryKey) :
    DeliveryStore α → List DeliveryStep → Nat
  | _, [] => 0
  | store, step :: rest =>
      (if step.Claims policy store key then 1 else 0) +
        claimCount policy key (store.step policy step) rest

/-- No step of the sequence resets the record of the key. -/
def NoReset (policy : DeliveryRetryPolicy) (key : DeliveryKey) :
    DeliveryStore α → List DeliveryStep → Prop
  | _, [] => True
  | store, step :: rest =>
      ¬ step.Resets policy store key ∧ NoReset policy key (store.step policy step) rest

/-- Every record of the store has the shape of the lifecycle. -/
def DeliveryStore.Represented (policy : DeliveryRetryPolicy) (store : DeliveryStore α) : Prop :=
  ∀ key record, store.read key = some record → record.Represented policy

theorem represented_step (hmax : 1 ≤ policy.maxAttempts) (h : store.Represented policy) :
    (store.step policy step).Represented policy := by
  intro key record hread
  cases store.step_cases policy step key with
  | same hsame => exact h key record (hsame ▸ hread)
  | moved hbefore hafter hmove =>
      obtain rfl := Option.some.inj (hafter.symm.trans hread)
      exact (effect hmove).represented (h key _ hbefore) hmax

theorem represented_run (hmax : 1 ≤ policy.maxAttempts) (h : store.Represented policy)
    (steps : List DeliveryStep) : (steps.foldl (DeliveryStore.step policy) store).Represented policy := by
  induction steps generalizing store with
  | nil => exact h
  | cons step rest ih => exact ih (represented_step hmax h)

variable {record : DeliveryRecord α}

theorem claimCount_le (hmax : 1 ≤ policy.maxAttempts) (h : store.Represented policy)
    (hread : store.read key = some record) (hno : NoReset policy key store steps) :
    record.attemptCount + claimCount policy key store steps ≤ policy.maxAttempts := by
  induction steps generalizing store record with
  | nil => exact (h key record hread).attempts_le
  | cons step rest ih =>
      obtain ⟨hnot, hrest⟩ := hno
      have hrep : (store.step policy step).Represented policy := represented_step hmax h
      simp only [claimCount]
      cases store.step_cases policy step key with
      | same hsame hout =>
          have hclaims : ¬ step.Claims policy store key := fun hclaims =>
            let ⟨candidate, hin, hkey⟩ := hclaims.2
            hout candidate hin hkey
          rw [if_neg hclaims, Nat.zero_add]
          exact ih hrep (hsame.trans hread) hrest
      | moved hbefore hafter hmove hallows hin =>
          obtain rfl := Option.some.inj (hbefore.symm.trans hread)
          have hreset := mt hallows.reset fun hreset => hnot ⟨hreset, hin⟩
          have hcount := (effect hmove).attempts (Bool.eq_false_iff.mpr hreset)
          have hclaims : step.Claims policy store key ↔ step.call.isClaim = true :=
            and_iff_left hin
          have hle := ih hrep hafter hrest
          simp only [hcount, hallows.isClaim] at hle
          simp only [hclaims]
          omega

theorem claimCount_none (hread : store.read key = none) :
    claimCount policy key store steps = 0 := by
  induction steps generalizing store with
  | nil => rfl
  | cons step rest ih =>
      simp only [claimCount]
      cases store.step_cases policy step key with
      | same hsame hout =>
          have hclaims : ¬ step.Claims policy store key := fun hclaims =>
            let ⟨candidate, hin, hkey⟩ := hclaims.2
            hout candidate hin hkey
          rw [if_neg hclaims, Nat.zero_add]
          exact ih (hsame.trans hread)
      | moved hbefore => simp [hbefore] at hread

/-- What one step never does. -/
structure LifecycleStep (policy : DeliveryRetryPolicy) (store : DeliveryStore α)
    (step : DeliveryStep) : Prop where
  /-- A call with a token that is not the current one, or after the lease, changes nothing. -/
  fenced : ∀ key holder record, step.call.holder = some (key, holder) →
    store.read key = some record →
    (record.claimToken ≠ some holder.claimToken ∨
      ∀ expires ∈ record.leaseExpiresAt, expires ≤ holder.now) →
    store.step policy step = store
  processed : ∀ key record, store.read key = some record → record.status = .processed →
    (store.step policy step).read key = some record
  deadLetter : ∀ key record, store.read key = some record → record.status = .deadLetter →
    (store.step policy step).read key = some record ∨ ∃ now, step.call = .retryDeadLetter key now

theorem DeliveryCall.exec_fenced {call : DeliveryCall} {locks : Locks} {holder : HolderInput}
    {answer : List (DeliveryCandidate α) × DeliveryStore α}
    (hholder : call.holder = some (key, holder)) (hread : store.read key = some record)
    (hnot : ¬ isHeldBy record holder) (h : call.exec policy locks store = .ok answer) :
    answer.2 = store := by
  have fenced : ∀ move : DeliveryMove, move.holder = some holder →
      (mutateRecord policy locks store key move).map (answerOf key) = .ok answer →
      answer.2 = store := by
    intro move hmove h
    obtain ⟨⟨made, final⟩, hmutate, hpair⟩ := mapped_eq_ok.mp h
    cases hpair
    rcases mutateRecord_cases hmutate with ⟨_, hsame⟩ | ⟨found, next, hfound, happly, _, _⟩
    · exact hsame
    · obtain rfl := Option.some.inj (hread.symm.trans hfound)
      exact absurd (held happly hmove) hnot
  cases call with
  | claim | claimNext | restoreExpired | retryDeadLetter => cases hholder
  | renew | complete | fail =>
      cases hholder
      exact fenced _ rfl h

theorem lifecycleStep (policy : DeliveryRetryPolicy) (store : DeliveryStore α)
    (step : DeliveryStep) : LifecycleStep policy store step where
  fenced key holder record hholder hread hstale := by
    have hnot : ¬ isHeldBy record holder := fun hheld => by
      rcases hstale with htoken | hlease
      · exact htoken hheld.2.1
      · exact hheld.2.2.2 ⟨hheld.1, hlease⟩
    unfold DeliveryStore.step
    cases hexec : step.call.exec policy step.locks store with
    | error message => rfl
    | ok answer => exact DeliveryCall.exec_fenced hholder hread hnot hexec
  processed key record hread hprocessed := by
    cases store.step_cases policy step key with
    | same hsame => exact hsame.trans hread
    | moved hbefore _ hmove =>
        obtain rfl := Option.some.inj (hbefore.symm.trans hread)
        exact absurd hprocessed (effect hmove).ne_processed
  deadLetter key record hread hdead := by
    cases store.step_cases policy step key with
    | same hsame => exact .inl (hsame.trans hread)
    | moved hbefore _ hmove hallows =>
        obtain rfl := Option.some.inj (hbefore.symm.trans hread)
        exact .inr (hallows.reset ((effect hmove).reset_of_deadLetter hdead))

/-- The lifecycle of the records of a channel that begin as they are submitted: after any
sequence of calls, by any workers, with any locks and at any times, every record has its
shape, no further call breaks the fence or revives a record, and a record is claimed at most
`maxAttempts` times before the next manual retry of it. -/
theorem delivery_lifecycle (policy : DeliveryRetryPolicy) (hmax : 1 ≤ policy.maxAttempts)
    (store : DeliveryStore α) (hnew : ∀ key record, store.read key = some record → record.New)
    (steps : List DeliveryStep) :
    let reached := steps.foldl (DeliveryStore.step policy) store
    reached.Represented policy ∧ (∀ step, LifecycleStep policy reached step) ∧
      ∀ key more, NoReset policy key reached more →
        claimCount policy key reached more ≤ policy.maxAttempts := by
  intro reached
  have hrep : reached.Represented policy :=
    represented_run hmax (fun key record hread => (hnew key record hread).represented hmax) steps
  refine ⟨hrep, lifecycleStep policy reached, fun key more hno => ?_⟩
  cases hread : reached.read key with
  | none => exact claimCount_none hread ▸ Nat.zero_le _
  | some record => exact (Nat.le_add_left _ _).trans (claimCount_le hmax hrep hread hno)

def submittedStore : DeliveryStore Unit where
  candidates := [{ roleId := "role", id := "delivery", record := { item := (), updatedAt := 0 } }]
  distinct := List.nodup_singleton _

/-- Two workers, one of them too late, and a last claim that is let run out. -/
def sampleSteps : List DeliveryStep :=
  [{ call := .claimNext none { owner := "a", now := 1, leaseMs := 10, claimToken := "t1" } },
   { call := .restoreExpired none 20 },
   { call := .claim ("role", "delivery") { owner := "b", now := 21, leaseMs := 10, claimToken := "t2" } },
   { call := .complete ("role", "delivery") { claimToken := "t1", now := 22 } none },
   { call := .fail ("role", "delivery") { claimToken := "t2", now := 23 } "busy" true }]

theorem delivery_lifecycle_sample :
    let reached := sampleSteps.foldl (DeliveryStore.step defaultDeliveryRetryPolicy) submittedStore
    claimCount defaultDeliveryRetryPolicy ("role", "delivery") submittedStore sampleSteps = 2 ∧
      reached.Represented defaultDeliveryRetryPolicy :=
  ⟨by decide, (delivery_lifecycle defaultDeliveryRetryPolicy (by decide) submittedStore
    (fun key record hread => by
      obtain ⟨candidate, hfound, rfl⟩ := Option.map_eq_some_iff.mp hread
      obtain rfl := List.mem_singleton.mp (lookup_mem hfound)
      exact ⟨rfl, rfl, rfl, rfl⟩) sampleSteps).1⟩

end

end Newide.Memory
