import Mathlib.Algebra.Group.Nat.Defs
import Newide.Foundation.Fallible

/-!
# The delivery lifecycle

`src/memory/services/delivery-lifecycle.ts`: the rules by which a record
of a delivery channel is claimed, renewed, completed, failed, expired
and retried.  Every rule is a pure function of the record and an
explicit `now`; it answers nothing when the record is not the caller's
to change.

Timestamps of the memory services are only ever compared through
`Date.parse`, so they are milliseconds here.
-/

namespace Newide.Memory

open Fallible

abbrev Time := Int

inductive DeliveryStatus where
  | pending | processing | processed | deadLetter
deriving DecidableEq

/-! ## Retry policy -/

structure DeliveryRetryPolicy where
  maxAttempts : Nat
  baseDelayMs : Nat
  maxDelayMs : Nat

def defaultDeliveryRetryPolicy : DeliveryRetryPolicy where
  maxAttempts := 3
  baseDelayMs := 1000
  maxDelayMs := 60000

/-- The wait after the `attempt`-th failed delivery. -/
def deliveryRetryDelayMs (attempt : Nat) (policy : DeliveryRetryPolicy) : Nat :=
  min policy.maxDelayMs (policy.baseDelayMs * 2 ^ (attempt - 1))

/-! ## The record -/

/-- The fields every delivery record shares; `α` holds the fields of its channel. -/
structure DeliveryRecord (α : Type) where
  item : α
  status : DeliveryStatus := .pending
  attemptCount : Nat := 0
  claimedAt : Option Time := none
  claimOwner : Option String := none
  /-- The fencing token of the current claim. -/
  claimToken : Option String := none
  leaseExpiresAt : Option Time := none
  nextRetryAt : Option Time := none
  lastError : Option String := none
  processorVersion : Option String := none
  updatedAt : Time

variable {α : Type} {policy : DeliveryRetryPolicy} {record next : DeliveryRecord α} {now : Time}

/-- Still pending, and past its back-off window. -/
def isDeliveryDue (record : DeliveryRecord α) (now : Time) : Prop :=
  record.status = .pending ∧ ∀ due ∈ record.nextRetryAt, due ≤ now

instance : Decidable (isDeliveryDue record now) :=
  inferInstanceAs (Decidable (_ ∧ ∀ due ∈ record.nextRetryAt, due ≤ now))

/-- In processing with nobody left to hold it; a record without a lease counts. -/
def isDeliveryClaimExpired (record : DeliveryRecord α) (now : Time) : Prop :=
  record.status = .processing ∧ ∀ expires ∈ record.leaseExpiresAt, expires ≤ now

instance : Decidable (isDeliveryClaimExpired record now) :=
  inferInstanceAs (Decidable (_ ∧ ∀ expires ∈ record.leaseExpiresAt, expires ≤ now))

/-! ## The transitions -/

structure ClaimDeliveryRecordInput where
  owner : String
  now : Time
  leaseMs : Int
  claimToken : String

/-- `pending` to `processing`, under a new token. -/
def claimDeliveryRecord (policy : DeliveryRetryPolicy) (record : DeliveryRecord α)
    (input : ClaimDeliveryRecordInput) : Except String (Option (DeliveryRecord α)) := do
  ensure (input.claimToken ≠ "") "claimDeliveryRecord requires a non-empty claim_token."
  if isDeliveryDue record input.now ∧ record.attemptCount < policy.maxAttempts then
    return some
      { record with
        status := .processing
        attemptCount := record.attemptCount + 1
        claimedAt := some input.now
        claimOwner := some input.owner
        claimToken := some input.claimToken
        leaseExpiresAt := some (input.now + input.leaseMs)
        nextRetryAt := none
        updatedAt := input.now }
  else
    return none

/-- What a holder brings back: the token of its claim, and who it says it is. -/
structure HolderInput where
  claimToken : String
  owner : Option String := none
  now : Time

/-- Status, token, owner and lease must all be right. -/
def isHeldBy (record : DeliveryRecord α) (input : HolderInput) : Prop :=
  record.status = .processing ∧ record.claimToken = some input.claimToken ∧
    (∀ owner ∈ input.owner, record.claimOwner = some owner) ∧
    ¬ isDeliveryClaimExpired record input.now

instance {input : HolderInput} : Decidable (isHeldBy record input) :=
  inferInstanceAs (Decidable (_ ∧ _ ∧ (∀ owner ∈ input.owner, record.claimOwner = some owner) ∧ _))

def renewDeliveryClaimRecord (record : DeliveryRecord α) (input : HolderInput) (leaseMs : Int) :
    Option (DeliveryRecord α) :=
  if isHeldBy record input then
    some { record with leaseExpiresAt := some (input.now + leaseMs), updatedAt := input.now }
  else none

/-- `processing` to `processed`, for good. -/
def completeDeliveryRecord (record : DeliveryRecord α) (input : HolderInput)
    (processorVersion : Option String) : Option (DeliveryRecord α) :=
  if isHeldBy record input then
    some
      { record with
        status := .processed
        claimToken := none
        leaseExpiresAt := none
        nextRetryAt := none
        lastError := none
        processorVersion := processorVersion <|> record.processorVersion
        updatedAt := input.now }
  else none

/-- `processing` to `dead_letter`, or back to `pending` after a back-off. -/
def failDeliveryRecord (policy : DeliveryRetryPolicy) (record : DeliveryRecord α)
    (input : HolderInput) (error : String) (retryable : Bool) : Option (DeliveryRecord α) :=
  if isHeldBy record input then
    if retryable = false ∨ policy.maxAttempts ≤ record.attemptCount then
      some
        { record with
          status := .deadLetter
          claimToken := none
          leaseExpiresAt := none
          nextRetryAt := none
          lastError := some error
          updatedAt := input.now }
    else
      some
        { record with
          status := .pending
          claimToken := none
          leaseExpiresAt := none
          nextRetryAt := some (input.now + deliveryRetryDelayMs record.attemptCount policy)
          lastError := some error
          updatedAt := input.now }
  else none

/-- A claim nobody holds any more is taken back, without a back-off. -/
def expireDeliveryClaimRecord (policy : DeliveryRetryPolicy) (record : DeliveryRecord α)
    (now : Time) : DeliveryRecord α :=
  { record with
    status := if policy.maxAttempts ≤ record.attemptCount then .deadLetter else .pending
    claimToken := none
    leaseExpiresAt := none
    nextRetryAt := none
    lastError := some "Claim lease expired without completion."
    updatedAt := now }

/-- The manual retry: `dead_letter` to `pending`, with all attempts back. -/
def resetDeliveryForRetry (record : DeliveryRecord α) (now : Time) : Option (DeliveryRecord α) :=
  if record.status = .deadLetter then
    some
      { record with
        status := .pending
        attemptCount := 0
        claimedAt := none
        claimOwner := none
        claimToken := none
        leaseExpiresAt := none
        nextRetryAt := none
        lastError := none
        updatedAt := now }
  else none

/-! ## What a transition can do

One description for all of them; the lemmas below take the facts they
need from it. -/

inductive DeliveryMove where
  | claim (input : ClaimDeliveryRecordInput)
  | renew (input : HolderInput) (leaseMs : Int)
  | complete (input : HolderInput) (processorVersion : Option String)
  | fail (input : HolderInput) (error : String) (retryable : Bool)
  | expire (now : Time)
  | reset (now : Time)

/-- `move.apply policy record`: the record after the move, if it is allowed. -/
def DeliveryMove.apply (policy : DeliveryRetryPolicy) (record : DeliveryRecord α) :
    DeliveryMove → Except String (Option (DeliveryRecord α))
  | .claim input => claimDeliveryRecord policy record input
  | .renew input leaseMs => .ok (renewDeliveryClaimRecord record input leaseMs)
  | .complete input processorVersion => .ok (completeDeliveryRecord record input processorVersion)
  | .fail input error retryable => .ok (failDeliveryRecord policy record input error retryable)
  | .expire now =>
      if isDeliveryClaimExpired record now then
        .ok (some (expireDeliveryClaimRecord policy record now))
      else .ok none
  | .reset now => .ok (resetDeliveryForRetry record now)

def DeliveryMove.holder : DeliveryMove → Option HolderInput
  | .renew input _ => some input
  | .complete input _ => some input
  | .fail input _ _ => some input
  | _ => none

def DeliveryMove.isClaim : DeliveryMove → Bool
  | .claim _ => true
  | _ => false

def DeliveryMove.isReset : DeliveryMove → Bool
  | .reset _ => true
  | _ => false

theorem claimDeliveryRecord_eq_some {input : ClaimDeliveryRecordInput}
    (h : claimDeliveryRecord policy record input = .ok (some next)) :
    isDeliveryDue record input.now ∧ record.attemptCount < policy.maxAttempts ∧
      input.claimToken ≠ "" ∧
      next =
        { record with
          status := .processing
          attemptCount := record.attemptCount + 1
          claimedAt := some input.now
          claimOwner := some input.owner
          claimToken := some input.claimToken
          leaseExpiresAt := some (input.now + input.leaseMs)
          nextRetryAt := none
          updatedAt := input.now } := by
  simp only [claimDeliveryRecord, bind_eq_ok, ensure_eq_ok] at h
  obtain ⟨_, htoken, h⟩ := h
  split at h
  · next hdue =>
      cases h
      exact ⟨hdue.1, hdue.2, htoken, rfl⟩
  · cases h

variable {input : HolderInput} {move : DeliveryMove}

theorem completeDeliveryRecord_eq_some {processorVersion : Option String}
    (h : completeDeliveryRecord record input processorVersion = some next) :
    isHeldBy record input ∧
      next =
        { record with
          status := .processed
          claimToken := none
          leaseExpiresAt := none
          nextRetryAt := none
          lastError := none
          processorVersion := processorVersion <|> record.processorVersion
          updatedAt := input.now } := by
  unfold completeDeliveryRecord at h
  split at h
  · next hheld =>
      cases h
      exact ⟨hheld, rfl⟩
  · cases h

theorem DeliveryMove.held (h : move.apply policy record = .ok (some next))
    (hholder : move.holder = some input) :
    isHeldBy record input := by
  cases move with
  | claim | expire | reset => cases hholder
  | renew holder leaseMs =>
      cases hholder
      simp only [apply, renewDeliveryClaimRecord] at h
      split at h
      · assumption
      · cases h
  | complete holder processorVersion =>
      cases hholder
      simp only [apply, completeDeliveryRecord] at h
      split at h
      · assumption
      · cases h
  | fail holder error retryable =>
      cases hholder
      simp only [apply, failDeliveryRecord] at h
      split at h
      · assumption
      · cases h

theorem DeliveryMove.item_eq (h : move.apply policy record = .ok (some next)) :
    next.item = record.item := by
  cases move with
  | claim input =>
      obtain ⟨_, _, _, rfl⟩ := claimDeliveryRecord_eq_some h
      rfl
  | renew input leaseMs =>
      simp only [apply, renewDeliveryClaimRecord, if_pos (held h rfl)] at h
      cases h
      rfl
  | complete input processorVersion =>
      obtain ⟨_, rfl⟩ := completeDeliveryRecord_eq_some (Except.ok.inj h)
      rfl
  | fail input error retryable =>
      simp only [apply, failDeliveryRecord, if_pos (held h rfl)] at h
      split at h
      · cases h
        rfl
      · cases h
        rfl
  | expire now =>
      simp only [apply] at h
      split at h
      · cases h
        rfl
      · cases h
  | reset now =>
      simp only [apply, resetDeliveryForRetry] at h
      split at h
      · cases h
        rfl
      · cases h

/-- What holds of a record before and after each kind of move. -/
inductive DeliveryMove.Effect (policy : DeliveryRetryPolicy) (record next : DeliveryRecord α) :
    DeliveryMove → Prop where
  | claim {input : ClaimDeliveryRecordInput} (hdue : isDeliveryDue record input.now)
      (hleft : record.attemptCount < policy.maxAttempts) (hstatus : next.status = .processing)
      (hcount : next.attemptCount = record.attemptCount + 1)
      (htoken : next.claimToken = some input.claimToken)
      (hlease : next.leaseExpiresAt = some (input.now + input.leaseMs)) :
      Effect policy record next (.claim input)
  | renew {input : HolderInput} {leaseMs : Int} (hheld : isHeldBy record input)
      (hstatus : next.status = .processing) (hcount : next.attemptCount = record.attemptCount)
      (htoken : next.claimToken = record.claimToken)
      (hlease : next.leaseExpiresAt = some (input.now + leaseMs)) :
      Effect policy record next (.renew input leaseMs)
  /-- The record leaves `processing`, and whoever held it holds it no more. -/
  | leave {move : DeliveryMove} (hbefore : record.status = .processing)
      (hstatus : next.status = .processed ∨ next.status = .deadLetter ∨
        next.status = .pending ∧ record.attemptCount < policy.maxAttempts)
      (hcount : next.attemptCount = record.attemptCount) (htoken : next.claimToken = none)
      (hlease : next.leaseExpiresAt = none) (hclaim : move.isClaim = false)
      (hreset : move.isReset = false) : Effect policy record next move
  | reset {now : Time} (hbefore : record.status = .deadLetter) (hstatus : next.status = .pending)
      (hcount : next.attemptCount = 0) (htoken : next.claimToken = none)
      (hlease : next.leaseExpiresAt = none) : Effect policy record next (.reset now)

theorem DeliveryMove.effect (h : move.apply policy record = .ok (some next)) :
    move.Effect policy record next := by
  cases move with
  | claim input =>
      obtain ⟨hdue, hleft, _, rfl⟩ := claimDeliveryRecord_eq_some h
      exact .claim hdue hleft rfl rfl rfl rfl
  | renew input leaseMs =>
      have hheld := held h rfl
      simp only [apply, renewDeliveryClaimRecord, if_pos hheld] at h
      cases h
      exact .renew hheld hheld.1 rfl rfl rfl
  | complete input processorVersion =>
      have hheld := held h rfl
      simp only [apply, completeDeliveryRecord, if_pos hheld] at h
      cases h
      exact .leave hheld.1 (.inl rfl) rfl rfl rfl rfl rfl
  | fail input error retryable =>
      have hheld := held h rfl
      simp only [apply, failDeliveryRecord, if_pos hheld] at h
      split at h
      · cases h
        exact .leave hheld.1 (.inr (.inl rfl)) rfl rfl rfl rfl rfl
      · next hleft =>
          cases h
          have : record.attemptCount < policy.maxAttempts :=
            Nat.lt_of_not_le fun hle => hleft (.inr hle)
          exact .leave hheld.1 (.inr (.inr ⟨rfl, this⟩)) rfl rfl rfl rfl rfl
  | expire now =>
      simp only [apply] at h
      split at h
      · next hexpired =>
          cases h
          refine .leave hexpired.1 ?_ rfl rfl rfl rfl rfl
          by_cases hleft : policy.maxAttempts ≤ record.attemptCount
          · exact .inr (.inl (by simp [expireDeliveryClaimRecord, hleft]))
          · exact .inr (.inr ⟨by simp [expireDeliveryClaimRecord, hleft], Nat.lt_of_not_le hleft⟩)
      · cases h
  | reset now =>
      simp only [apply, resetDeliveryForRetry] at h
      split at h
      · next hdead =>
          cases h
          exact .reset hdead rfl rfl rfl rfl
      · cases h

/-! ## The representation invariant -/

/-- The shape every record of a channel keeps. -/
structure DeliveryRecord.Represented (policy : DeliveryRetryPolicy) (record : DeliveryRecord α) :
    Prop where
  attempts_le : record.attemptCount ≤ policy.maxAttempts
  pending_lt : record.status = .pending → record.attemptCount < policy.maxAttempts
  token_iff : record.claimToken.isSome = true ↔ record.status = .processing
  lease_iff : record.leaseExpiresAt.isSome = true ↔ record.status = .processing

def DeliveryRecord.New (record : DeliveryRecord α) : Prop :=
  record.status = .pending ∧ record.attemptCount = 0 ∧ record.claimToken = none ∧
    record.leaseExpiresAt = none

theorem DeliveryRecord.New.represented (h : record.New) (hmax : 1 ≤ policy.maxAttempts) :
    record.Represented policy := by
  obtain ⟨hstatus, hcount, htoken, hlease⟩ := h
  exact
    { attempts_le := hcount ▸ Nat.zero_le _
      pending_lt := fun _ => hcount ▸ hmax
      token_iff := by simp [htoken, hstatus]
      lease_iff := by simp [hlease, hstatus] }

theorem DeliveryMove.Effect.represented (h : move.Effect policy record next)
    (hrep : record.Represented policy) (hmax : 1 ≤ policy.maxAttempts) :
    next.Represented policy := by
  cases h with
  | claim hdue hleft hstatus hcount htoken hlease =>
      exact
        { attempts_le := hcount ▸ hleft
          pending_lt := fun hp => by simp [hstatus] at hp
          token_iff := by simp [htoken, hstatus]
          lease_iff := by simp [hlease, hstatus] }
  | renew hheld hstatus hcount htoken hlease =>
      exact
        { attempts_le := hcount ▸ hrep.attempts_le
          pending_lt := fun hp => by simp [hstatus] at hp
          token_iff := by simp [htoken, hheld.2.1, hstatus]
          lease_iff := by simp [hlease, hstatus] }
  | leave hbefore hstatus hcount htoken hlease =>
      exact
        { attempts_le := hcount ▸ hrep.attempts_le
          pending_lt := fun hp => by simpa [hp, hcount] using hstatus
          token_iff := by rcases hstatus with h | h | ⟨h, _⟩ <;> simp [htoken, h]
          lease_iff := by rcases hstatus with h | h | ⟨h, _⟩ <;> simp [hlease, h] }
  | reset hbefore hstatus hcount htoken hlease =>
      exact
        { attempts_le := hcount ▸ Nat.zero_le _
          pending_lt := fun _ => hcount ▸ hmax
          token_iff := by simp [htoken, hstatus]
          lease_iff := by simp [hlease, hstatus] }

theorem DeliveryMove.complete_of_processed (h : move.apply policy record = .ok (some next))
    (hprocessed : next.status = .processed) :
    ∃ input processorVersion, move = .complete input processorVersion := by
  cases move with
  | complete input processorVersion => exact ⟨input, processorVersion, rfl⟩
  | claim input =>
      obtain ⟨_, _, _, rfl⟩ := claimDeliveryRecord_eq_some h
      cases hprocessed
  | renew input leaseMs =>
      have hheld := held h rfl
      simp only [apply, renewDeliveryClaimRecord, if_pos hheld] at h
      cases h
      simp [hheld.1] at hprocessed
  | fail input error retryable =>
      simp only [apply, failDeliveryRecord, if_pos (held h rfl)] at h
      split at h
      · cases h
        cases hprocessed
      · cases h
        cases hprocessed
  | expire now =>
      simp only [apply] at h
      split at h
      · cases h
        simp only [expireDeliveryClaimRecord] at hprocessed
        split at hprocessed <;> cases hprocessed
      · cases h
  | reset now =>
      simp only [apply, resetDeliveryForRetry] at h
      split at h
      · cases h
        cases hprocessed
      · cases h

theorem DeliveryMove.Effect.ne_processed (h : move.Effect policy record next) :
    record.status ≠ .processed := by
  intro hprocessed
  cases h with
  | claim hdue => simp [hdue.1] at hprocessed
  | renew hheld => simp [hheld.1] at hprocessed
  | leave hbefore => simp [hbefore] at hprocessed
  | reset hbefore => simp [hbefore] at hprocessed

theorem DeliveryMove.Effect.reset_of_deadLetter (h : move.Effect policy record next)
    (hdead : record.status = .deadLetter) :
    move.isReset = true := by
  cases h with
  | claim hdue => simp [hdue.1] at hdead
  | renew hheld => simp [hheld.1] at hdead
  | leave hbefore => simp [hbefore] at hdead
  | reset => rfl

theorem DeliveryMove.Effect.attempts (h : move.Effect policy record next)
    (hreset : move.isReset = false) :
    next.attemptCount = record.attemptCount + (if move.isClaim then 1 else 0) := by
  cases h with
  | claim _ _ _ hcount => simp [hcount, isClaim]
  | renew _ _ hcount => simp [hcount, isClaim]
  | leave _ _ hcount _ _ hclaim => simp [hcount, hclaim]
  | reset => cases hreset

end Newide.Memory
