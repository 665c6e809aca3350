import Newide.SapRuns

/-!
# Exclusive admissions

Two admissions of one execute are at least a lease apart, and there is
none after an accepted result.  There is none after a cancel either,
unless the cancel came before the execute was ever delivered:
`beginExecute` looks for a cancel only when it finds an inbox row.
-/

namespace Newide

open Fallible Transaction Delivery

/-- `beginExecute` at `now` returns `should_execute: true`. -/
def AdmitsAt (options : BridgeOptions) (dispatch : SapExecuteDispatch) (now : Timestamp)
    (d : ProtocolDelivery) : Prop :=
  (Sap.beginExecute options now dispatch d).map (·.1.shouldExecute) = .ok true

instance (options : BridgeOptions) (dispatch : SapExecuteDispatch) (now : Timestamp)
    (d : ProtocolDelivery) : Decidable (AdmitsAt options dispatch now d) :=
  inferInstanceAs (Decidable (_ = _))

/-- A cancel outbox row of the exchange exists. -/
def Cancelled (dispatch : SapExecuteDispatch) (d : ProtocolDelivery) : Prop :=
  (d.outboxRow (Sap.cancelOutboxId dispatch.frame.exchangeId)).isSome = true

instance (dispatch : SapExecuteDispatch) (d : ProtocolDelivery) :
    Decidable (Cancelled dispatch d) :=
  inferInstanceAs (Decidable (_ = _))

variable {options : BridgeOptions} {dispatch : SapExecuteDispatch} {now : Timestamp}
  {d d' : ProtocolDelivery}

theorem admitsAt_iff : AdmitsAt options dispatch now d ↔ ∃ admission d',
    Sap.beginExecute options now dispatch d = .ok (admission, d') ∧
      admission.shouldExecute = true := by
  unfold AdmitsAt
  rw [mapped_eq_ok, Prod.exists]

/-- What a run of bridge calls owes the execute `dispatch`. -/
structure AdmissionsExclusive (options : BridgeOptions) (dispatch : SapExecuteDispatch)
    (w : World ProtocolDelivery) (calls : List SapCall) : Prop where
  /-- A second admission is not before the expiry of the first. -/
  leased : ∀ pre mid post now now',
    calls = pre ++ .beginExecute now dispatch :: (mid ++ .beginExecute now' dispatch :: post) →
    AdmitsAt options dispatch now (SapCall.serveAll options pre w).protocol →
    AdmitsAt options dispatch now'
      (SapCall.serveAll options (pre ++ .beginExecute now dispatch :: mid) w).protocol →
    Sap.leaseExpiresAt options now dispatch ≤ now'
  /-- No admission follows an accepted result. -/
  settled : ∀ pre mid post call result now,
    calls = pre ++ call :: (mid ++ .beginExecute now dispatch :: post) →
    Accepts options dispatch (SapCall.serveAll options pre w) call result →
    ¬ AdmitsAt options dispatch now (SapCall.serveAll options (pre ++ call :: mid) w).protocol
  /-- No admission follows a cancel. -/
  cancelled : ∀ pre post now, calls = pre ++ .beginExecute now dispatch :: post →
    Cancelled dispatch (SapCall.serveAll options pre w).protocol →
    ¬ AdmitsAt options dispatch now (SapCall.serveAll options pre w).protocol

/-- No `beginExecute` of the run is the first delivery of an execute already cancelled. -/
def NoDeliveryAfterCancel (options : BridgeOptions) (dispatch : SapExecuteDispatch)
    (w : World ProtocolDelivery) (calls : List SapCall) : Prop :=
  ∀ pre post now, calls = pre ++ .beginExecute now dispatch :: post →
    Cancelled dispatch (SapCall.serveAll options pre w).protocol →
    ¬ ((SapCall.serveAll options pre w).protocol.inboxRow dispatch.inboxKey = none ∧
      Deliverable options now dispatch (SapCall.serveAll options pre w).protocol)

variable {w : World ProtocolDelivery}

theorem AdmitsAt.leased (h : AdmitsAt options dispatch now w.protocol) :
    LeasedUntil dispatch.inboxKey (Sap.leaseExpiresAt options now dispatch)
      (SapCall.serve options w (.beginExecute now dispatch)).protocol := by
  obtain ⟨admission, d', hbegin, hgrant⟩ := admitsAt_iff.mp h
  obtain ⟨hgranted, _⟩ := beginExecute_admits hbegin hgrant
  have hserved : (SapCall.serve options w (.beginExecute now dispatch)).protocol = d' := by
    simp [SapCall.serve, SapCall.exec, World.transact, hbegin, Except.map]
  rw [hserved]
  exact ⟨_, hgranted.row, .inr ⟨hgranted.claimed.1, _, hgranted.lease, le_refl _⟩⟩

theorem LeasedUntil.not_before {expiry : Timestamp}
    (h : LeasedUntil dispatch.inboxKey expiry d) (hadmits : AdmitsAt options dispatch now d) :
    expiry ≤ now := by
  obtain ⟨row, hrow, hleased⟩ := h
  obtain ⟨admission, d', hbegin, hgrant⟩ := admitsAt_iff.mp hadmits
  rcases (beginExecute_admits hbegin hgrant).2 with hreclaim | ⟨hnone, _⟩
  · obtain ⟨row', hrow', hclaimable⟩ := hreclaim.claimable
    cases hrow.symm.trans hrow'
    rcases hleased with hcomplete | ⟨hprocessing, lease, hlease, hle⟩
    · rcases hclaimable with h | ⟨h, _⟩ <;> cases hcomplete.symm.trans h
    · rcases hclaimable with h | ⟨_, hexpired⟩
      · cases hprocessing.symm.trans h
      · rw [Option.mem_def.mp hlease] at hexpired
        exact hle.trans (of_decide_eq_true hexpired)
  · cases hrow.symm.trans hnone

theorem SettledRow.not_admits {result : SapResultFrame} {row : ProtocolInboxRecord}
    (h : SettledRow dispatch result row d) : ¬ AdmitsAt options dispatch now d := by
  intro hadmits
  obtain ⟨admission, d', hbegin, hgrant⟩ := admitsAt_iff.mp hadmits
  rcases (beginExecute_admits hbegin hgrant).2 with hreclaim | ⟨hnone, _⟩
  · obtain ⟨row', hrow', hclaimable⟩ := hreclaim.claimable
    cases h.stored.symm.trans hrow'
    rcases hclaimable with hopen | ⟨hopen, _⟩ <;> cases h.complete.symm.trans hopen
  · cases h.stored.symm.trans hnone

theorem Cancelled.admits_iff (h : Cancelled dispatch d) : AdmitsAt options dispatch now d ↔
    d.inboxRow dispatch.inboxKey = none ∧ Deliverable options now dispatch d := by
  constructor
  · intro hadmits
    obtain ⟨admission, d', hbegin, hgrant⟩ := admitsAt_iff.mp hadmits
    rcases (beginExecute_admits hbegin hgrant).2 with hreclaim | hfirst
    · unfold Cancelled at h
      rw [hreclaim.uncancelled] at h
      cases h
    · exact hfirst
  · rintro ⟨hnone, hdeliverable⟩
    obtain ⟨admission, d', hbegin, hgrant⟩ := beginExecute_of_deliverable hnone hdeliverable
    exact admitsAt_iff.mpr ⟨admission, d', hbegin, hgrant⟩

theorem serveAll_cons_append {pre mid : List SapCall} {call : SapCall} :
    SapCall.serveAll options (pre ++ call :: mid) w =
      SapCall.serveAll options mid (SapCall.serve options (SapCall.serveAll options pre w) call) := by
  simp [SapCall.serveAll]

/-- Over every run of bridge calls, at any instants: admissions are exclusive, and none follows
an accepted result or a cancel, exactly when no execute is first delivered after its cancel. -/
theorem admissions_exclusive_iff (options : BridgeOptions) (dispatch : SapExecuteDispatch)
    (w : World ProtocolDelivery) (calls : List SapCall) :
    AdmissionsExclusive options dispatch w calls ↔
      NoDeliveryAfterCancel options dispatch w calls := by
  constructor
  · intro h pre post now hcalls hcancelled hfirst
    exact h.cancelled pre post now hcalls hcancelled (hcancelled.admits_iff.mpr hfirst)
  · intro h
    refine ⟨?_, ?_, ?_⟩
    · intro pre mid post now now' _ hfirst hsecond
      have hleased := hfirst.leased
      rw [serveAll_cons_append] at hsecond
      exact ((SapCall.serveAll_reaches mid _).leasedUntil hleased).not_before hsecond
    · intro pre mid post call result now _ haccepts
      obtain ⟨row, hrow⟩ := haccepts.settles
      rw [serveAll_cons_append]
      exact (hrow.reaches (SapCall.serveAll_reaches mid _)).not_admits
    · intro pre post now hcalls hcancelled hadmits
      exact h pre post now hcalls hcancelled (hcancelled.admits_iff.mp hadmits)

def sampleCancel : SapCancelFrame where
  exchangeId := "sap_cancel_x"
  targetExchangeId := "x"
  taskId := "task"
  runId := "run"
  consumerRoleId := some "coder"
  createdAt := "2026-01-01T00:00:00.000Z"
  deadlineAt := "2026-01-01T01:00:00.000Z"

/-- Persisted, cancelled and then delivered for the first time, an execute is admitted. -/
theorem admitted_after_cancel :
    ¬ ∀ options dispatch w calls, AdmissionsExclusive options dispatch w calls := by
  intro h
  have hrun := h sampleOptions sampleDispatch { store := .empty, protocol := .empty }
    [.persistExecute sampleDispatch, .enqueueCancel sampleDispatch sampleCancel,
      .beginExecute "2026-01-01T00:00:00.000Z" sampleDispatch]
  exact hrun.cancelled [.persistExecute sampleDispatch, .enqueueCancel sampleDispatch sampleCancel]
    [] "2026-01-01T00:00:00.000Z" rfl (by decide) (by decide)

end Newide
