import Newide.SapAdmission

/-!
# Archiving

`archiveSettled` moves complete rows out of the table whose primary key
deduplicates an exchange.  An exchange stays deduplicated for as long as
its row is left in the table, and from then on it is received, claimed
and admitted as if it were new.
-/

namespace Newide

open Fallible Transaction Delivery ProtocolDelivery

/-- A call of the store: an operation on live rows, or an archiving. -/
inductive StoreCall where
  | live (call : DeliveryCall)
  | archiveSettled (before : Timestamp) (limit : Int)

namespace StoreCall

def exec : StoreCall → Delivery Unit
  | .live call => call.exec
  | .archiveSettled before limit => (fun _ => ()) <$> Delivery.archiveSettled before limit

/-- The tables after a call: a call that throws leaves them as they were. -/
def serve (d : ProtocolDelivery) (call : StoreCall) : ProtocolDelivery :=
  match call.exec d with
  | .ok (_, d') => d'
  | .error _ => d

def serveAll (calls : List StoreCall) (d : ProtocolDelivery) : ProtocolDelivery :=
  calls.foldl serve d

end StoreCall

/-- `beginAsk` at `now` returns `should_execute: true`. -/
def AsksAt (options : AapOptions) (dispatch : AapAskDispatch) (now : Timestamp)
    (d : ProtocolDelivery) : Prop :=
  (Aap.beginAsk options now dispatch d).map (·.1.shouldExecute) = .ok true

instance (options : AapOptions) (dispatch : AapAskDispatch) (now : Timestamp)
    (d : ProtocolDelivery) : Decidable (AsksAt options dispatch now d) :=
  inferInstanceAs (Decidable (_ = _))

structure Deduplicates (key : ProtocolInboxKey) (d : ProtocolDelivery) : Prop where
  received : ∀ frame receivedAt out d', key = ⟨key.consumerId, frame.protocol, frame.exchangeId⟩ →
    receiveInbox key.consumerId frame receivedAt d = .ok (out, d') → out.2 = false
  claimed : ∀ owner now expiry revision out d',
    claimInbox key owner now expiry revision d = .ok (out, d') → out = none
  executed : ∀ options (dispatch : SapExecuteDispatch) now, dispatch.inboxKey = key →
    ¬ AdmitsAt options dispatch now d
  asked : ∀ options (dispatch : AapAskDispatch) now, dispatch.inboxKey = key →
    ¬ AsksAt options dispatch now d ∧
      ∀ outbox d', Aap.persistAsk dispatch d = .ok (outbox, d') → ¬ AsksAt options dispatch now d'

/-- The key is deduplicated before, between and after the calls. -/
def StaysDeduplicated (key : ProtocolInboxKey) (d : ProtocolDelivery) (calls : List StoreCall) :
    Prop :=
  ∀ pre post, calls = pre ++ post → Deduplicates key (StoreCall.serveAll pre d)

/-- No archiving of the run takes the row of the key. -/
def NeverArchived (key : ProtocolInboxKey) (d : ProtocolDelivery) (calls : List StoreCall) : Prop :=
  ∀ pre post before limit, calls = pre ++ .archiveSettled before limit :: post → 0 < limit →
    ∀ row ∈ (StoreCall.serveAll pre d).archivedInbox before limit.toNat, row.key ≠ key

variable {d d' : ProtocolDelivery} {key : ProtocolInboxKey} {row : ProtocolInboxRecord}

/-! ## Archiving a row -/

theorem archiveSettled_eq_ok {before : Timestamp} {limit : Int} {out : Nat × Nat} :
    archiveSettled before limit d = .ok (out, d') ↔
      0 < limit ∧ ((d.archivedOutbox before limit.toNat).length,
        (d.archivedInbox before limit.toNat).length) = out ∧
        d.archive (d.archivedOutbox before limit.toNat) (d.archivedInbox before limit.toNat) =
          d' := by
  simp only [archiveSettled, chain_eq_ok, lift_eq_ok, ensure_eq_ok, query_eq_ok, write_eq_ok,
    done_eq_ok]
  constructor
  · rintro ⟨_, _, ⟨hlimit, rfl⟩, _, _, ⟨rfl, rfl⟩, _, _, ⟨rfl, rfl⟩, _, _, rfl, rfl, rfl⟩
    exact ⟨hlimit, rfl, rfl⟩
  · rintro ⟨hlimit, rfl, rfl⟩
    exact ⟨⟨⟩, d, ⟨hlimit, rfl⟩, _, d, ⟨rfl, rfl⟩, _, d, ⟨rfl, rfl⟩, ⟨⟩, _, rfl, rfl, rfl⟩

theorem serve_archiveSettled (d : ProtocolDelivery) (before : Timestamp) (limit : Int) :
    StoreCall.serve d (.archiveSettled before limit) =
      if 0 < limit then
        d.archive (d.archivedOutbox before limit.toNat) (d.archivedInbox before limit.toNat)
      else d := by
  unfold StoreCall.serve
  cases hexec : StoreCall.exec (.archiveSettled before limit) d with
  | ok out =>
      obtain ⟨_, hrun, _⟩ := map_eq_ok.mp (show StoreCall.exec _ d = .ok ((), out.2) from hexec)
      obtain ⟨hlimit, _, harchive⟩ := archiveSettled_eq_ok.mp hrun
      rw [if_pos hlimit]
      exact harchive.symm
  | error e =>
      have hlimit : ¬ 0 < limit := by
        intro hlimit
        have hrun : archiveSettled before limit d =
            .ok (((d.archivedOutbox before limit.toNat).length,
              (d.archivedInbox before limit.toNat).length),
              d.archive (d.archivedOutbox before limit.toNat)
                (d.archivedInbox before limit.toNat)) :=
          archiveSettled_eq_ok.mpr ⟨hlimit, rfl, rfl⟩
        have hok := map_eq_ok (f := fun _ : Nat × Nat => ()).mpr ⟨_, hrun, rfl⟩
        cases hexec.symm.trans hok
      rw [if_neg hlimit]

/-! ## Frames in the inbox -/

/-- Every inbox row holds a frame that was accepted, for a consumer. -/
def InboxAccepted (d : ProtocolDelivery) : Prop :=
  ∀ key row, d.inboxRow key = some row → row.frame.Valid ∧ row.consumerId ≠ ""

theorem InboxAccepted.serve (h : InboxAccepted d) (call : DeliveryCall) :
    InboxAccepted (serve d call) := by
  intro key row hrow
  have hmove := (Moves.serve d call).inbox key
  generalize hbefore : d.inboxRow key = before at hmove
  rw [hrow] at hmove
  cases hmove with
  | stays => exact h key row hbefore
  | claimed stored | renewed stored | completed stored => exact h key stored hbefore
  | received consumerId frame receivedAt hkey =>
      cases hexec : (DeliveryCall.receiveInbox consumerId frame receivedAt).exec d with
      | error e =>
          have hsame : Newide.serve d (.receiveInbox consumerId frame receivedAt) = d := by
            simp [Newide.serve, hexec]
          rw [hsame, hbefore] at hrow
          cases hrow
      | ok out =>
          obtain ⟨_, hreceive, _⟩ := map_eq_ok.mp
            (show DeliveryCall.exec _ d = .ok ((), out.2) from hexec)
          exact (receiveInbox_eq_ok.mp hreceive).1

theorem InboxAccepted.step (h : InboxAccepted d) (call : StoreCall) :
    InboxAccepted (call.serve d) := by
  cases call with
  | live call => exact h.serve call
  | archiveSettled before limit =>
      rw [serve_archiveSettled]
      split
      · intro key row hrow
        rw [archive_inboxRow] at hrow
        exact h key row (Option.filter_eq_some_iff.mp hrow).1
      · exact h

theorem inboxAccepted (calls : List StoreCall) : InboxAccepted (StoreCall.serveAll calls .empty) :=
  List.foldlRecOn calls _ (fun _ _ hrow => (by cases hrow)) fun _ hd call _ => hd.step call

/-! ## Deduplication -/

theorem beginAsk_complete {options : AapOptions} {dispatch : AapAskDispatch} {now : Timestamp}
    (hrow : d.inboxRow dispatch.inboxKey = some row) (hcomplete : row.status = .complete) :
    ¬ AsksAt options dispatch now d := by
  intro hasks
  obtain ⟨⟨admission, d'⟩, hbegin, hanswers⟩ := mapped_eq_ok.mp hasks
  unfold Aap.beginAsk at hbegin
  obtain ⟨existing, _, hget, hbegin⟩ := chain_eq_ok.mp hbegin
  obtain ⟨rfl, rfl⟩ := getInbox_eq_ok.mp hget
  obtain ⟨outbox, _, hrequire, hbegin⟩ := chain_eq_ok.mp hbegin
  rw [hrow] at hbegin
  rcases branch_eq_ok.mp hbegin with ⟨_, hdone⟩ | ⟨hopen, _⟩
  · obtain ⟨rfl, _⟩ := done_eq_ok.mp hdone
    cases hanswers
  · exact hopen hcomplete

theorem deduplicates_complete (hrow : d.inboxRow key = some row)
    (hcomplete : row.status = .complete) : Deduplicates key d := by
  refine ⟨?_, ?_, ?_, ?_⟩
  · intro frame receivedAt out d' hkey hreceive
    rcases (receiveInbox_eq_ok.mp hreceive).2 with ⟨hnone, _, _⟩ | ⟨_, _, _, rfl, _⟩
    · have hnew : d.inboxRow ⟨key.consumerId, frame.protocol, frame.exchangeId⟩ = none := hnone
      rw [← hkey, hrow] at hnew
      cases hnew
    · rfl
  · intro owner now expiry revision out d' hclaim
    obtain ⟨_, ⟨row', hrow', hguard, _⟩ | ⟨_, rfl, _⟩⟩ := claimInbox_eq_ok.mp hclaim
    · cases hrow.symm.trans hrow'
      rcases hguard.2 with hopen | ⟨hopen, _⟩ <;> cases hcomplete.symm.trans hopen
    · rfl
  · intro options dispatch now hkey hadmits
    obtain ⟨admission, d', hbegin, hgrant⟩ := admitsAt_iff.mp hadmits
    subst hkey
    rcases (beginExecute_admits hbegin hgrant).2 with hreclaim | ⟨hnone, _⟩
    · obtain ⟨row', hrow', hclaimable⟩ := hreclaim.claimable
      cases hrow.symm.trans hrow'
      rcases hclaimable with hopen | ⟨hopen, _⟩ <;> cases hcomplete.symm.trans hopen
    · cases hrow.symm.trans hnone
  · intro options dispatch now hkey
    subst hkey
    refine ⟨beginAsk_complete hrow hcomplete, ?_⟩
    intro outbox d' hpersist
    have hreach : Reaches d d' := Reaches.persistAsk _ _ _ hpersist
    exact beginAsk_complete (hreach.complete hrow hcomplete) hcomplete

theorem not_deduplicates (hnone : d.inboxRow row.key = none) (hvalid : row.frame.Valid)
    (hconsumer : row.consumerId ≠ "") : ¬ Deduplicates row.key d := by
  intro h
  have hnew : d.inboxRow (receivedRow row.consumerId row.frame row.receivedAt).key = none := hnone
  obtain ⟨d', hcomplete⟩ := completeOriginal_total row.frame row.receivedAt
    ((d.addInbox (receivedRow row.consumerId row.frame row.receivedAt) hnew).log
      ((receivedRow row.consumerId row.frame row.receivedAt).entry "inbox.received" row.consumerId
        row.receivedAt))
  have hreceive : receiveInbox row.consumerId row.frame row.receivedAt d =
      .ok ((receivedRow row.consumerId row.frame row.receivedAt, true), d') :=
    receiveInbox_eq_ok.mpr ⟨⟨hvalid, hconsumer⟩, .inl ⟨hnew, rfl, hcomplete⟩⟩
  have hinserted : true = false := h.received row.frame row.receivedAt _ d' rfl hreceive
  cases hinserted

theorem complete_kept (hrow : d.inboxRow key = some row) (hcomplete : row.status = .complete)
    {calls : List StoreCall} (hkept : NeverArchived key d calls) :
    ∀ pre post, calls = pre ++ post → (StoreCall.serveAll pre d).inboxRow key = some row := by
  intro pre
  induction pre using List.reverseRecOn with
  | nil =>
      intro post _
      exact hrow
  | append_singleton init call ih =>
      intro post hcalls
      have hcalls' : calls = init ++ (call :: post) := by simpa using hcalls
      have hbefore := ih (call :: post) hcalls'
      have hlast : StoreCall.serveAll (init ++ [call]) d =
          call.serve (StoreCall.serveAll init d) := by simp [StoreCall.serveAll]
      rw [hlast]
      cases call with
      | live call => exact serve_complete hbefore hcomplete call
      | archiveSettled before limit =>
          rw [serve_archiveSettled]
          split
          next hlimit =>
            rw [archive_inboxRow, hbefore]
            refine Option.filter_some_pos (decide_eq_true ?_)
            intro hmem
            obtain ⟨taken, htaken, hkey⟩ := List.mem_map.mp hmem
            exact hkept init post before limit hcalls' hlimit taken htaken
              (hkey.trans (inboxRow_key hbefore))
          next => exact hbefore

theorem archivedInbox_row {before : Timestamp} {limit : Nat}
    (h : row ∈ d.archivedInbox before limit) : d.inboxRow row.key = some row := by
  have hsorted := List.mem_of_mem_take h
  have hmem := (List.mem_insertionSort _).mp hsorted
  exact d.inboxKeys.lookup_of_mem (List.mem_filter.mp hmem).1

/-- Once an inbox row has been completed its exchange stays deduplicated through every run of
store calls exactly when no archiving of the run takes the row. -/
theorem deduplication_survives_iff (before calls : List StoreCall)
    (hrow : (StoreCall.serveAll before .empty).inboxRow key = some row)
    (hcomplete : row.status = .complete) :
    StaysDeduplicated key (StoreCall.serveAll before .empty) calls ↔
      NeverArchived key (StoreCall.serveAll before .empty) calls := by
  constructor
  · intro h pre post cutoff limit hcalls hlimit taken htaken hkey
    subst hkey
    have hrun : StoreCall.serveAll pre (StoreCall.serveAll before .empty) =
        StoreCall.serveAll (before ++ pre) .empty := by simp [StoreCall.serveAll]
    have hstored := archivedInbox_row htaken
    obtain ⟨hvalid, hconsumer⟩ := inboxAccepted (before ++ pre) taken.key taken (hrun ▸ hstored)
    have hafter := h (pre ++ [.archiveSettled cutoff limit]) post (by simp [hcalls])
    have hlast : StoreCall.serveAll (pre ++ [.archiveSettled cutoff limit])
        (StoreCall.serveAll before .empty) = StoreCall.serve
          (StoreCall.serveAll pre (StoreCall.serveAll before .empty))
          (.archiveSettled cutoff limit) := by simp [StoreCall.serveAll]
    rw [hlast, serve_archiveSettled, if_pos hlimit] at hafter
    refine not_deduplicates ?_ hvalid hconsumer hafter
    rw [archive_inboxRow, hstored]
    have hgone : taken.key ∈ ((StoreCall.serveAll pre (StoreCall.serveAll before .empty)).archivedInbox
        cutoff limit.toNat).map (·.key) := List.mem_map_of_mem htaken
    simp [Option.filter, hgone]
  · intro hkept pre post hcalls
    exact deduplicates_complete (complete_kept hrow hcomplete hkept pre post hcalls) hcomplete

def sampleSettled : List StoreCall :=
  [.live (.enqueueOutbox
      { id := "outbox_x", destination := "coder", frame := sampleExecute.toFrame }),
    .live (.receiveInbox "coder" sampleExecute.toFrame "2026-01-01T00:00:00.000Z"),
    .live (.claimInbox sampleDispatch.inboxKey "worker" "2026-01-01T00:00:00.000Z"
      "2026-01-01T00:30:00.000Z" 1),
    .live (.completeInbox
      { key := sampleDispatch.inboxKey, leaseOwner := "worker", expectedRevision := 2
        completedAt := "2026-01-01T00:10:00.000Z" })]

/-- An archiving with an earlier cut-off keeps the exchange deduplicated. -/
theorem deduplication_survives_sample :
    ∃ row, (StoreCall.serveAll sampleSettled .empty).inboxRow sampleDispatch.inboxKey = some row ∧
      (StaysDeduplicated sampleDispatch.inboxKey (StoreCall.serveAll sampleSettled .empty) [] ↔
        NeverArchived sampleDispatch.inboxKey (StoreCall.serveAll sampleSettled .empty) []) :=
  ⟨_, rfl, deduplication_survives_iff sampleSettled [] rfl (by decide)⟩

/-- Archived, the exchange is received as new, and its execute admitted again. -/
theorem deduplication_lost :
    let settled := StoreCall.serveAll sampleSettled .empty
    let archived := StoreCall.serve settled (.archiveSettled "2026-01-01T00:20:00.000Z" 1000)
    (settled.inboxRow sampleDispatch.inboxKey).map (·.status) = some .complete ∧
      (receiveInbox "coder" sampleExecute.toFrame "2026-01-01T00:20:00.000Z" archived).map (·.1.2) =
        .ok true ∧
      AdmitsAt sampleOptions sampleDispatch "2026-01-01T00:20:00.000Z" archived := by
  decide

end Newide
