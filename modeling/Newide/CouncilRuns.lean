import Newide.CouncilSeats

/-!
# Interleavings of Council seats

What holds at each point of a seat's call, one step of it, and any
interleaving: no dispatch and no receipt is lost, and each is on record
once.
-/

namespace Newide

open Fallible Transaction Delivery SeatCall Reaches

variable {options : BridgeOptions} {runId : String} {w w' : World ProtocolDelivery}
  {call : SeatCall} {calls : Nat → SeatCall} {d₀ d d' : ProtocolDelivery}
  {current after : PersistedTaskAggregate}

/-! ## The points of a call -/

/-- The call's result had settled its exchange before the Council's first step. -/
def SeatCall.AcceptedBefore (d₀ : ProtocolDelivery) : SeatCall → Prop
  | .recordDispatch _ => False
  | .recordResult admission result _ _ =>
      SettledBy admission.executeInbox.key result.exchangeId d₀

def SeatCall.OnRecord (d₀ : ProtocolDelivery) (current : PersistedTaskAggregate) (call : SeatCall)
    (disposition : Option SapResultDisposition) : Prop :=
  disposition = some .late ∨ (disposition = some .duplicate ∧ call.AcceptedBefore d₀) ∨
    call.exchangeId ∈ listedIds call.receipt current

def SeatCall.At (options : BridgeOptions) (runId : String) (d₀ : ProtocolDelivery)
    (current : PersistedTaskAggregate) (d : ProtocolDelivery) (call : SeatCall) :
    SeatProgress → Prop
  | .accepting admission result =>
      (∃ phase participantId, call = .recordResult admission result phase participantId) ∧
        Refused admission result d
  | .committing plan _ => ∃ old, Behind old current ∧
      ∃ run stage event, Drafted options runId call old plan run stage event
  | .returned disposition => call.OnRecord d₀ current disposition
  | _ => True

variable {progress : SeatProgress} {attempts i : Nat} {env : Env}

theorem SeatCall.At.later (h : call.At options runId d₀ current d progress)
    (hlater : Later current after) (hreach : Reaches d d') :
    call.At options runId d₀ after d' progress := by
  cases progress with
  | accepting admission result => exact ⟨h.1, h.2.reaches hreach⟩
  | committing plan attempts =>
      obtain ⟨old, hbehind, hdrafted⟩ := h
      exact ⟨old, hbehind.trans hlater.behind, hdrafted⟩
  | returned disposition =>
      exact h.imp_right (Or.imp_right fun hlisted => hlater.listed _ hlisted)
  | reading => trivial
  | planning => trivial
  | threw => trivial

theorem SeatCall.read_at (hcurrent : seatAggregate runId w = some current) (d₀ : ProtocolDelivery) :
    call.At options runId d₀ current w.protocol (call.read options runId env attempts w.store) := by
  unfold read
  cases hplan : call.plan options env runId w.store with
  | error e => trivial
  | ok planned =>
      cases planned with
      | unchanged taskId =>
          obtain ⟨aggregate, haggregate, hlisted⟩ := plan_unchanged hplan
          cases hcurrent.symm.trans haggregate
          exact .inr (.inr hlisted)
      | commit plan =>
          obtain ⟨old, hold, hdrafted⟩ := plan_commit hplan
          cases hcurrent.symm.trans hold
          exact ⟨current, Behind.refl current, hdrafted⟩

/-- What a step leaves: the state of the Run is as before or one more receipt is listed, and a
call that has not returned has changed nothing. -/
structure SeatStepped (options : BridgeOptions) (runId : String) (calls : Nat → SeatCall) (i : Nat)
    (d₀ : ProtocolDelivery) (w : World ProtocolDelivery) (current : PersistedTaskAggregate)
    (next : SeatProgress × World ProtocolDelivery) (after : PersistedTaskAggregate) : Prop where
  aggregate : seatAggregate runId next.2 = some after
  ledger : Ledger runId calls d₀ after next.2.protocol
  later : Later current after
  reaches : Reaches w.protocol next.2.protocol
  holds : (calls i).At options runId d₀ after next.2.protocol next.1
  unreturned : (∀ disposition, next.1 ≠ .returned disposition) → next.2 = w
  listing : after = current ∨ (Lists runId (calls i) current after ∧
    (calls i).RowsWritten options w.protocol next.2.protocol)

theorem SeatStepped.idle (hcurrent : seatAggregate runId w = some current)
    (hledger : Ledger runId calls d₀ current w.protocol)
    (h : (calls i).At options runId d₀ current w.protocol progress) :
    SeatStepped options runId calls i d₀ w current (progress, w) current :=
  ⟨hcurrent, hledger, Later.refl current, refl _, h, fun _ => rfl, .inl rfl⟩

theorem SeatCall.begin_at (hcurrent : seatAggregate runId w = some current) (d₀ : ProtocolDelivery) :
    
    call.At options runId d₀ current w.protocol (call.begin options runId env attempts w) := by
  cases call with
  | recordDispatch dispatch => exact read_at hcurrent d₀
  | recordResult admission result phase participantId =>
      unfold begin
      dsimp only
      cases hclassify : (sapTaskBridge options).classifyResult w.protocol admission result with
      | error e => trivial
      | ok disposition =>
          obtain ⟨⟨classified, d'⟩, hrun, hout⟩ := mapped_eq_ok.mp hclassify
          obtain rfl : classified = disposition := hout
          obtain ⟨_, hdisposition, _⟩ := classifyResult_eq_ok.mp hrun
          cases classified with
          | accepted => trivial
          | late =>
              refine ⟨⟨phase, participantId, rfl⟩, fun haccepted => ?_⟩
              cases haccepted.symm.trans hdisposition
          | duplicate =>
              refine ⟨⟨phase, participantId, rfl⟩, fun haccepted => ?_⟩
              cases haccepted.symm.trans hdisposition

theorem acceptStep_spec {admission : SapExecutionAdmission} {result : SapResultFrame}
    (hcurrent : seatAggregate runId w = some current)
    (hledger : Ledger runId calls d₀ current w.protocol)
    (h : (calls i).At options runId d₀ current w.protocol (.accepting admission result)) :
    SeatStepped options runId calls i d₀ w current (acceptStep options admission result w)
      current := by
  obtain ⟨⟨phase, participantId, hcall⟩, hrefused⟩ := h
  unfold acceptStep
  cases haccept : Sap.acceptResult options admission result w.protocol with
  | error e => exact .idle hcurrent hledger trivial
  | ok out =>
      obtain ⟨disposition, protocol⟩ := out
      obtain ⟨hne, hopen, hduplicate⟩ := acceptResult_keepsOpen hrefused haccept
      have hreach := acceptResult _ _ _ haccept
      refine ⟨hcurrent, hledger.quiet hreach hopen, Later.refl current, hreach, ?_,
        fun hnever => absurd rfl (hnever _), .inl rfl⟩
      show (calls i).OnRecord d₀ current (some disposition)
      cases disposition with
      | accepted => exact absurd rfl hne
      | late => exact .inl rfl
      | duplicate =>
          rw [hcall]
          rcases hledger.settled _ _ (hduplicate rfl) with hbefore | hlisted
          · exact .inr (.inl ⟨rfl, hbefore⟩)
          · exact .inr (.inr hlisted)

theorem SeatCall.commitStep_spec {plan : Plan ProtocolDelivery}
    (hcurrent : seatAggregate runId w = some current)
    (hledger : Ledger runId calls d₀ current w.protocol)
    (h : (calls i).At options runId d₀ current w.protocol (.committing plan attempts)) :
    ∃ after, SeatStepped options runId calls i d₀ w current
      ((calls i).commitStep plan attempts w) after := by
  obtain ⟨old, hbehind, run, stage, event, hdrafted⟩ := h
  unfold commitStep
  cases hcommit : w.commit plan with
  | error e =>
      refine ⟨current, .idle hcurrent hledger ?_⟩
      split
      · trivial
      · trivial
  | ok out =>
      obtain ⟨committed, w'⟩ := out
      obtain ⟨after, hafter, hlists, hpre, hwrite⟩ := hdrafted.commits hcurrent hbehind hcommit
      have hrows := rowsWritten hpre hwrite
      refine ⟨after, hafter, hledger.lists hlists hrows, hlists.later, hrows.reaches, ?_,
        fun hnever => absurd rfl (hnever _), .inr ⟨hlists, hrows⟩⟩
      refine .inr (.inr ?_)
      rw [hlists.listed]
      exact List.mem_append_right _ (List.mem_singleton_self _)

theorem SeatCall.step_spec (env : Env) (hcurrent : seatAggregate runId w = some current)
    (hledger : Ledger runId calls d₀ current w.protocol)
    (h : (calls i).At options runId d₀ current w.protocol progress) :
    ∃ after, SeatStepped options runId calls i d₀ w current
      ((calls i).step options runId env w progress) after := by
  cases progress with
  | reading attempts =>
      cases attempts with
      | zero => exact ⟨current, .idle hcurrent hledger trivial⟩
      | succ attempts => exact ⟨current, .idle hcurrent hledger (begin_at hcurrent d₀)⟩
  | planning attempts => exact ⟨current, .idle hcurrent hledger (read_at hcurrent d₀)⟩
  | accepting admission result => exact ⟨current, acceptStep_spec hcurrent hledger h⟩
  | committing plan attempts => exact commitStep_spec hcurrent hledger h
  | returned disposition => exact ⟨current, .idle hcurrent hledger h⟩
  | threw e => exact ⟨current, .idle hcurrent hledger trivial⟩

/-! ## Every interleaving -/

/-- The step is a transaction that lists the exchange of a receipt, records its event and writes its
delivery rows. -/
def Recording (options : BridgeOptions) (runId : String) (calls : Nat → SeatCall)
    (receipt : CouncilReceipt) (exchangeId : String) (before : Council) (label : CouncilLabel)
    (after : Council) : Prop :=
  ∃ i env, label = .seat i env ∧ (calls i).receipt = receipt ∧ (calls i).exchangeId = exchangeId ∧
    ∃ current next, seatAggregate runId before.world = some current ∧
      seatAggregate runId after.world = some next ∧ Lists runId (calls i) current next ∧
      (calls i).RowsWritten options before.world.protocol after.world.protocol

/-- The step is one of seat `i` that changes the database. -/
def Changing (i : Nat) (before : Council) (label : CouncilLabel) (after : Council) : Prop :=
  (∃ env, label = .seat i env) ∧ after.world ≠ before.world

/-- What holds after every interleaving. -/
structure CouncilKept (options : BridgeOptions) (runId : String) (calls : Nat → SeatCall)
    (w₀ : World ProtocolDelivery) (labels : List CouncilLabel)
    (current : PersistedTaskAggregate) (s : Council) : Prop where
  aggregate : seatAggregate runId s.world = some current
  ledger : Ledger runId calls w₀.protocol current s.world.protocol
  holds : ∀ i, (calls i).At options runId w₀.protocol current s.world.protocol (s.progress i)
  recorded : ∀ receipt, ∀ exchangeId ∈ listedIds receipt current,
    Runs.Happened (Council.step options runId calls) (Council.start w₀) labels
      (Recording options runId calls receipt exchangeId)
  unchanged : ∀ i, (∀ disposition, s.progress i ≠ .returned disposition) →
    ¬ Runs.Happened (Council.step options runId calls) (Council.start w₀) labels (Changing i)

theorem SeatCall.step_returned
    (h : ∀ disposition, (call.step options runId env w progress).1 ≠ .returned disposition)
    (disposition : Option SapResultDisposition) : progress ≠ .returned disposition := by
  rintro rfl
  exact h disposition rfl

theorem serve_beginExecute (options : BridgeOptions) (w : World ProtocolDelivery)
    (now : Timestamp) (dispatch : SapExecuteDispatch) :
    ∃ protocol, SapCall.serve options w (.beginExecute now dispatch) = { w with protocol } ∧
      Reaches w.protocol protocol ∧ KeepsOpen w.protocol protocol := by
  unfold SapCall.serve
  cases hexec : SapCall.exec options w (.beginExecute now dispatch) with
  | error e => exact ⟨w.protocol, rfl, refl _, KeepsOpen.refl _⟩
  | ok w' =>
      obtain ⟨_, protocol, hbegin, rfl⟩ := World.transact_eq_ok.mp hexec
      exact ⟨protocol, rfl, beginExecute _ _ _ hbegin, KeepsOpen.beginExecute _ _ _ hbegin⟩

namespace CouncilKept

variable {w₀ : World ProtocolDelivery} {labels : List CouncilLabel}

theorem start (h : CouncilOpened runId calls w₀) :
    ∃ current, CouncilKept options runId calls w₀ [] current (Council.start w₀) := by
  obtain ⟨current, hcurrent, hlisted, hevents⟩ := h
  refine ⟨current, hcurrent, ⟨?_, ?_, ?_, fun _ _ => .inl⟩, fun _ => trivial, ?_, ?_⟩
  · intro receipt
    rw [hlisted]
    exact List.nodup_nil
  · intro i
    rw [hlisted, hevents]
    rfl
  · intro receipt exchangeId hmem
    rw [hlisted] at hmem
    cases hmem
  · intro receipt exchangeId hmem
    rw [hlisted] at hmem
    cases hmem
  · rintro i - ⟨pre, label, post, hnil, -⟩
    cases pre with
    | nil => cases hnil
    | cons => cases hnil

theorem seat (h : CouncilKept options runId calls w₀ labels current
      ((Council.start w₀).run options runId calls labels)) :
    ∃ after, CouncilKept options runId calls w₀ (labels ++ [.seat i env]) after
      ((Council.start w₀).run options runId calls (labels ++ [.seat i env])) := by
  have hrun : (Council.start w₀).run options runId calls (labels ++ [.seat i env]) =
      ((Council.start w₀).run options runId calls labels).step options runId calls
        (.seat i env) := List.foldl_append
  generalize hs : (Council.start w₀).run options runId calls labels = s at h hrun
  obtain ⟨after, hstep⟩ := step_spec env h.aggregate h.ledger (h.holds i)
  refine ⟨after, ?_⟩
  rw [hrun]
  refine ⟨hstep.aggregate, hstep.ledger, fun j => ?_, fun receipt exchangeId hmem => ?_,
    fun j hnever => ?_⟩
  · by_cases hj : j = i
    · subst hj
      simpa [Council.step] using hstep.holds
    · simpa [Council.step, hj] using (h.holds j).later hstep.later hstep.reaches
  · rcases hstep.listing with hsame | ⟨hlists, hrows⟩
    · rw [hsame] at hmem
      exact (h.recorded receipt exchangeId hmem).snoc
    · rw [hlists.listed_eq] at hmem
      rcases List.mem_append.mp hmem with hbefore | hnew
      · exact (h.recorded receipt exchangeId hbefore).snoc
      · refine .last ?_
        split at hnew
        next hreceipt =>
          rw [show List.foldl (Council.step options runId calls) (Council.start w₀) labels = s
            from hs]
          exact ⟨i, env, rfl, hreceipt.symm, (List.mem_singleton.mp hnew).symm, current, after,
            h.aggregate, hstep.aggregate, hlists, hrows⟩
        next => cases hnew
  · rw [Runs.happened_snoc_iff,
      show List.foldl (Council.step options runId calls) (Council.start w₀) labels = s from hs]
    rintro (hearlier | ⟨⟨env', hlabel⟩, hchanged⟩)
    · refine h.unchanged j (fun disposition => ?_) hearlier
      by_cases hj : j = i
      · subst hj
        have hopen : ∀ disposition, ((calls j).step options runId env s.world
            (s.progress j)).1 ≠ .returned disposition := by
          intro disposition
          simpa [Council.step] using hnever disposition
        exact step_returned hopen disposition
      · simpa [Council.step, hj] using hnever disposition
    · cases hlabel
      refine hchanged (hstep.unreturned fun disposition => ?_)
      simpa [Council.step] using hnever disposition

theorem agent {now : Timestamp} {dispatch : SapExecuteDispatch}
    (h : CouncilKept options runId calls w₀ labels current
      ((Council.start w₀).run options runId calls labels)) :
    CouncilKept options runId calls w₀ (labels ++ [.beginExecute now dispatch]) current
      ((Council.start w₀).run options runId calls (labels ++ [.beginExecute now dispatch])) := by
  have hrun : (Council.start w₀).run options runId calls (labels ++ [.beginExecute now dispatch]) =
      ((Council.start w₀).run options runId calls labels).step options runId calls
        (.beginExecute now dispatch) := List.foldl_append
  generalize (Council.start w₀).run options runId calls labels = s at h hrun
  obtain ⟨protocol, hworld, hreach, hopen⟩ := serve_beginExecute options s.world now dispatch
  have hstep : s.step options runId calls (.beginExecute now dispatch) =
      { s with world := { s.world with protocol } } := by
    rw [← hworld]
    rfl
  rw [hrun, hstep]
  refine ⟨h.aggregate, h.ledger.quiet hreach hopen,
    fun i => (h.holds i).later (Later.refl current) hreach,
    fun receipt exchangeId hmem => (h.recorded receipt exchangeId hmem).snoc, fun i hnever => ?_⟩
  rw [Runs.happened_snoc_iff]
  rintro (hearlier | ⟨⟨_, hlabel⟩, _⟩)
  · exact h.unchanged i hnever hearlier
  · cases hlabel

theorem run (h : CouncilOpened runId calls w₀) (labels : List CouncilLabel) :
    ∃ current, CouncilKept options runId calls w₀ labels current
      ((Council.start w₀).run options runId calls labels) := by
  induction labels using List.reverseRecOn with
  | nil => exact start h
  | append_singleton labels label ih =>
      obtain ⟨current, hkept⟩ := ih
      cases label with
      | seat i env => exact hkept.seat
      | beginExecute now dispatch => exact ⟨current, hkept.agent⟩

end CouncilKept

/-- Whatever the seats interleave with, and with the agents that begin their executes: a call that
has returned, neither with a late result nor with a duplicate of a result accepted before the
Council's first step, has its exchange listed once, with one event and with the delivery rows that
the same transaction wrote; a call that has thrown has changed nothing. -/
theorem council_loses_nothing {w₀ : World ProtocolDelivery} (h : CouncilOpened runId calls w₀)
    (labels : List CouncilLabel) (i : Nat) :
    (∀ disposition,
      ((Council.start w₀).run options runId calls labels).progress i = .returned disposition →
      disposition ≠ some .late →
      (disposition = some .duplicate → ¬ (calls i).AcceptedBefore w₀.protocol) →
      ∃ current,
        seatAggregate runId ((Council.start w₀).run options runId calls labels).world =
          some current ∧
        (listedIds (calls i).receipt current).count (calls i).exchangeId = 1 ∧
        (receiptEvents (calls i).receipt runId (calls i).exchangeId current).length = 1 ∧
        ExchangeStored (calls i).exchangeId
          ((Council.start w₀).run options runId calls labels).world.protocol ∧
        Runs.Happened (Council.step options runId calls) (Council.start w₀) labels
          (Recording options runId calls (calls i).receipt (calls i).exchangeId)) ∧
      ∀ error,
        ((Council.start w₀).run options runId calls labels).progress i = .threw error →
        ¬ Runs.Happened (Council.step options runId calls) (Council.start w₀) labels
          (Changing i) := by
  have hrun : ∃ current, CouncilKept options runId calls w₀ labels current
      ((Council.start w₀).run options runId calls labels) := CouncilKept.run h labels
  obtain ⟨current, hkept⟩ := hrun
  refine ⟨fun disposition hreturned hlate hduplicate => ?_, fun error hthrew => ?_⟩
  · have hrecord : (calls i).OnRecord w₀.protocol current disposition := by
      have hholds := hkept.holds i
      rw [hreturned] at hholds
      exact hholds
    have hlisted : (calls i).exchangeId ∈ listedIds (calls i).receipt current := by
      rcases hrecord with h | ⟨h, hbefore⟩ | h
      · exact absurd h hlate
      · exact absurd hbefore (hduplicate h)
      · exact h
    have hcount : (listedIds (calls i).receipt current).count (calls i).exchangeId = 1 :=
      List.count_eq_one_of_mem (hkept.ledger.nodup _) hlisted
    exact ⟨current, hkept.aggregate, hcount, (hkept.ledger.events i).trans hcount,
      hkept.ledger.stored _ _ hlisted, hkept.recorded _ _ hlisted⟩
  · refine hkept.unchanged i fun disposition hreturned => ?_
    rw [hthrew] at hreturned
    cases hreturned

def SeatProgress.returned? : SeatProgress → Option (Option SapResultDisposition)
  | .returned disposition => some disposition
  | _ => none

theorem SeatProgress.returned?_eq_some {disposition : Option SapResultDisposition}
    (h : progress.returned? = some disposition) :
    progress = .returned disposition := by
  cases progress with
  | returned => cases h; rfl
  | reading | planning | accepting | committing | threw => cases h

/-- Run `r` goes to its Council. -/
def councilRun : List Call :=
  [⟨stoppedEnv '1', .beginRun createRequest⟩,
   startCall '2' "r" .selectAgent,
   advanceCall '3' "r" .selectAgent (.executeAgent "a" none none) none,
   startCall '4' "r" .executeAgent,
   advanceCall '5' "r" .executeAgent (.council .agentRequest none none) none,
   startCall '6' "r" .council]

/-- The admission of the agent that takes `stageDispatch`. -/
def stageAdmission : SapExecutionAdmission where
  shouldExecute := true
  executeInbox :=
    let received := receivedRow "coder" stageDispatch.frame.toFrame "2026-01-01T00:00:00.000Z"
    received.withColumns (received.claim (Sap.leaseOwner stageDispatch) "2026-01-01T00:30:00.000Z")
  executeOutbox :=
    { id := "outbox_x"
      destination := "coder"
      frame := stageDispatch.frame.toFrame
      status := .sent
      nextAttemptAt := "2026-01-01T00:00:00.000Z"
      sentAt := some "2026-01-01T00:00:00.000Z"
      revision := 3 }
  leaseOwner := Sap.leaseOwner stageDispatch

def sampleSeats : Nat → SeatCall
  | 0 => .recordDispatch stageDispatch
  | 1 => .recordDispatch
      { stageDispatch with
        outboxId := "outbox_y"
        frame := { stageDispatch.frame with exchangeId := "y" } }
  | _ => .recordResult stageAdmission stageResult "proposal" "coder"

/-- The second dispatch is planned before the first commits, and is tried again. -/
def sampleInterleaving : List CouncilLabel :=
  [.seat 0 (stoppedEnv '7'), .seat 1 (stoppedEnv '8'), .seat 0 (stoppedEnv '7'),
   .seat 1 (stoppedEnv '8'), .seat 1 (stoppedEnv '9'), .seat 1 (stoppedEnv '9'),
   .beginExecute "2026-01-01T00:00:00.000Z" stageDispatch, .seat 2 (stoppedEnv 'A'),
   .seat 2 (stoppedEnv 'A'), .seat 2 (stoppedEnv 'A')]

theorem council_loses_nothing_sample : ∃ w₀ current,
    seatAggregate "r" ((Council.start w₀).run sampleOptions "r" sampleSeats
      sampleInterleaving).world = some current ∧
    (listedIds .dispatched current).count "y" = 1 ∧ (listedIds .accepted current).count "r" = 1 := by
  obtain ⟨w₀, _, ⟨aggregate, haggregate, hlisted, hevents⟩, hdispatch, hresult⟩ := exists_run
    sapBridges { store := .empty, protocol := .empty } councilRun
    (P := fun w => (∃ aggregate ∈ seatAggregate "r" w,
        (listedIds .dispatched aggregate = [] ∧ listedIds .accepted aggregate = []) ∧
        ∀ event ∈ aggregate.events, event.eventType ≠ CouncilReceipt.dispatched.eventType ∧
          event.eventType ≠ CouncilReceipt.accepted.eventType) ∧
      (((Council.start w).run sampleOptions "r" sampleSeats sampleInterleaving).progress
        1).returned? = some none ∧
      (((Council.start w).run sampleOptions "r" sampleSeats sampleInterleaving).progress
        2).returned? = some (some .accepted)) (by decide)
  have hopened : CouncilOpened "r" sampleSeats w₀ := by
    refine ⟨aggregate, haggregate, fun receipt => ?_, fun i => List.filter_eq_nil_iff.mpr ?_⟩
    · cases receipt with
      | dispatched => exact hlisted.1
      | accepted => exact hlisted.2
    · intro event hmem hkept
      obtain ⟨hne, hne'⟩ := hevents event hmem
      have htype := (of_decide_eq_true hkept).1
      cases hreceipt : (sampleSeats i).receipt with
      | dispatched => exact hne (hreceipt ▸ htype)
      | accepted => exact hne' (hreceipt ▸ htype)
  obtain ⟨current, hcurrent, hcount, _⟩ :=
    (council_loses_nothing hopened sampleInterleaving 1).1 none
      (SeatProgress.returned?_eq_some hdispatch) (by decide) fun h => (by cases h)
  obtain ⟨current', hcurrent', hcount', _⟩ :=
    (council_loses_nothing hopened sampleInterleaving 2).1 (some .accepted)
      (SeatProgress.returned?_eq_some hresult) (by decide) fun h => (by cases h)
  cases hcurrent.symm.trans hcurrent'
  exact ⟨w₀, current, hcurrent, hcount, hcount'⟩

end Newide
