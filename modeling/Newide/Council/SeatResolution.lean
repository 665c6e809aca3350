import Newide.Council.Panel
import Newide.Foundation.Tables
import Newide.Hook.Loader
import Mathlib.Algebra.Order.Ring.Rat

/-!
# Who takes the seats of a Council

`src/council/council-participant-resolver.ts`: the seats of a round are bound
to agents of the board, by a fixed mapping, by an auction, or in the order of
the candidates.  The selector of the auction may answer anything; its answers
are held against the list of all candidates.
-/

namespace Newide.Council

open Fallible Memory

/-! ## The board -/

structure AgentBoardListItem where
  roleId : String
  status : String
  tags : List String := []

/-- The agents of the repository, which keeps them by their role ids; a blank id is refused when
an agent is registered. -/
structure AgentBoard where
  agents : List AgentBoardListItem
  distinct : (agents.map (·.roleId)).Nodup
  named : ∀ agent ∈ agents, isNonEmptyString agent.roleId

def AgentBoardListItem.eligible (agent : AgentBoardListItem) : Bool :=
  agent.status ∈ ["created", "active", "idle"]

structure CouncilParticipantResolutionInput where
  runId : String
  participantProfileRefs : List String := []
  primaryAgentId : Option String := none

structure CouncilParticipantAuctionInput where
  seat : CouncilSeat
  seatIndex : Nat
  candidateAgentIds : List String
  excludedAgentIds : List String

structure CouncilParticipantAuctionResult where
  agentId : String
  selectionRefs : List String := []

abbrev CouncilParticipantAuctionSelector :=
  CouncilParticipantAuctionInput → Except String CouncilParticipantAuctionResult

structure CouncilSeatAssignments where
  proposer0 : String
  proposer1 : String
  reviewer : String
  synthesizer : String

/-- `hash` is the first eight hex digits of the SHA-256. -/
structure AgentBoardCouncilParticipantResolver where
  allowedAgentIds : List String := []
  resolveAllowedAgentIds : Option (Except String (List String)) := none
  ensureAgent : String → Except String Unit := fun _ => .ok ()
  seatAssignments : Option CouncilSeatAssignments := none
  auctionSelector : Option CouncilParticipantAuctionSelector := none
  auctionEnabled : Bool := false
  proposerCount : Nat := 2
  proposers : 2 ≤ proposerCount := by decide
  hash : String → String
  hex : ∀ text, ∀ c ∈ (hash text).toList, c.isAlphanum

open AgentBoardCouncilParticipantResolver

inductive SelectionMode where
  | fixed | auction | boardOrder
deriving DecidableEq

structure SeatBinding extends CouncilParticipantBinding where
  roleProfileRef : String
  selectionRefs : List String := []
  conflictFlags : List String := []

structure SeatAssignment where
  seat : CouncilSeat
  seatIndex : Nat
  agentId : String
  selectionRefs : List String := []

def SeatAssignment.place (a : SeatAssignment) : CouncilSeat × Nat := (a.seat, a.seatIndex)

def seatCode : CouncilSeat → Char
  | .proposer => 'p'
  | .reviewer => 'r'
  | .synthesizer => 's'

def CouncilSeat.text : CouncilSeat → String
  | .proposer => "proposer"
  | .reviewer => "reviewer"
  | .synthesizer => "synthesizer"

/-! ## Candidates -/

def preferenceOf (preferredAgentIds : List String) (roleId : String) : Nat :=
  ((preferredAgentIds.zipIdx.filter (·.1 = roleId)).getLast?.map Prod.snd).getD (2 ^ 53 - 1)

def orderCandidates (agents : List AgentBoardListItem) (preferredAgentIds : List String) :
    List AgentBoardListItem :=
  agents.insertionSort fun left right =>
    let leftPreference := preferenceOf preferredAgentIds left.roleId
    let rightPreference := preferenceOf preferredAgentIds right.roleId
    leftPreference < rightPreference ∨
      leftPreference = rightPreference ∧ Hook.codeUnits left.roleId ≤ Hook.codeUnits right.roleId

def candidatesFor (board : AgentBoard) (allowed : List String)
    (input : CouncilParticipantResolutionInput) : List AgentBoardListItem :=
  orderCandidates
    (board.agents.filter fun agent =>
      agent.roleId ∈ allowed ∧ agent.eligible ∧ "council_only" ∉ agent.tags)
    input.participantProfileRefs

/-! ## Bindings -/

def countAgentUsage (assignments : List SeatBinding) (agentId : String) : Nat :=
  (assignments.map (·.agentId)).count agentId

def reuseFlag : String := "agent_reused_across_council_seats"

def flagReused (assignments : List SeatBinding) : List SeatBinding :=
  assignments.map fun assignment =>
    if countAgentUsage assignments assignment.agentId > 1 then
      { assignment with
        conflictFlags := assignment.conflictFlags ++ [reuseFlag, "best_effort_identity"] }
    else assignment

/-- The ids that a seat is offered: those not used yet, or all when there are none. -/
def offered (candidates used : List String) : List String :=
  let available := candidates.filter (· ∉ used)
  if available.length > 0 then available else candidates

def selectAuctionSeat (selector : CouncilParticipantAuctionSelector) (candidates : List String)
    (place : CouncilSeat × Nat) (used : List String) :
    Except String CouncilParticipantAuctionResult := do
  let selected ← selector
    { seat := place.1
      seatIndex := place.2
      candidateAgentIds := offered candidates used
      excludedAgentIds := used }
  ensure (selected.agentId ∈ candidates)
    ("Council auction selected ineligible Agent " ++ selected.agentId)
  .ok selected

/-- The seats after the first, one after another. -/
def selectSeats (selector : CouncilParticipantAuctionSelector) (candidates : List String) :
    List (CouncilSeat × Nat) → List String → Except String (List SeatAssignment)
  | [], _ => .ok []
  | place :: places, used => do
      let selected ← selectAuctionSeat selector candidates place used
      let more ← selectSeats selector candidates places
        (if selected.agentId ∈ used then used else used ++ [selected.agentId])
      let assignment : SeatAssignment :=
        { seat := place.1
          seatIndex := place.2
          agentId := selected.agentId
          selectionRefs := selected.selectionRefs }
      .ok (assignment :: more)

def auctionPlaces (proposerCount : Nat) : List (CouncilSeat × Nat) :=
  (List.range' 1 (proposerCount - 1)).map (.proposer, ·) ++ [(.reviewer, 0), (.synthesizer, 0)]

namespace AgentBoardCouncilParticipantResolver

variable (resolver : AgentBoardCouncilParticipantResolver)

def selectionMode : SelectionMode :=
  if resolver.seatAssignments.isSome then .fixed
  else if resolver.auctionEnabled then .auction else .boardOrder

/-- `council/council-participant.ts` -/
def createCouncilParticipantId (runId : String) (seat : CouncilSeat) (seatIndex : Nat)
    (agentId : String) : String :=
  let digest := resolver.hash
    (runId ++ "\x00" ++ seat.text ++ "\x00" ++ toString seatIndex ++ "\x00" ++ agentId)
  "cp_" ++ String.singleton (seatCode seat) ++ toString seatIndex ++ "_" ++ digest

def binding (input : CouncilParticipantResolutionInput) (a : SeatAssignment) : SeatBinding where
  participantId := resolver.createCouncilParticipantId input.runId a.seat a.seatIndex a.agentId
  seat := a.seat
  seatIndex := a.seatIndex
  agentId := a.agentId
  roleProfileRef := a.agentId
  selectionRefs := a.selectionRefs

def resolveAllowedSet : Except String (List String) :=
  resolver.resolveAllowedAgentIds.getD (.ok resolver.allowedAgentIds)

def resolveFixedSeats (input : CouncilParticipantResolutionInput) (board : AgentBoard)
    (allowed : List String) (assignments : CouncilSeatAssignments) :
    Except String (List SeatBinding) := do
  let entries : List SeatAssignment :=
    [{ seat := .proposer, seatIndex := 0, agentId := assignments.proposer0 },
      { seat := .proposer, seatIndex := 1, agentId := assignments.proposer1 },
      { seat := .reviewer, seatIndex := 0, agentId := assignments.reviewer },
      { seat := .synthesizer, seatIndex := 0, agentId := assignments.synthesizer }]
  ensure (entries.map (·.agentId)).Nodup
    "Council seatAssignments must map to four distinct role_ids (proposer0/proposer1/reviewer/synthesizer)."
  entries.forM fun entry => do
    ensure (entry.agentId ∈ allowed)
      ("Council seat role_id " ++ entry.agentId ++ " is not in the allowed roster")
    ensure ((board.agents.find? (·.roleId = entry.agentId)).any (·.eligible))
      ("Council seat role_id " ++ entry.agentId ++ " has no eligible persisted Agent")
  .ok (entries.map (resolver.binding input))

def resolveAuctionSeats (input : CouncilParticipantResolutionInput) (board : AgentBoard)
    (allowed : List String) : Except String (List SeatBinding) := do
  let selector ← orThrow resolver.auctionSelector
    "Council auction mode requires an auction selector"
  match (candidatesFor board allowed input).map (·.roleId) with
  | first :: second :: rest =>
      let candidates := first :: second :: rest
      let primary := input.primaryAgentId.getD first
      ensure (primary ∈ allowed ∧ primary ∈ candidates)
        ("Council primary Agent " ++ primary ++ " is not eligible for auction participation")
      let selected ← selectSeats selector candidates (auctionPlaces resolver.proposerCount) [primary]
      let assignments := { seat := .proposer, seatIndex := 0, agentId := primary } :: selected
      .ok (flagReused (assignments.map (resolver.binding input)))
  | candidates => .error ("Council requires at least two distinct persisted Agents; found " ++
      toString candidates.length ++ ".")

def resolveBoardOrder (input : CouncilParticipantResolutionInput) (board : AgentBoard)
    (allowed : List String) : Except String (List SeatBinding) :=
  match (candidatesFor board allowed input).map (·.roleId) with
  | first :: second :: rest =>
      let assignments : List SeatAssignment :=
        [{ seat := .proposer, seatIndex := 0, agentId := first },
          { seat := .proposer, seatIndex := 1, agentId := second },
          { seat := .reviewer, seatIndex := 0, agentId := rest[0]?.getD second },
          { seat := .synthesizer, seatIndex := 0, agentId := rest[1]?.getD first }]
      .ok (flagReused (assignments.map (resolver.binding input)))
  | [] => .error "No eligible persisted Agent is available for Council participation"
  | _ => .error "Council requires at least two distinct persisted Agents; found 1."

def resolve (input : CouncilParticipantResolutionInput) (board : AgentBoard) :
    Except String (List SeatBinding) := do
  let allowed ← resolver.resolveAllowedSet
  (allowed.dedup.insertionSort fun a b => Hook.codeUnits a ≤ Hook.codeUnits b).forM
    resolver.ensureAgent
  match resolver.seatAssignments with
  | some assignments => resolver.resolveFixedSeats input board allowed assignments
  | none =>
      if resolver.auctionEnabled then resolver.resolveAuctionSeats input board allowed
      else resolver.resolveBoardOrder input board allowed

end AgentBoardCouncilParticipantResolver

/-! ## What the validation asks for -/

variable {resolver : AgentBoardCouncilParticipantResolver} {input : CouncilParticipantResolutionInput}
  {board : AgentBoard} {allowed : List String} {assignments : List SeatAssignment}
  {places : List (CouncilSeat × Nat)}

variable {participants : List CouncilParticipantBinding} {n : Nat}

theorem checkEach_ok :
    ∀ {seen : List String},
      (∀ p ∈ participants, isParticipantId p.participantId ∧ isNonEmptyString p.agentId ∧
        p.seatIndex.isInt ∧ 0 ≤ p.seatIndex ∧ p.participantId ∉ seen) →
      (participants.map (·.participantId)).Nodup → checkEach seen participants = .ok () := by
  induction participants with
  | nil => exact fun _ _ => rfl
  | cons p rest ih =>
      intro seen hvalid hnodup
      obtain ⟨hid, hagent, hint, hle, hnew⟩ := hvalid p List.mem_cons_self
      obtain ⟨hfresh, hnodup⟩ := List.nodup_cons.mp hnodup
      have hp : checkParticipant seen p = .ok () := by
        simp only [checkParticipant, bind_eq_ok, ensure_eq_ok, exists_const]
        exact ⟨hid, hagent, ⟨hint, hle⟩, hnew⟩
      refine bind_eq_ok.mpr ⟨(), hp, ih (fun q hq => ?_) hnodup⟩
      obtain ⟨hqid, hqagent, hqint, hqle, hqnew⟩ := hvalid q (List.mem_cons_of_mem _ hq)
      refine ⟨hqid, hqagent, hqint, hqle, ?_⟩
      rintro hin
      rcases List.mem_cons.mp hin with hsame | hin
      · exact hfresh (List.mem_map.mpr ⟨q, hq, hsame⟩)
      · exact hqnew hin

theorem participantId_toList (runId : String) (a : SeatAssignment) : ∃ digest : List Char,
    (∀ c ∈ digest, c.isAlphanum) ∧
      (resolver.createCouncilParticipantId runId a.seat a.seatIndex a.agentId).toList =
        ('c' :: 'p' :: '_' :: seatCode a.seat :: (toString a.seatIndex).toList) ++
          '_' :: digest := by
  unfold createCouncilParticipantId
  dsimp only
  generalize hdigest : resolver.hash _ = digest
  exact ⟨digest.toList, hdigest ▸ resolver.hex _, by simp⟩

theorem isParticipantId_created (runId : String) (a : SeatAssignment) :
    isParticipantId (resolver.createCouncilParticipantId runId a.seat a.seatIndex a.agentId) := by
  obtain ⟨digest, hdigest, hlist⟩ := @participantId_toList resolver runId a
  have hcode : (seatCode a.seat).isAlphanum := by cases a.seat <;> decide
  have hdigits : ∀ c ∈ (toString a.seatIndex).toList, c.isAlphanum := fun c hc => by
    simp [Char.isAlphanum, Tables.isDigit_of_mem hc]
  unfold isParticipantId
  generalize resolver.createCouncilParticipantId runId a.seat a.seatIndex a.agentId = id at hlist
  have hsome : id ≠ "" := by
    rintro rfl
    cases hlist
  rw [hlist]
  simp only [hsome, hcode, ne_eq, not_false_eq_true, decide_true, Bool.true_and, List.all_append,
    List.all_cons, Bool.and_eq_true, List.all_eq_true, Bool.or_eq_true]
  exact ⟨⟨by decide, by decide, by decide, .inl (.inl trivial), fun c hc => .inl (.inl (hdigits c hc))⟩,
    by decide, fun c hc => .inl (.inl (hdigest c hc))⟩

theorem place_of_participantId {runId : String} {a b : SeatAssignment}
    (h : resolver.createCouncilParticipantId runId a.seat a.seatIndex a.agentId =
      resolver.createCouncilParticipantId runId b.seat b.seatIndex b.agentId) :
    a.place = b.place := by
  obtain ⟨digest, hdigest, hlist⟩ := @participantId_toList resolver runId a
  obtain ⟨digest', hdigest', hlist'⟩ := @participantId_toList resolver runId b
  rw [h, hlist'] at hlist
  obtain ⟨hfront, -⟩ := Tables.append_separator_inj hlist
    (fun hin => absurd (hdigest' _ hin) (by decide)) (fun hin => absurd (hdigest _ hin) (by decide))
  simp only [List.cons.injEq, true_and] at hfront
  obtain ⟨hcode, hdigits⟩ := hfront
  have hseat : a.seat = b.seat := by
    revert hcode
    cases a.seat <;> cases b.seat <;> decide
  exact Prod.ext hseat (Tables.digits_injective hdigits.symm)

/-- The seats of a round with `n` proposers. -/
def seatsOf (n : Nat) : List (CouncilSeat × Nat) :=
  (List.range n).map (.proposer, ·) ++ [(.reviewer, 0), (.synthesizer, 0)]

theorem checkSeats_ok (hn : 2 ≤ n) (h : participants.map (fun p => (p.seat, p.seatIndex)) =
      (seatsOf n).map fun place => (place.1, (place.2 : Rat))) :
    checkSeats participants = .ok () := by
  have hseat (seat : CouncilSeat) : (ofSeat seat participants).map (·.seatIndex) =
      (((seatsOf n).filter (·.1 = seat)).map Prod.snd).map fun i : Nat => (i : Rat) := by
    have hfilter := congrArg (fun places => (places.filter (·.1 = seat)).map Prod.snd) h
    simpa [List.filter_map, ofSeat, Function.comp_def] using hfilter
  have hproposers : (ofSeat .proposer participants).map (·.seatIndex) =
      (List.range n).map fun i : Nat => (i : Rat) := by
    rw [hseat]
    simp [seatsOf, List.filter_map, Function.comp_def]
  have hsingle (seat : CouncilSeat) (hne : seat ≠ .proposer) :
      (ofSeat seat participants).length = 1 := by
    rw [← List.length_map (·.seatIndex), hseat]
    cases seat <;> simp_all [seatsOf, List.filter_map, Function.comp_def]
  simp only [checkSeats, bind_eq_ok, ensure_eq_ok, exists_const]
  refine ⟨⟨?_, ?_⟩, hsingle _ (by decide), hsingle _ (by decide)⟩
  · rw [← List.length_map (·.seatIndex), hproposers]
    simpa using hn
  · rw [hproposers]
    exact List.nodup_range.map Nat.cast_injective

theorem validate_bound (hn : 2 ≤ n) (hseats : assignments.map (·.place) = seatsOf n)
    (hnamed : ∀ a ∈ assignments, isNonEmptyString a.agentId) :
    ∃ panel, validateParticipants
      (assignments.map fun a => (resolver.binding input a).toCouncilParticipantBinding) =
        .ok panel := by
  have hplaces : (assignments.map (·.place)).Nodup := by
    rw [hseats]
    refine List.nodup_append.mpr ⟨List.nodup_range.map (Prod.mk_right_injective _), by decide, ?_⟩
    simp
  have heach : checkEach [] (assignments.map fun a =>
      (resolver.binding input a).toCouncilParticipantBinding) = .ok () := by
    refine checkEach_ok (fun p hp => ?_) ?_
    · obtain ⟨a, ha, rfl⟩ := List.mem_map.mp hp
      exact ⟨isParticipantId_created _ _, hnamed a ha, by simp [binding, Rat.isInt], Rat.natCast_nonneg, by simp⟩
    · rw [List.map_map, List.Nodup, List.pairwise_map]
      exact (List.pairwise_map.mp hplaces).imp fun hne hsame => hne (place_of_participantId hsame)
  have hchecked : checkSeats (assignments.map fun a =>
      (resolver.binding input a).toCouncilParticipantBinding) = .ok () := by
    refine checkSeats_ok hn ?_
    rw [← hseats, List.map_map, List.map_map]
    rfl
  unfold validateParticipants
  split
  · exact ⟨_, rfl⟩
  · simp_all
  · simp_all

/-! ## The seats of a resolution -/

/-- A selector that keeps to the ids it is offered. -/
def PicksOffered (selector : CouncilParticipantAuctionSelector) : Prop :=
  ∀ call selected, selector call = .ok selected → selected.agentId ∈ call.candidateAgentIds

def boundAgents (bindings : List SeatBinding) : List String := bindings.map (·.agentId)

structure BoundValidly (resolver : AgentBoardCouncilParticipantResolver)
    (input : CouncilParticipantResolutionInput) (board : AgentBoard) (allowed : List String)
    (bindings : List SeatBinding) : Prop where
  accepted : ∃ panel,
    validateParticipants (bindings.map (·.toCouncilParticipantBinding)) = .ok panel
  eligible : ∀ agentId ∈ boundAgents bindings, agentId ∈ allowed ∧ ∃ agent ∈ board.agents,
    agent.roleId = agentId ∧ agent.eligible ∧
      (resolver.selectionMode ≠ .fixed → "council_only" ∉ agent.tags)
  distinct : ∃ a ∈ boundAgents bindings, ∃ b ∈ boundAgents bindings, a ≠ b
  flagged : ∀ b ∈ bindings,
    reuseFlag ∈ b.conflictFlags ↔ 1 < (boundAgents bindings).count b.agentId
  separate : bindings.length ≤ (candidatesFor board allowed input).length →
    (∀ selector ∈ resolver.auctionSelector, PicksOffered selector) → (boundAgents bindings).Nodup

theorem participants_flagReused (bindings : List SeatBinding) :
    (flagReused bindings).map (·.toCouncilParticipantBinding) =
      bindings.map (·.toCouncilParticipantBinding) := by
  unfold flagReused
  rw [List.map_map]
  refine List.map_congr_left fun b _ => ?_
  dsimp only [Function.comp]
  split_ifs <;> rfl

theorem boundAgents_flagReused (bindings : List SeatBinding) :
    boundAgents (flagReused bindings) = boundAgents bindings := by
  have h := congrArg (List.map (·.agentId)) (participants_flagReused bindings)
  simpa [boundAgents, Function.comp_def] using h

theorem flagReused_of_nodup {bindings : List SeatBinding} (h : (boundAgents bindings).Nodup) :
    flagReused bindings = bindings := by
  refine (List.map_congr_left fun b _ => ?_).trans (List.map_id _)
  have hcount := List.nodup_iff_count_le_one.mp h b.agentId
  exact if_neg (Nat.not_lt.mpr hcount)

theorem boundValidly_iff (hn : 2 ≤ n) (hseats : assignments.map (·.place) = seatsOf n)
    (heligible : ∀ agentId ∈ assignments.map (·.agentId), agentId ∈ allowed ∧
      ∃ agent ∈ board.agents, agent.roleId = agentId ∧ agent.eligible ∧
        (resolver.selectionMode ≠ .fixed → "council_only" ∉ agent.tags))
    (hseparate : assignments.length ≤ (candidatesFor board allowed input).length →
      (∀ selector ∈ resolver.auctionSelector, PicksOffered selector) →
      (assignments.map (·.agentId)).Nodup) :
    BoundValidly resolver input board allowed
        (flagReused (assignments.map (resolver.binding input))) ↔
      ∃ a ∈ assignments.map (·.agentId), ∃ b ∈ assignments.map (·.agentId), a ≠ b := by
  have hbound : boundAgents (assignments.map (resolver.binding input)) =
      assignments.map (·.agentId) := by
    rw [boundAgents, List.map_map]
    rfl
  have hagents : boundAgents (flagReused (assignments.map (resolver.binding input))) =
      assignments.map (·.agentId) := (boundAgents_flagReused _).trans hbound
  refine ⟨fun h => hagents ▸ h.distinct, fun hdistinct => ⟨?_, ?_, ?_, ?_, ?_⟩⟩
  · rw [participants_flagReused, List.map_map]
    refine validate_bound hn hseats fun a ha => ?_
    obtain ⟨-, agent, hagent, hid, -⟩ := heligible _ (List.mem_map_of_mem ha)
    exact hid ▸ board.named agent hagent
  · rwa [hagents]
  · rwa [hagents]
  · intro b hb
    obtain ⟨c, hc, rfl⟩ := List.mem_map.mp hb
    obtain ⟨a, -, rfl⟩ := List.mem_map.mp hc
    have husage : countAgentUsage (assignments.map (resolver.binding input)) a.agentId =
        (assignments.map (·.agentId)).count a.agentId := congrArg (List.count a.agentId) hbound
    have hagent : (resolver.binding input a).agentId = a.agentId := rfl
    rw [hagents, hagent, husage]
    split_ifs with hcount
    · simpa [reuseFlag, hagent] using hcount
    · simpa [binding] using hcount
  · rw [hagents]
    simpa [flagReused] using hseparate

/-! ## The auction -/

variable {selector : CouncilParticipantAuctionSelector} {candidates used : List String}
  {chosen : List SeatAssignment} {primary : String}

theorem selectAuctionSeat_eq_ok {place : CouncilSeat × Nat}
    {selected : CouncilParticipantAuctionResult} :
    selectAuctionSeat selector candidates place used = .ok selected ↔
      selector
        { seat := place.1
          seatIndex := place.2
          candidateAgentIds := offered candidates used
          excludedAgentIds := used } = .ok selected ∧ selected.agentId ∈ candidates := by
  simp only [selectAuctionSeat, bind_eq_ok, ensure_eq_ok, exists_const]
  constructor
  · rintro ⟨_, hselect, hin, ⟨⟩⟩
    exact ⟨hselect, hin⟩
  · rintro ⟨hselect, hin⟩
    exact ⟨_, hselect, hin, rfl⟩

theorem selectSeats_places (h : selectSeats selector candidates places used = .ok chosen) :
    chosen.map (·.place) = places ∧ ∀ a ∈ chosen, a.agentId ∈ candidates := by
  induction places generalizing used chosen with
  | nil =>
      cases h
      exact ⟨rfl, by simp⟩
  | cons place places ih =>
      obtain ⟨selected, hselected, hrest⟩ := bind_eq_ok.mp h
      obtain ⟨more, hmore, ⟨⟩⟩ := bind_eq_ok.mp hrest
      obtain ⟨hplaces, hin⟩ := ih hmore
      exact ⟨congrArg (place :: ·) hplaces,
        List.forall_mem_cons.mpr ⟨(selectAuctionSeat_eq_ok.mp hselected).2, hin⟩⟩

theorem selectSeats_nodup (hpicks : PicksOffered selector) (hused : used.Nodup)
    (hroom : used.length + places.length ≤ candidates.length) (hdistinct : candidates.Nodup)
    (h : selectSeats selector candidates places used = .ok chosen) :
    (used ++ chosen.map (·.agentId)).Nodup := by
  induction places generalizing used chosen with
  | nil =>
      cases h
      simpa using hused
  | cons place places ih =>
      obtain ⟨selected, hselected, hrest⟩ := bind_eq_ok.mp h
      obtain ⟨more, hmore, ⟨⟩⟩ := bind_eq_ok.mp hrest
      have hleft : 0 < (candidates.filter (· ∉ used)).length := by
        obtain ⟨c, hc, hnot⟩ : ∃ c ∈ candidates, c ∉ used := by
          by_contra hall
          push Not at hall
          have hle := (List.subperm_of_subset hdistinct hall).length_le
          simp only [List.length_cons] at hroom
          omega
        exact List.length_pos_of_mem (List.mem_filter.mpr ⟨hc, decide_eq_true hnot⟩)
      have hpick := hpicks _ _ (selectAuctionSeat_eq_ok.mp hselected).1
      dsimp only at hpick
      rw [offered, if_pos hleft] at hpick
      have hnew : selected.agentId ∉ used := of_decide_eq_true (List.mem_filter.mp hpick).2
      rw [if_neg hnew] at hmore
      have hnodup := ih (List.concat_eq_append ▸ hused.concat hnew)
        (by simpa [Nat.add_right_comm, Nat.add_assoc] using hroom) hmore
      simpa using hnodup

/-- The selector answers with the primary agent for every seat, offered the others or not. -/
def AlwaysPrimary (selector : CouncilParticipantAuctionSelector) (candidates : List String)
    (primary : String) (places : List (CouncilSeat × Nat)) : Prop :=
  ∀ place ∈ places, ∀ selected, selector
    { seat := place.1
      seatIndex := place.2
      candidateAgentIds := offered candidates [primary]
      excludedAgentIds := [primary] } = .ok selected → selected.agentId = primary

theorem selectSeats_primary (h : selectSeats selector candidates places [primary] = .ok chosen) :
    (∀ a ∈ chosen, a.agentId = primary) ↔ AlwaysPrimary selector candidates primary places := by
  induction places generalizing chosen with
  | nil =>
      cases h
      exact ⟨fun _ _ hin => (nomatch hin), fun _ _ hin => (nomatch hin)⟩
  | cons place places ih =>
      obtain ⟨selected, hselected, hrest⟩ := bind_eq_ok.mp h
      obtain ⟨more, hmore, ⟨⟩⟩ := bind_eq_ok.mp hrest
      have hselect := (selectAuctionSeat_eq_ok.mp hselected).1
      unfold AlwaysPrimary
      rw [List.forall_mem_cons, List.forall_mem_cons]
      by_cases hsame : selected.agentId = primary
      · rw [if_pos (by simp [hsame])] at hmore
        refine and_congr ⟨fun _ other hother => ?_, fun _ => hsame⟩ (ih hmore)
        rw [hselect] at hother
        cases hother
        exact hsame
      · exact ⟨fun hall => absurd hall.1 hsame, fun hall => absurd (hall.1 _ hselect) hsame⟩

/-! ## All modes -/

variable {bindings : List SeatBinding}

theorem mem_candidatesFor {agent : AgentBoardListItem} :
    agent ∈ candidatesFor board allowed input ↔ agent ∈ board.agents ∧ agent.roleId ∈ allowed ∧
      agent.eligible ∧ "council_only" ∉ agent.tags := by
  unfold candidatesFor orderCandidates
  rw [(List.perm_insertionSort _ _).mem_iff, List.mem_filter, decide_eq_true_eq]

theorem candidatesFor_nodup : ((candidatesFor board allowed input).map (·.roleId)).Nodup := by
  unfold candidatesFor orderCandidates
  rw [((List.perm_insertionSort _ _).map _).nodup_iff]
  exact board.distinct.sublist (List.filter_sublist.map _)

theorem eligible_of_candidate {agentId : String}
    (h : agentId ∈ (candidatesFor board allowed input).map (·.roleId)) :
    agentId ∈ allowed ∧ ∃ agent ∈ board.agents, agent.roleId = agentId ∧ agent.eligible ∧
      (resolver.selectionMode ≠ .fixed → "council_only" ∉ agent.tags) := by
  obtain ⟨agent, hagent, rfl⟩ := List.mem_map.mp h
  obtain ⟨hboard, hallowed, heligible, htags⟩ := mem_candidatesFor.mp hagent
  exact ⟨hallowed, agent, hboard, rfl, heligible, fun _ => htags⟩

theorem resolveFixedSeats_valid {fixed : CouncilSeatAssignments}
    (hmode : resolver.seatAssignments = some fixed)
    (h : resolver.resolveFixedSeats input board allowed fixed = .ok bindings) :
    BoundValidly resolver input board allowed bindings := by
  simp only [resolveFixedSeats, bind_eq_ok, ensure_eq_ok,
    exists_const] at h
  obtain ⟨hnodup, ⟨⟩, heach, hbindings⟩ := h
  have heach := forM_eq_ok.mp heach
  have hflags : flagReused bindings = bindings := by
    refine flagReused_of_nodup ?_
    rw [← Except.ok.inj hbindings]
    exact hnodup
  rw [← hflags, ← Except.ok.inj hbindings]
  refine (boundValidly_iff (Nat.le_refl 2) (by rfl) ?_ fun _ _ => hnodup).mpr ?_
  · intro agentId hagentId
    obtain ⟨entry, hentry, rfl⟩ := List.mem_map.mp hagentId
    have hchecks := heach entry hentry
    simp only [bind_eq_ok, ensure_eq_ok, exists_const] at hchecks
    obtain ⟨hallowed, helig⟩ := hchecks
    obtain ⟨agent, hfind, heligible⟩ := (Option.any_eq_true _ _).mp helig
    exact ⟨hallowed, agent, List.mem_of_find?_eq_some hfind,
      by simpa using List.find?_some hfind, heligible,
      fun hne => absurd (by simp [selectionMode, hmode]) hne⟩
  · refine ⟨_, List.mem_cons_self, _, List.mem_cons_of_mem _ List.mem_cons_self, ?_⟩
    exact fun hsame => (List.nodup_cons.mp hnodup).1 (hsame ▸ List.mem_cons_self)

theorem resolveBoardOrder_valid (h : resolver.resolveBoardOrder input board allowed = .ok bindings) :
    BoundValidly resolver input board allowed bindings := by
  have hnodup := @candidatesFor_nodup input board allowed
  have hin {agentId : String} := @eligible_of_candidate resolver input board allowed agentId
  have hlength : ((candidatesFor board allowed input).map (·.roleId)).length =
      (candidatesFor board allowed input).length := List.length_map _
  unfold resolveBoardOrder at h
  split at h
  · rename_i first second rest hcandidates
    rw [hcandidates] at hnodup hlength
    rw [hcandidates] at hin
    cases h
    refine (boundValidly_iff (Nat.le_refl 2) (by rfl) ?_ ?_).mpr ?_
    · intro agentId hagentId
      refine hin ?_
      simp only [List.map_cons, List.map_nil, List.mem_cons, List.not_mem_nil, or_false] at hagentId
      rcases hagentId with rfl | rfl | rfl | rfl
      · simp
      · simp
      · rcases rest with _ | ⟨third, rest⟩ <;> simp
      · rcases rest with _ | ⟨third, _ | ⟨fourth, rest⟩⟩ <;> simp
    · intro hroom _
      rw [← hlength] at hroom
      match rest, hnodup, hroom with
      | third :: fourth :: rest, hnodup, _ =>
          exact hnodup.sublist ((List.take_sublist 4 (first :: second :: third :: fourth :: rest)))
      | [_], _, hroom => simp at hroom
      | [], _, hroom => simp at hroom
    · refine ⟨first, by simp, second, by simp, ?_⟩
      rintro rfl
      exact (List.nodup_cons.mp hnodup).1 List.mem_cons_self
  · cases h
  · cases h

/-- In an auction, the selector answers for some seat with another agent than the primary one. -/
def SelectsAnother (resolver : AgentBoardCouncilParticipantResolver)
    (input : CouncilParticipantResolutionInput) (board : AgentBoard) (allowed : List String) : Prop :=
  resolver.selectionMode = .auction → ∀ selector ∈ resolver.auctionSelector,
    let candidates := (candidatesFor board allowed input).map (·.roleId)
    ¬ AlwaysPrimary selector candidates (input.primaryAgentId.getD (candidates.headD ""))
      (auctionPlaces resolver.proposerCount)

theorem resolveAuctionSeats_valid_iff
    (h : resolver.resolveAuctionSeats input board allowed = .ok bindings) :
    BoundValidly resolver input board allowed bindings ↔ ∀ selector ∈ resolver.auctionSelector,
      let candidates := (candidatesFor board allowed input).map (·.roleId)
      ¬ AlwaysPrimary selector candidates (input.primaryAgentId.getD (candidates.headD ""))
        (auctionPlaces resolver.proposerCount) := by
  unfold resolveAuctionSeats at h
  obtain ⟨selector, hselector, h⟩ := bind_eq_ok.mp h
  have hselector := orThrow_eq_ok.mp hselector
  have hnodup := @candidatesFor_nodup input board allowed
  have hin {agentId : String} := @eligible_of_candidate resolver input board allowed agentId
  split at h
  · rename_i first second rest hcandidates
    rw [hcandidates] at hnodup hin ⊢
    simp only [bind_eq_ok, ensure_eq_ok, exists_const] at h
    obtain ⟨⟨-, hprimary⟩, chosen, hchosen, ⟨⟩⟩ := h
    obtain ⟨hplaces, hchosenIn⟩ := selectSeats_places hchosen
    have hall := selectSeats_primary hchosen
    rw [hselector]
    simp only [Option.mem_some_iff, forall_eq', List.headD_cons]
    rw [← hall, boundValidly_iff resolver.proposers]
    · simp only [List.map_cons, List.mem_cons, List.mem_map]
      constructor
      · rintro ⟨a, ha, b, hb, hne⟩ hsame
        have hpick (c : String) (hc : c = input.primaryAgentId.getD first ∨
            ∃ x ∈ chosen, x.agentId = c) : c = input.primaryAgentId.getD first := by
          rcases hc with hc | ⟨x, hx, rfl⟩
          · exact hc
          · exact hsame x hx
        exact hne ((hpick a ha).trans (hpick b hb).symm)
      · intro hother
        push Not at hother
        obtain ⟨a, ha, hne⟩ := hother
        exact ⟨_, .inr ⟨a, ha, rfl⟩, _, .inl rfl, hne⟩
    · rw [List.map_cons, hplaces, auctionPlaces, seatsOf]
      obtain ⟨n, hn⟩ := Nat.exists_eq_add_of_le' (Nat.le_of_succ_le resolver.proposers)
      rw [hn, Nat.add_sub_cancel, List.range_eq_range', List.range'_succ]
      rfl
    · refine List.forall_mem_cons.mpr ⟨hin hprimary, fun agentId hagentId => ?_⟩
      obtain ⟨a, ha, rfl⟩ := List.mem_map.mp hagentId
      exact hin (hchosenIn a ha)
    · intro hroom hpicks
      refine selectSeats_nodup (hpicks selector hselector) (List.nodup_singleton _) ?_ hnodup hchosen
      rw [← hplaces, List.length_map, ← hcandidates, List.length_map]
      simpa [Nat.add_comm] using hroom
  · cases h

/-- The seats that a resolution binds are bound validly just when an auction does not give all of
them to the primary agent. -/
theorem resolve_boundValidly_iff (hallowed : resolver.resolveAllowedSet = .ok allowed)
    (h : resolver.resolve input board = .ok bindings) :
    BoundValidly resolver input board allowed bindings ↔
      SelectsAnother resolver input board allowed := by
  simp only [resolve, bind_eq_ok, hallowed,
    Except.ok.injEq] at h
  obtain ⟨_, rfl, -, -, h⟩ := h
  unfold SelectsAnother selectionMode
  split at h
  · rename_i fixed hmode
    simpa [hmode] using resolveFixedSeats_valid hmode h
  · rename_i hmode
    split_ifs at h with hauction
    · simpa [hmode, hauction] using resolveAuctionSeats_valid_iff h
    · simpa [hmode, hauction] using resolveBoardOrder_valid h

private def pair : AgentBoard where
  agents := [{ roleId := "a", status := "idle" }, { roleId := "b", status := "active" }]
  distinct := by decide
  named := by decide

private def digests : List (String × String) :=
  [("run\x00proposer\x000\x00a", "220e0639"),
    ("run\x00proposer\x001\x00b", "fb38e6f1"),
    ("run\x00reviewer\x000\x00b", "6fab256c"),
    ("run\x00synthesizer\x000\x00b", "6941410d"),
    ("run\x00proposer\x001\x00a", "d3cda2f6"),
    ("run\x00reviewer\x000\x00a", "c6255daf"),
    ("run\x00synthesizer\x000\x00a", "a97c834e")]

private def auctionBy (agentId : String) : AgentBoardCouncilParticipantResolver where
  allowedAgentIds := ["a", "b"]
  auctionSelector := some fun _ => .ok { agentId }
  auctionEnabled := true
  hash := fun text => ((digests.find? (·.1 = text)).map Prod.snd).getD ""
  hex := by
    intro text
    cases hfind : digests.find? (·.1 = text) with
    | none => simp
    | some digest =>
        have hhex : ∀ entry ∈ digests, entry.2.toList.all Char.isAlphanum := by decide
        exact List.all_eq_true.mp (hhex digest (List.mem_of_find?_eq_some hfind))

theorem auction_by_other_valid : ∃ bindings,
    (auctionBy "b").resolve { runId := "run" } pair = .ok bindings ∧
      (BoundValidly (auctionBy "b") { runId := "run" } pair ["a", "b"] bindings ↔
        SelectsAnother (auctionBy "b") { runId := "run" } pair ["a", "b"]) :=
  ⟨_, rfl, resolve_boundValidly_iff rfl rfl⟩

/-- The selector may name the primary agent again and again. -/
theorem all_seats_primary : ∃ bindings,
    (auctionBy "a").resolve { runId := "run" } pair = .ok bindings ∧
      ¬ BoundValidly (auctionBy "a") { runId := "run" } pair ["a", "b"] bindings := by
  refine ⟨_, rfl, fun h => ?_⟩
  obtain ⟨a, ha, b, hb, hne⟩ := h.distinct
  revert a b
  decide

end Newide.Council
