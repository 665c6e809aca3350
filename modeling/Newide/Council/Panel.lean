import Mathlib.Data.List.Sort
import Newide.Memory.PromotionExecutor

/-!
# The seats of a Council

`src/council/council-participant.ts` and `validateParticipants`: who takes
part in one round.  A panel is a list of participants that passed the
checks, with what the rest of the round relies on.
-/

namespace Newide.Council

open Fallible Memory

inductive CouncilSeat where
  | proposer | reviewer | synthesizer
deriving DecidableEq

structure CouncilParticipantBinding where
  participantId : String
  seat : CouncilSeat
  seatIndex : Rat
  agentId : String

/-- `/^[A-Za-z0-9_-]+$/` -/
def isParticipantId (id : String) : Bool :=
  id ≠ "" && id.toList.all fun c => c.isAlphanum || c = '_' || c = '-'

/-- The checks of one participant; `seen` are the ids before it. -/
def checkParticipant (seen : List String) (p : CouncilParticipantBinding) : Except String Unit := do
  ensure (isParticipantId p.participantId) ("Invalid Council participant_id: " ++ p.participantId)
  ensure (isNonEmptyString p.agentId) "Council participant agent_id must not be empty"
  ensure (p.seatIndex.isInt ∧ 0 ≤ p.seatIndex)
    ("Invalid Council seat_index for " ++ p.participantId)
  ensure (p.participantId ∉ seen) ("Duplicate Council participant_id: " ++ p.participantId)

def checkEach (seen : List String) : List CouncilParticipantBinding → Except String Unit
  | [] => .ok ()
  | p :: rest => do
      checkParticipant seen p
      checkEach (p.participantId :: seen) rest

def ofSeat (seat : CouncilSeat) (participants : List CouncilParticipantBinding) :
    List CouncilParticipantBinding :=
  participants.filter (·.seat = seat)

def checkSeats (participants : List CouncilParticipantBinding) : Except String Unit := do
  let proposers := ofSeat .proposer participants
  ensure (2 ≤ proposers.length ∧ (proposers.map (·.seatIndex)).Nodup)
    "Council requires at least two distinct proposer seats"
  ensure ((ofSeat .reviewer participants).length = 1) "Council requires exactly one reviewer seat"
  ensure ((ofSeat .synthesizer participants).length = 1)
    "Council requires exactly one synthesizer seat"

structure CouncilPanel where
  participants : List CouncilParticipantBinding
  distinct : (participants.map (·.participantId)).Nodup
  seated : ∀ seat, seat ≠ .proposer → ∃ p ∈ participants, p.seat = seat

theorem checkParticipant_eq_ok {seen : List String} {p : CouncilParticipantBinding}
    (h : checkParticipant seen p = .ok ()) : p.participantId ∉ seen := by
  simp only [checkParticipant, bind_eq_ok, ensure_eq_ok, exists_const] at h
  exact h.2.2.2

variable {participants : List CouncilParticipantBinding}

theorem checkEach_eq_ok :
    ∀ {seen : List String}, checkEach seen participants = .ok () →
      (participants.map (·.participantId)).Nodup ∧
        ∀ p ∈ participants, p.participantId ∉ seen := by
  induction participants with
  | nil =>
      intro seen _
      exact ⟨List.nodup_nil, by simp⟩
  | cons p rest ih =>
      intro seen h
      obtain ⟨_, hp, hrest⟩ := bind_eq_ok.mp h
      obtain ⟨hnodup, hfresh⟩ := ih hrest
      have hnew := checkParticipant_eq_ok hp
      constructor
      · rw [List.map_cons, List.nodup_cons]
        refine ⟨?_, hnodup⟩
        intro hmem
        obtain ⟨q, hq, hsame⟩ := List.mem_map.mp hmem
        exact hfresh q hq (hsame ▸ List.mem_cons_self)
      · intro q hq
        rcases List.mem_cons.mp hq with rfl | hq
        · exact hnew
        · exact fun hmem => hfresh q hq (List.mem_cons_of_mem _ hmem)

theorem exists_ofSeat {seat : CouncilSeat} (h : (ofSeat seat participants).length = 1) :
    ∃ p ∈ participants, p.seat = seat := by
  have hne : ofSeat seat participants ≠ [] := by
    intro hnil
    rw [hnil] at h
    cases h
  obtain ⟨p, hp⟩ := List.exists_mem_of_ne_nil _ hne
  obtain ⟨hmem, hseat⟩ := List.mem_filter.mp hp
  exact ⟨p, hmem, of_decide_eq_true hseat⟩

theorem checkSeats_eq_ok (h : checkSeats participants = .ok ()) (seat : CouncilSeat)
    (hseat : seat ≠ .proposer) :
    ∃ p ∈ participants, p.seat = seat := by
  simp only [checkSeats, bind_eq_ok, ensure_eq_ok, exists_const] at h
  cases seat with
  | proposer => exact absurd rfl hseat
  | reviewer => exact exists_ofSeat h.2.1
  | synthesizer => exact exists_ofSeat h.2.2

def validateParticipants (participants : List CouncilParticipantBinding) :
    Except String CouncilPanel :=
  match heach : checkEach [] participants, hseats : checkSeats participants with
  | .ok (), .ok () => .ok
      { participants
        distinct := (checkEach_eq_ok heach).1
        seated := checkSeats_eq_ok hseats }
  | .ok (), .error error => .error error
  | .error error, _ => .error error

namespace CouncilPanel

variable (panel : CouncilPanel)

/-- `participants.find((participant) => participant.seat === seat)!` -/
def requireSeat (seat : CouncilSeat) (h : seat ≠ .proposer) : CouncilParticipantBinding :=
  (panel.participants.find? (·.seat = seat)).get (by
    obtain ⟨p, hp, hseat⟩ := panel.seated seat h
    rw [List.find?_isSome]
    exact ⟨p, hp, by simpa using hseat⟩)

def reviewer : CouncilParticipantBinding := panel.requireSeat .reviewer (by decide)

def synthesizer : CouncilParticipantBinding := panel.requireSeat .synthesizer (by decide)

def proposers : List CouncilParticipantBinding :=
  (ofSeat .proposer panel.participants).insertionSort (·.seatIndex ≤ ·.seatIndex)

theorem proposers_distinct : (panel.proposers.map (·.participantId)).Nodup := by
  have hperm : panel.proposers.Perm (ofSeat .proposer panel.participants) :=
    List.perm_insertionSort _ _
  have hsub : ((ofSeat .proposer panel.participants).map (·.participantId)).Sublist
      (panel.participants.map (·.participantId)) :=
    List.filter_sublist.map _
  exact (hperm.map _).nodup_iff.mpr (panel.distinct.sublist hsub)

end CouncilPanel

end Newide.Council
