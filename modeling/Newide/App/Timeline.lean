import Mathlib.Data.PNat.Basic
import Newide.App.RunSubscription
import Newide.Foundation.Paging
import Newide.Foundation.Records

/-!
# Timelines

`alignTimelineSequences` of `src/app/run-timeline-sequence.ts` and
`getRunEvents` of `src/app/newide-backend-service.ts`: the timeline of a
run is numbered as its registry numbers the events it holds, and is read
in pages by these numbers.

An event only the timeline has borrows the number before it, so that
numbers repeat, and a page that ends between two events of one number
loses the second.
-/

namespace Newide.App

open Watermarks

/-! ## Numbering a timeline -/

def liveSequenceByEventId (liveEvents : List AppRunEvent) : Record String Nat :=
  Record.ofEntries (liveEvents.map fun event => (event.eventId, event.sequence))

/-- The events with the numbers of the registry; the others borrow the number before. -/
def renumber (numbers : Record String Nat) (previous : Nat) : List AppRunEvent → List AppRunEvent
  | [] => []
  | event :: rest =>
      match Record.get event.eventId numbers with
      | some sequence => { event with sequence } :: renumber numbers sequence rest
      | none => { event with sequence := previous } :: renumber numbers previous rest

def alignTimelineSequences (timeline liveEvents : List AppRunEvent) : List AppRunEvent :=
  if liveEvents = [] ∨ timeline = [] then timeline
  else
    let numbers := liveSequenceByEventId liveEvents
    let firstLiveSequence := (numbers.map Prod.snd).min?.getD 0
    renumber numbers firstLiveSequence timeline

section
variable {timeline liveEvents : List AppRunEvent} {numbers : Record String Nat} {previous : Nat}

theorem renumber_ids (numbers : Record String Nat) (previous : Nat) :
    (renumber numbers previous timeline).map (·.eventId) = timeline.map (·.eventId) := by
  induction timeline generalizing previous with
  | nil => rfl
  | cons event rest ih =>
      unfold renumber
      split
      · rw [List.map_cons, List.map_cons, ih]
      · rw [List.map_cons, List.map_cons, ih]

theorem align_ids : (alignTimelineSequences timeline liveEvents).map (·.eventId) =
    timeline.map (·.eventId) := by
  unfold alignTimelineSequences
  split
  · rfl
  · exact renumber_ids _ _

theorem renumber_renumber (numbers : Record String Nat) (previous : Nat) :
    renumber numbers previous (renumber numbers previous timeline) =
      renumber numbers previous timeline := by
  induction timeline generalizing previous with
  | nil => rfl
  | cons event rest ih =>
      unfold renumber
      cases hnumber : Record.get event.eventId numbers with
      | some sequence => simp only [renumber, hnumber, ih]
      | none => simp only [renumber, hnumber, ih]

theorem align_align : alignTimelineSequences (alignTimelineSequences timeline liveEvents)
    liveEvents = alignTimelineSequences timeline liveEvents := by
  have hempty : alignTimelineSequences timeline liveEvents = [] ↔ timeline = [] := by
    rw [← List.map_eq_nil_iff (f := fun event : AppRunEvent => event.eventId), align_ids,
      List.map_eq_nil_iff]
  by_cases hnone : liveEvents = [] ∨ timeline = []
  · have hsame : alignTimelineSequences timeline liveEvents = timeline := if_pos hnone
    rw [hsame, hsame]
  · have hsome : ¬ (liveEvents = [] ∨ alignTimelineSequences timeline liveEvents = []) := by
      rwa [hempty]
    conv_lhs => rw [alignTimelineSequences, if_neg hsome]
    rw [alignTimelineSequences, if_neg hnone]
    exact renumber_renumber _ _

end

/-! ## Paging -/

structure RunEventsResult where
  events : List AppRunEvent
  afterSequence : Nat
  latestSequence : Nat
  hasMore : Bool

/-- `getRunEvents`, for the timeline of the run. -/
def getRunEvents (timeline : List AppRunEvent) (afterSequence limit : Option Nat) :
    RunEventsResult :=
  let watermark := afterSequence.getD 0
  let candidates := timeline.filter fun event => watermark < event.sequence
  let limited := (limit.map fun limit => candidates.take limit).getD candidates
  { events := limited
    afterSequence := watermark
    latestSequence := timeline.foldl (fun greatest event => max greatest event.sequence) 0
    hasMore := limited.length < candidates.length }

theorem getRunEvents_events (timeline : List AppRunEvent) (afterSequence : Option Nat)
    (limit : Nat) : (getRunEvents timeline afterSequence (some limit)).events =
      (after AppRunEvent.sequence (afterSequence.getD 0) timeline).take limit := rfl

theorem getRunEvents_hasMore (timeline : List AppRunEvent) (afterSequence : Option Nat)
    (limit : Nat) : (getRunEvents timeline afterSequence (some limit)).hasMore = true ↔
      limit < (after AppRunEvent.sequence (afterSequence.getD 0) timeline).length := by
  change decide (((after AppRunEvent.sequence (afterSequence.getD 0) timeline).take limit).length <
    (after AppRunEvent.sequence (afterSequence.getD 0) timeline).length) = true ↔ _
  rw [decide_eq_true_iff, List.length_take]
  omega

/-- A client that asks on from the last event it was given until there are no more. -/
def readRunEvents (timeline : List AppRunEvent) (limit : ℕ+) (afterSequence : Option Nat) :
    List AppRunEvent :=
  let result := getRunEvents timeline afterSequence (some limit)
  match _hlast : result.events.getLast? with
  | none => []
  | some last =>
      if result.hasMore then result.events ++ readRunEvents timeline limit (some last.sequence)
      else result.events
termination_by (after AppRunEvent.sequence (afterSequence.getD 0) timeline).length
decreasing_by exact length_after_lt (List.mem_of_mem_take (List.mem_of_getLast? _hlast))

theorem readRunEvents_eq (timeline : List AppRunEvent) (limit : ℕ+) (afterSequence : Option Nat) :
    readRunEvents timeline limit afterSequence =
      readPages AppRunEvent.sequence limit (afterSequence.getD 0) timeline := by
  induction afterSequence using readRunEvents.induct timeline limit with
  | case1 afterSequence result hnone =>
      have hnil : after AppRunEvent.sequence (afterSequence.getD 0) timeline = [] := by
        rw [getRunEvents_events, List.getLast?_eq_none_iff, List.take_eq_nil_iff] at hnone
        exact hnone.resolve_left limit.ne_zero
      rw [readRunEvents, readPages_nil hnil]
      split
      · rfl
      · next last hlast => rw [hnone] at hlast
                           cases hlast
  | case2 afterSequence result last hlast hmore ih =>
      rw [readRunEvents]
      split
      · next hnone => rw [hlast] at hnone
                      cases hnone
      · next other hother =>
          rw [hlast] at hother
          cases hother
          rw [if_pos hmore, ih, getRunEvents_events]
          exact (readPages_more ((getRunEvents_hasMore _ _ _).mp hmore) hlast).symm
  | case3 afterSequence result last hlast hmore =>
      have hend := mt (getRunEvents_hasMore timeline afterSequence limit).mpr hmore
      rw [readRunEvents]
      split
      · next hnone => rw [hlast] at hnone
                      cases hnone
      · next other hother =>
          rw [if_neg hmore, getRunEvents_events, readPages_last hend,
            List.take_of_length_le (Nat.not_lt.mp hend)]

/-- A projected timeline; the column `event_id` is unique. -/
structure Timeline where
  events : List AppRunEvent
  ids : (events.map (·.eventId)).Nodup

/-- The pages give every event once and in the order of the timeline if and only if every number
is positive and every page ends at a number above those before and below those behind.  In a
timeline that does not descend they give events in order and none twice, and miss only events that
share their number with one they give. -/
theorem readRunEvents_eq_iff (timeline : Timeline) (liveEvents : List AppRunEvent) (limit : ℕ+) :
    let aligned := alignTimelineSequences timeline.events liveEvents
    (readRunEvents aligned limit none = aligned ↔
        (∀ event ∈ aligned, 0 < event.sequence) ∧
          ∀ page, 0 < page → page * limit < aligned.length →
            PartsAt AppRunEvent.sequence aligned (page * limit)) ∧
      (aligned.Pairwise (fun event next => event.sequence ≤ next.sequence) →
        (readRunEvents aligned limit none).Sublist aligned ∧
          ∀ event ∈ aligned, 0 < event.sequence → event ∉ readRunEvents aligned limit none →
            ∃ other ∈ readRunEvents aligned limit none, other.sequence = event.sequence) := by
  intro aligned
  rw [readRunEvents_eq, Option.getD_none]
  have hnodup : aligned.Nodup := .of_map (fun event => event.eventId) (align_ids.symm ▸ timeline.ids)
  refine ⟨readPages_eq_self_iff hnodup limit.pos, fun hsorted => ?_⟩
  obtain ⟨hsublist, hmissed⟩ := readPages_sublist (m := 0) hsorted limit.pos
  exact ⟨hsublist.trans List.filter_sublist, fun event hevent hpositive hnot =>
    hmissed event (mem_after.mpr ⟨hevent, hpositive⟩) hnot⟩

def numbered (eventId : String) (sequence : Nat) : AppRunEvent where
  eventId
  sequence
  runId := "run"
  taskId := "task"
  type := "handler.started"
  source := .coordinator
  createdAt := "t"
  payload := []

/-- `run.created` is only in the timeline, between two events that the registry holds. -/
def borrowingTimeline : Timeline where
  events := [numbered "e1" 4, numbered "e2" 5, numbered "e3" 6]
  ids := by decide

/-- It shares the number of the event before, and pages of one event leave it out. -/
theorem page_loses_event :
    ¬ ∀ (timeline : Timeline) (liveEvents : List AppRunEvent) (limit : ℕ+),
      readRunEvents (alignTimelineSequences timeline.events liveEvents) limit none =
        alignTimelineSequences timeline.events liveEvents := by
  intro h
  have hread := h borrowingTimeline [numbered "e1" 1, numbered "e3" 2] 1
  have hparts := (readPages_eq_self_iff
    (.of_map (fun event : AppRunEvent => event.eventId) (align_ids.symm ▸ borrowingTimeline.ids))
    one_pos).mp ((readRunEvents_eq _ 1 none).symm.trans hread)
  have hone := hparts.2 1 one_pos (by decide) (numbered "e1" 1) rfl
  exact absurd (hone.2 { numbered "e2" 5 with sequence := 1 } (List.mem_cons_self)) (by decide)

end Newide.App
