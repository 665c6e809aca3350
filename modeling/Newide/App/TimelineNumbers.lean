import Newide.App.Timeline

/-!
# The numbers of persisted timelines

A timeline that has the events of a run in the order of its registry
takes over their numbers, and they do not descend along it, as long as
the registry keeps its events in the order of their numbers.  A terminal
transition has its number from when it was staged: one that is committed
after an event was kept since then stands behind a higher number.
-/

namespace Newide.App

open Watermarks

/-! ## Timelines in the order of the registry -/

/-- A timeline read from the store, in the order of its `AUTOINCREMENT`. -/
structure PersistedTimeline extends Timeline where
  ascending : Ascending AppRunEvent.sequence events

variable {held events : List AppRunEvent} {input : TerminalInput}
  {staged : StagedTerminalTransition} {token : Nat}

section
variable {timeline liveEvents : List AppRunEvent} {event live : AppRunEvent} {previous : Nat}

def Held (liveEvents : List AppRunEvent) (event : AppRunEvent) : Prop :=
  ∃ live ∈ liveEvents, live.eventId = event.eventId

instance (liveEvents : List AppRunEvent) (event : AppRunEvent) :
    Decidable (Held liveEvents event) :=
  inferInstanceAs (Decidable (∃ live ∈ liveEvents, live.eventId = event.eventId))

/-- The events that both have stand in one order. -/
def InOrder (timeline liveEvents : List AppRunEvent) : Prop :=
  ∃ held : List AppRunEvent, held.Sublist liveEvents ∧
    (timeline.filter fun event => Held liveEvents event).map (·.eventId) = held.map (·.eventId)

theorem InOrder.of_ids (hheld : held.Sublist liveEvents)
    (hids : timeline.map (·.eventId) = held.map (·.eventId)) : InOrder timeline liveEvents := by
  have hall : (timeline.filter fun event => Held liveEvents event) = timeline := by
    refine List.filter_eq_self.mpr fun event hevent => decide_eq_true ?_
    obtain ⟨live, hlive, hid⟩ := List.mem_map.mp (hids ▸ List.mem_map_of_mem hevent)
    exact ⟨live, hheld.subset hlive, hid⟩
  exact ⟨held, hheld, by rw [hall, hids]⟩

/-- What numbering a timeline by the registry is for. -/
structure KeepsNumbers (liveEvents aligned : List AppRunEvent) : Prop where
  held : ∀ event ∈ aligned, ∀ live ∈ liveEvents, live.eventId = event.eventId →
    event.sequence = live.sequence
  /-- The next event that both have is numbered no lower than one only the timeline has. -/
  borrowed : ∀ before event between next later,
    aligned = before ++ event :: (between ++ next :: later) → ¬ Held liveEvents event →
      (∀ other ∈ between, ¬ Held liveEvents other) → Held liveEvents next →
        event.sequence ≤ next.sequence
  sorted : aligned.Pairwise fun event next => event.sequence ≤ next.sequence
  again : alignTimelineSequences aligned liveEvents = aligned

/-- Each event of the registry has a higher number than those before it, and an id of its own. -/
def Clean (liveEvents : List AppRunEvent) : Prop :=
  liveEvents.Pairwise fun event next =>
    event.sequence < next.sequence ∧ event.eventId ≠ next.eventId

theorem Clean.distinct (h : Clean liveEvents) :
    Record.Distinct (liveEvents.map fun event => (event.eventId, event.sequence)) := by
  have hids : (liveEvents.map fun event => event.eventId).Nodup :=
    List.pairwise_map.mpr (h.imp fun hpair => hpair.2)
  simpa [Record.Distinct, Rows.Distinct, Function.comp_def] using hids

theorem Clean.numbers (h : Clean liveEvents) : liveSequenceByEventId liveEvents =
    liveEvents.map fun event => (event.eventId, event.sequence) :=
  h.distinct.ofEntries

theorem Clean.get (h : Clean liveEvents) (hlive : live ∈ liveEvents) :
    Record.get live.eventId (liveSequenceByEventId liveEvents) = some live.sequence := by
  rw [h.numbers]
  exact h.distinct.get_of_mem (List.mem_map_of_mem hlive)

theorem get_of_not_held (h : ¬ Held liveEvents event) :
    Record.get event.eventId (liveSequenceByEventId liveEvents) = none := by
  cases hget : Record.get event.eventId (liveSequenceByEventId liveEvents) with
  | none => rfl
  | some sequence =>
      obtain ⟨pre, post, hentries, _⟩ := Record.get_ofEntries_eq_some.mp hget
      have hin : (event.eventId, sequence) ∈
          liveEvents.map fun event => (event.eventId, event.sequence) := by
        rw [hentries]
        exact List.mem_append_right _ List.mem_cons_self
      obtain ⟨live, hlive, heq⟩ := List.mem_map.mp hin
      exact absurd ⟨live, hlive, congrArg Prod.fst heq⟩ h

theorem Clean.taken (h : Clean liveEvents) (hheld : held.Sublist liveEvents)
    (hids : (timeline.filter fun event => Held liveEvents event).map (·.eventId) =
      held.map (·.eventId)) :
    timeline.filterMap (fun event => Record.get event.eventId (liveSequenceByEventId liveEvents)) =
      held.map (·.sequence) := by
  calc timeline.filterMap (fun event =>
          Record.get event.eventId (liveSequenceByEventId liveEvents))
      = (timeline.filter fun event => Held liveEvents event).filterMap (fun event =>
          Record.get event.eventId (liveSequenceByEventId liveEvents)) := by
        rw [List.filterMap_filter]
        refine List.filterMap_congr fun event _ => ?_
        by_cases hevent : Held liveEvents event
        · rw [if_pos (decide_eq_true hevent)]
        · rw [if_neg (by simpa using hevent), get_of_not_held hevent]
    _ = (held.map (·.eventId)).filterMap (fun eventId =>
          Record.get eventId (liveSequenceByEventId liveEvents)) := by
        rw [← hids, List.filterMap_map]
        rfl
    _ = held.map (·.sequence) := by
        rw [List.filterMap_map, ← List.filterMap_eq_map']
        exact List.filterMap_congr fun live hlive => h.get (hheld.subset hlive)

/-- Numbers that do not descend and are not below `previous` are taken over so. -/
theorem renumber_sorted {numbers : Record String Nat}
    (hsorted : (timeline.filterMap fun event => Record.get event.eventId numbers).Pairwise (· ≤ ·))
    (hprevious : ∀ sequence ∈ timeline.filterMap (fun event => Record.get event.eventId numbers),
      previous ≤ sequence) :
    (renumber numbers previous timeline).Pairwise (fun event next =>
        event.sequence ≤ next.sequence) ∧
      ∀ event ∈ renumber numbers previous timeline, previous ≤ event.sequence := by
  induction timeline generalizing previous with
  | nil => exact ⟨List.Pairwise.nil, nofun⟩
  | cons event rest ih =>
      unfold renumber
      cases hnumber : Record.get event.eventId numbers with
      | some sequence =>
          simp only [List.filterMap_cons, hnumber] at hsorted hprevious
          obtain ⟨hfirst, hrest⟩ := List.pairwise_cons.mp hsorted
          obtain ⟨ihsorted, ihabove⟩ := ih hrest hfirst
          have hle := hprevious sequence List.mem_cons_self
          refine ⟨List.pairwise_cons.mpr ⟨ihabove, ihsorted⟩, fun other hother => ?_⟩
          rcases List.mem_cons.mp hother with rfl | hother
          · exact hle
          · exact hle.trans (ihabove other hother)
      | none =>
          simp only [List.filterMap_cons, hnumber] at hsorted hprevious
          obtain ⟨ihsorted, ihabove⟩ := ih hsorted hprevious
          refine ⟨List.pairwise_cons.mpr ⟨ihabove, ihsorted⟩, fun other hother => ?_⟩
          rcases List.mem_cons.mp hother with rfl | hother
          · exact le_rfl
          · exact ihabove other hother

theorem renumber_number {numbers : Record String Nat} {sequence : Nat}
    (hevent : event ∈ renumber numbers previous timeline)
    (hnumber : Record.get event.eventId numbers = some sequence) : event.sequence = sequence := by
  induction timeline generalizing previous with
  | nil => cases hevent
  | cons first rest ih =>
      unfold renumber at hevent
      cases hfirst : Record.get first.eventId numbers with
      | some taken =>
          rw [hfirst] at hevent
          rcases List.mem_cons.mp hevent with rfl | hevent
          · exact Option.some.inj (hfirst.symm.trans hnumber)
          · exact ih hevent
      | none =>
          rw [hfirst] at hevent
          rcases List.mem_cons.mp hevent with rfl | hevent
          · exact absurd (hfirst.symm.trans hnumber) (by simp)
          · exact ih hevent

theorem KeepsNumbers.of_sorted
    (hheld : ∀ event ∈ timeline, ∀ live ∈ liveEvents, live.eventId = event.eventId →
      event.sequence = live.sequence)
    (hsorted : timeline.Pairwise fun event next => event.sequence ≤ next.sequence)
    (hagain : alignTimelineSequences timeline liveEvents = timeline) :
    KeepsNumbers liveEvents timeline where
  held := hheld
  borrowed before event between next later hsplit _ _ _ := by
    rw [hsplit] at hsorted
    have hbehind := (List.pairwise_cons.mp (List.pairwise_append.mp hsorted).2.1).1
    exact hbehind next (List.mem_append_right _ List.mem_cons_self)
  sorted := hsorted
  again := hagain

theorem Clean.keepsNumbers (h : Clean liveEvents) (timeline : PersistedTimeline)
    (horder : InOrder timeline.events liveEvents) :
    KeepsNumbers liveEvents (alignTimelineSequences timeline.events liveEvents) := by
  obtain ⟨held, hheld, hids⟩ := horder
  by_cases hnone : liveEvents = [] ∨ timeline.events = []
  · have hsame : alignTimelineSequences timeline.events liveEvents = timeline.events :=
      if_pos hnone
    rw [hsame]
    refine .of_sorted (fun event hevent live hlive _ => ?_)
      (timeline.ascending.imp fun hlt => hlt.le) hsame
    rcases hnone with hnil | hnil
    · rw [hnil] at hlive
      cases hlive
    · rw [hnil] at hevent
      cases hevent
  · have halign : alignTimelineSequences timeline.events liveEvents =
        renumber (liveSequenceByEventId liveEvents)
          (((liveSequenceByEventId liveEvents).map Prod.snd).min?.getD 0) timeline.events :=
      if_neg hnone
    have htaken := h.taken hheld hids
    have hsorted := (h.imp fun hpair => hpair.1.le).sublist hheld
    refine .of_sorted (fun event hevent live hlive hid => ?_) ?_ align_align
    · rw [halign] at hevent
      exact renumber_number hevent (hid ▸ h.get hlive)
    · rw [halign]
      refine (renumber_sorted ?_ fun sequence hsequence => ?_).1
      · rw [htaken]
        exact List.pairwise_map.mpr hsorted
      · rw [htaken] at hsequence
        obtain ⟨live, hlive, rfl⟩ := List.mem_map.mp hsequence
        have hin : live.sequence ∈ (liveSequenceByEventId liveEvents).map Prod.snd := by
          rw [h.numbers, List.map_map]
          exact List.mem_map_of_mem (hheld.subset hlive)
        cases hmin : ((liveSequenceByEventId liveEvents).map Prod.snd).min? with
        | none => exact Nat.zero_le _
        | some least => exact (List.min?_eq_some_iff.mp hmin).2 _ hin

end

/-! ## The order of the registry -/

namespace RegistryState

variable {s t : RegistryState} {event : AppRunEvent} {call : RegistryCall}

/-- A transition takes effect behind an event that has a higher number. -/
def Overtakes (s : RegistryState) : RegistryCall → Prop
  | .settle (.commitTerminal token) =>
      s.record.status = .running ∧ s.record.terminalReservation = some token ∧
        ∃ staged, s.issued[token]? = some staged ∧
          ∃ held ∈ s.record.events, staged.event.sequence < held.sequence
  | _ => False

/-- An event is kept under an id that the registry holds. -/
def Reuses (s t : RegistryState) : Prop :=
  ∃ event, t.record.events = s.record.events ++ [event] ∧ Held s.record.events event

/-- The numbers of the kept events, and of a reserved one, are different. -/
structure Numbered (s : RegistryState) : Prop where
  distinct : s.record.events.Pairwise fun event next => event.sequence ≠ next.sequence
  below : ∀ event ∈ s.record.events, event.sequence ≤ s.record.nextSequence
  reserved : ∀ token staged, s.record.terminalReservation = some token →
    s.issued[token]? = some staged → ∀ event ∈ s.record.events,
      event.sequence ≠ staged.event.sequence
  terminal : ∀ staged ∈ s.issued, staged.event.isFragment = false

theorem numbered_create {runId taskId : String} : (create runId taskId).Numbered where
  distinct := List.Pairwise.nil
  below _ h := absurd h List.not_mem_nil
  reserved _ _ h := by cases h
  terminal _ h := absurd h List.not_mem_nil

theorem Stages.coordination (h : s.Stages input staged t) : staged.event.isFragment = false := by
  unfold AppRunEvent.isFragment
  rw [h.type]
  cases input <;> rfl

theorem Appends.mem_events (h : s.Appends event t) {other : AppRunEvent}
    (hother : other ∈ t.record.events) : other ∈ s.record.events ∨ other = event := by
  rw [h.events] at hother
  split at hother
  · exact .inl hother
  · exact (List.mem_append.mp hother).imp_right List.mem_singleton.mp

theorem Appends.distinct (h : s.Appends event t)
    (hs : s.record.events.Pairwise fun event next => event.sequence ≠ next.sequence)
    (hfresh : ∀ held ∈ s.record.events, held.sequence ≠ event.sequence) :
    t.record.events.Pairwise fun event next => event.sequence ≠ next.sequence := by
  rw [h.events]
  split
  · exact hs
  · exact List.pairwise_append.mpr ⟨hs, List.pairwise_singleton _ _, fun held hheld last hlast =>
      List.mem_singleton.mp hlast ▸ hfresh held hheld⟩

theorem Numbered.stages (hs : s.Numbered) (h : s.Stages input staged t) : t.Numbered := by
  obtain ⟨aborted, hrecord⟩ := h.record
  have hevents : t.record.events = s.record.events := by rw [hrecord]
  have hnext : t.record.nextSequence = s.record.nextSequence + 1 := by rw [hrecord]
  have hreservation : t.record.terminalReservation = some staged.token := by rw [hrecord]
  refine
    { distinct := hevents ▸ hs.distinct
      below := fun held hheld => ?_
      reserved := fun token other htoken hother held hheld => ?_
      terminal := fun other hother => ?_ }
  · rw [hnext]
    exact Nat.le_succ_of_le (hs.below held (hevents ▸ hheld))
  · rw [hreservation] at htoken
    cases htoken
    rw [h.issued, h.token, List.getElem?_concat_length] at hother
    cases hother
    rw [h.sequence]
    exact Nat.ne_of_lt (Nat.lt_succ_of_le (hs.below held (hevents ▸ hheld)))
  · rw [h.issued] at hother
    rcases List.mem_append.mp hother with hother | hother
    · exact hs.terminal other hother
    · rw [List.mem_singleton.mp hother]
      exact h.coordination

theorem Numbered.fresh (hs : s.Numbered) (haccounted : s.Accounted) (h : s.Commits staged t)
    (hissued : s.issued[token]? = some staged) :
    (∀ held ∈ s.record.events, held.sequence ≠ staged.event.sequence) ∧
      staged.event.sequence ≤ s.record.nextSequence := by
  have hreserved := haccounted.tokens token staged hissued ▸ h.reserved
  exact ⟨hs.reserved token staged hreserved hissued,
    (haccounted.reserved token staged hreserved hissued).sequence.2⟩

theorem Numbered.commits (hs : s.Numbered) (haccounted : s.Accounted) (h : s.Commits staged t)
    (hissued : s.issued[token]? = some staged) :
    t.Numbered := by
  obtain ⟨hfresh, hle⟩ := hs.fresh haccounted h hissued
  refine
    { distinct := h.appends.distinct hs.distinct hfresh
      below := fun held hheld => ?_
      reserved := fun other _ hother _ => ?_
      terminal := h.appends.issued ▸ hs.terminal }
  · rw [h.nextSequence]
    rcases h.appends.mem_events hheld with hheld | rfl
    · exact hs.below held hheld
    · exact hle
  · rw [h.released] at hother
    cases hother

theorem Stages.last (h : s.Stages input staged t) : t.issued[s.issued.length]? = some staged := by
  rw [h.issued, List.getElem?_concat_length]

theorem EventStep.numbered (h : EventStep s call t) (haccounted : s.Accounted) (hs : s.Numbered) :
    t.Numbered := by
  cases h with
  | quiet events appended delivered listeners nextSequence revision issued reservation =>
      exact
        { distinct := events ▸ hs.distinct
          below := events ▸ nextSequence ▸ hs.below
          reserved := fun token staged htoken hstaged => by
            rw [events]
            exact hs.reserved token staged (reservation token htoken) (issued ▸ hstaged)
          terminal := issued ▸ hs.terminal }
  | staged input staged stages => exact hs.stages stages
  | logged event appends sequence nextSequence revision reservation =>
      refine
        { distinct := appends.distinct hs.distinct fun held hheld => ?_
          below := fun held hheld => ?_
          reserved := fun token staged htoken hstaged held hheld => ?_
          terminal := appends.issued ▸ hs.terminal }
      · have hle := hs.below held hheld
        omega
      · rcases appends.mem_events hheld with hheld | rfl
        · have hle := hs.below held hheld
          omega
        · omega
      · rw [reservation] at htoken
        rw [appends.issued] at hstaged
        rcases appends.mem_events hheld with hheld | rfl
        · exact hs.reserved token staged htoken hstaged held hheld
        · have hle := (haccounted.reserved token staged htoken hstaged).sequence.2
          omega
  | committed token staged commit issued commits => exact hs.commits haccounted commits issued
  | finished input staged between stages commits =>
      exact (hs.stages stages).commits (stages.accounted haccounted) commits stages.last
  | subscribed listener subscribe =>
      subst subscribe
      exact ⟨hs.distinct, hs.below, hs.reserved, hs.terminal⟩
  | left listener unsubscribe =>
      subst unsubscribe
      exact ⟨hs.distinct, hs.below, hs.reserved, hs.terminal⟩

theorem clean_append_iff : Clean (events ++ [event]) ↔
    Clean events ∧ (∀ held ∈ events, held.sequence < event.sequence) ∧ ¬ Held events event := by
  unfold Clean Held
  rw [List.pairwise_append]
  constructor
  · rintro ⟨hclean, _, hlast⟩
    refine ⟨hclean, fun held hheld => (hlast held hheld event (List.mem_singleton_self _)).1, ?_⟩
    rintro ⟨held, hheld, hid⟩
    exact (hlast held hheld event (List.mem_singleton_self _)).2 hid
  · rintro ⟨hclean, habove, hfresh⟩
    refine ⟨hclean, List.pairwise_singleton _ _, fun held hheld last hlast => ?_⟩
    rw [List.mem_singleton.mp hlast]
    exact ⟨habove held hheld, fun hid => hfresh ⟨held, hheld, hid⟩⟩

theorem clean_iff_of_events (h : t.record.events = s.record.events) :
    Clean t.record.events ↔ Clean s.record.events ∧ ¬ s.Reuses t := by
  have hnot : ¬ s.Reuses t := by
    rintro ⟨event, happend, _⟩
    rw [h, List.self_eq_append_right] at happend
    cases happend
  rw [h, and_iff_left hnot]

theorem Appends.clean_iff (h : s.Appends event t)
    (habove : ∀ held ∈ s.record.events, held.sequence < event.sequence) :
    Clean t.record.events ↔ Clean s.record.events ∧ ¬ s.Reuses t := by
  by_cases hfragment : event.isFragment = true
  · exact clean_iff_of_events (by rw [h.events, if_pos hfragment])
  · have hevents : t.record.events = s.record.events ++ [event] := by
      rw [h.events, if_neg hfragment]
    have hreuses : s.Reuses t ↔ Held s.record.events event := by
      constructor
      · rintro ⟨other, happend, hheld⟩
        rw [hevents, List.append_cancel_left_eq] at happend
        cases happend
        exact hheld
      · exact fun hheld => ⟨event, hevents, hheld⟩
    rw [hevents, clean_append_iff, hreuses, and_iff_right habove]

theorem Overtakes.not_clean (h : s.Overtakes call) (haccounted : s.Accounted) (hs : s.Numbered) :
    ¬ Clean (s.step call).record.events := by
  cases call with
  | settle call =>
      cases call with
      | commitTerminal token =>
          obtain ⟨hrunning, hreserved, staged, hissued, held, hheld, hlt⟩ := h
          have hstep : s.step (.settle (.commitTerminal token)) = s.commitTerminal staged := by
            simp only [step, settle, hissued]
          have hcommits : s.Commits staged (s.commitTerminal staged) :=
            commitTerminal_commits (haccounted.tokens token staged hissued ▸ hreserved) hrunning
          have hterminal := hs.terminal staged (List.mem_of_getElem? hissued)
          rw [hstep, hcommits.appends.events, hterminal, if_neg Bool.false_ne_true,
            clean_append_iff]
          rintro ⟨_, habove, _⟩
          exact Nat.lt_asymm hlt (habove held hheld)
      | stageTerminal | abortTerminal | cancel | complete | fail | interrupt => exact h.elim
  | appendEvent | subscribe | unsubscribe => exact h.elim

/-- The events stay clean where no transition is overtaken and no id comes again. -/
theorem step_clean_iff (haccounted : s.Accounted) (hs : s.Numbered) (call : RegistryCall) :
    Clean (s.step call).record.events ↔
      Clean s.record.events ∧ ¬ (s.Overtakes call ∨ s.Reuses (s.step call)) := by
  by_cases hovertakes : s.Overtakes call
  · exact ⟨fun h => absurd h (hovertakes.not_clean haccounted hs),
      fun h => absurd (.inl hovertakes) h.2⟩
  · rw [or_iff_right hovertakes]
    have hstep := s.step_cases call
    generalize s.step call = t at hstep
    cases hstep with
    | quiet events appended delivered listeners nextSequence revision issued reservation =>
        exact clean_iff_of_events events
    | staged input staged stages =>
        obtain ⟨aborted, hrecord⟩ := stages.record
        exact clean_iff_of_events (by rw [hrecord])
    | logged event appends sequence nextSequence revision reservation =>
        refine appends.clean_iff fun held hheld => ?_
        rw [sequence]
        exact Nat.lt_succ_of_le (hs.below held hheld)
    | committed token staged commit issued commits =>
        obtain ⟨hfresh, _⟩ := hs.fresh haccounted commits issued
        have hreserved := haccounted.tokens token staged issued ▸ commits.reserved
        refine commits.appends.clean_iff fun held hheld => ?_
        by_contra hnot
        have hlt := Nat.lt_of_le_of_ne (Nat.not_lt.mp hnot) (hfresh held hheld).symm
        subst commit
        exact hovertakes ⟨commits.running, hreserved, staged, issued, held, hheld, hlt⟩
    | finished input staged between stages commits =>
        obtain ⟨aborted, hrecord⟩ := stages.record
        have hevents : between.record.events = s.record.events := by rw [hrecord]
        have hclean := commits.appends.clean_iff fun held hheld => by
          rw [stages.sequence]
          exact Nat.lt_succ_of_le (hs.below held (hevents ▸ hheld))
        unfold Reuses at hclean ⊢
        rwa [hevents] at hclean
    | subscribed listener subscribe =>
        subst subscribe
        exact clean_iff_of_events rfl
    | left listener unsubscribe =>
        subst unsubscribe
        exact clean_iff_of_events rfl

/-! ## Whole runs -/

theorem clean_of_keepsNumbers
    (hdistinct : events.Pairwise fun event next => event.sequence ≠ next.sequence)
    (h : ∀ timeline : PersistedTimeline, InOrder timeline.events events →
      KeepsNumbers events (alignTimelineSequences timeline.events events)) : Clean events := by
  refine List.pairwise_iff_forall_sublist.mpr fun {first second} hpair => ?_
  have hfirst : first ∈ events := hpair.subset List.mem_cons_self
  have hsecond : second ∈ events := hpair.subset (List.mem_cons_of_mem _ List.mem_cons_self)
  have hne : first.sequence ≠ second.sequence :=
    List.pairwise_iff_forall_sublist.mp hdistinct hpair
  by_cases hid : first.eventId = second.eventId
  · let single : PersistedTimeline :=
      { events := [numbered first.eventId 1]
        ids := List.nodup_singleton _
        ascending := List.pairwise_singleton _ _ }
    have hkeeps := h single (.of_ids (List.singleton_sublist.mpr hfirst) rfl)
    have hids : (alignTimelineSequences single.events events).map (·.eventId) =
        [first.eventId] := align_ids
    obtain ⟨aligned, halign, hone⟩ := List.map_eq_singleton_iff.mp hids
    have hin : aligned ∈ alignTimelineSequences single.events events := by
      rw [halign]
      exact List.mem_singleton_self _
    have hboth := (hkeeps.held aligned hin first hfirst hone.symm).symm.trans
      (hkeeps.held aligned hin second hsecond (hid.symm.trans hone.symm))
    exact absurd hboth hne
  · let pair : PersistedTimeline :=
      { events := [numbered first.eventId 1, numbered second.eventId 2]
        ids := by simpa [numbered] using hid
        ascending := by simp [Ascending, numbered] }
    have hkeeps := h pair (.of_ids hpair rfl)
    have hids : (alignTimelineSequences pair.events events).map (·.eventId) =
        [first.eventId, second.eventId] := align_ids
    obtain ⟨one, rest, halign, hone, hrest⟩ := List.map_eq_cons_iff.mp hids
    obtain ⟨two, rfl, htwo⟩ := List.map_eq_singleton_iff.mp hrest
    have hsorted := hkeeps.sorted
    have hheldNumbers := hkeeps.held
    rw [halign] at hsorted hheldNumbers
    have hle := (List.pairwise_cons.mp hsorted).1 two (List.mem_singleton_self _)
    rw [hheldNumbers one List.mem_cons_self first hfirst hone.symm,
      hheldNumbers two (List.mem_cons_of_mem _ List.mem_cons_self) second hsecond htwo.symm] at hle
    exact ⟨Nat.lt_of_le_of_ne hle hne, hid⟩

/-- Every timeline with the events in the order of the registry takes over their numbers and does
not descend if and only if no transition takes effect behind an event with a higher number and no
event comes under an id that is held. -/
theorem timeline_keepsNumbers_iff (runId taskId : String) (calls : List RegistryCall) :
    (∀ timeline : PersistedTimeline,
        InOrder timeline.events (calls.foldl step (create runId taskId)).record.events →
          KeepsNumbers (calls.foldl step (create runId taskId)).record.events
            (alignTimelineSequences timeline.events
              (calls.foldl step (create runId taskId)).record.events)) ↔
      ¬ Runs.Happened step (create runId taskId) calls
        fun s call t => s.Overtakes call ∨ s.Reuses t := by
  have hkept (s : RegistryState) (call : RegistryCall) (hs : s.Accounted ∧ s.Numbered) :
      (s.step call).Accounted ∧ (s.step call).Numbered :=
    ⟨(s.step_cases call).accounted hs.1, (s.step_cases call).numbered hs.1 hs.2⟩
  have hstart : (create runId taskId).Accounted ∧ (create runId taskId).Numbered :=
    ⟨accounted_create, numbered_create⟩
  have hend : (calls.foldl step (create runId taskId)).Numbered :=
    (List.foldlRecOn calls step hstart fun s hs call _ => hkept s call hs).2
  have hcreated : Clean (create runId taskId).record.events := List.Pairwise.nil
  have hclean : Clean (calls.foldl step (create runId taskId)).record.events ↔
      ¬ Runs.Happened step (create runId taskId) calls
        fun s call t => s.Overtakes call ∨ s.Reuses t :=
    Runs.holds_iff_not_happened (I := fun s => Clean s.record.events) hkept
      (fun s call hs => step_clean_iff hs.1 hs.2 call) hstart hcreated
  rw [← hclean]
  exact ⟨clean_of_keepsNumbers hend.distinct, fun h timeline => h.keepsNumbers timeline⟩

def overtakenTransition : List RegistryCall :=
  [.settle (.stageTerminal ⟨"e1", "t1"⟩ (.completed "snapshot")),
    .appendEvent ⟨"e2", "t2"⟩ "artifact.registered" [], .settle (.commitTerminal 0)]

/-- The timeline of both events descends. -/
theorem aligned_timeline_descends :
    ¬ ∀ timeline : PersistedTimeline,
      InOrder timeline.events (overtakenTransition.foldl step (create "run" "task")).record.events →
        KeepsNumbers (overtakenTransition.foldl step (create "run" "task")).record.events
          (alignTimelineSequences timeline.events
            (overtakenTransition.foldl step (create "run" "task")).record.events) := by
  intro h
  let timeline : PersistedTimeline :=
    { events := [numbered "e2" 1, numbered "e1" 2]
      ids := by decide
      ascending := by simp [Ascending, numbered] }
  have hsorted := (h timeline (.of_ids (List.Sublist.refl _) (by decide))).sorted
  have hnumbers := List.pairwise_map.mpr hsorted
  exact absurd hnumbers (by decide)

end RegistryState

end Newide.App
