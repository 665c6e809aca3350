import Newide.App.RunRegistry
import Newide.Foundation.Watermarks

/-!
# Subscribing again from a watermark

A client subscribes, leaves and subscribes again with the greatest
sequence it was given.  It misses nothing as long as every terminal
transition is committed before another event is appended: a transition
has its sequence and its revision from when it was staged.
-/

namespace Newide.App

open Watermarks

variable {input : TerminalInput} {staged : StagedTerminalTransition} {stamp : Stamp}
  {taskId : String}

namespace RegistryState

variable {s t : RegistryState} {event : AppRunEvent} {listener : Nat}

/-! ## What a call may do -/

inductive EventStep (s : RegistryState) (call : RegistryCall) (t : RegistryState) : Prop where
  /-- A reservation may be given up. -/
  | quiet (events : t.record.events = s.record.events) (appended : t.appended = s.appended)
      (delivered : t.delivered = s.delivered)
      (listeners : t.record.listeners = s.record.listeners)
      (nextSequence : t.record.nextSequence = s.record.nextSequence)
      (revision : t.record.revision = s.record.revision) (issued : t.issued = s.issued)
      (reservation : ∀ token, t.record.terminalReservation = some token →
        s.record.terminalReservation = some token)
  | staged (input : TerminalInput) (staged : StagedTerminalTransition)
      (stages : s.Stages input staged t)
  | logged (event : AppRunEvent) (appends : s.Appends event t)
      (sequence : event.sequence = s.record.nextSequence + 1)
      (nextSequence : t.record.nextSequence = s.record.nextSequence + 1)
      (revision : t.record.revision = s.record.revision + 1)
      (reservation : t.record.terminalReservation = s.record.terminalReservation)
  | committed (token : Nat) (staged : StagedTerminalTransition)
      (commit : call = .settle (.commitTerminal token)) (issued : s.issued[token]? = some staged)
      (commits : s.Commits staged t)
  | finished (input : TerminalInput) (staged : StagedTerminalTransition) (between : RegistryState)
      (stages : s.Stages input staged between) (commits : between.Commits staged t)
  | subscribed (listener : Nat) (subscribe : t = s.subscribe listener (s.watermark listener))
  | left (listener : Nat) (unsubscribe : t = s.unsubscribe listener)

variable {call : RegistryCall}

theorem EventStep.refl : EventStep s call s :=
  .quiet rfl rfl rfl rfl rfl rfl rfl fun _ h => h

theorem eventStep_finish :
    EventStep s call (s.finish stamp input) := by
  rcases s.finish_cases stamp input with hsame | ⟨staged, between, hstages, hcommits⟩
  · rw [hsame]
    exact .refl
  · exact .finished input staged between hstages hcommits

theorem eventStep_once {type : String} {payload : Payload} {status : AppRunStatus}
    {current : AppRunCurrent} {error : Option AppRunError} :
    EventStep s call (appendEventOnce { s with record := { s.record with status, current, error } }
      stamp type payload) := by
  rcases appendEventOnce_cases { s with record := { s.record with status, current, error } } stamp
      type payload with ⟨_, hsame⟩ | ⟨_, hlogs⟩
  · rw [hsame]
    exact .quiet rfl rfl rfl rfl rfl rfl rfl fun _ h => h
  · obtain ⟨⟨hevents, happended, hdelivered, hlisteners, hissued⟩, hsequence, hnext, hrevision, _, _,
      hreservation⟩ := hlogs
    exact .logged _ ⟨hevents, happended, hdelivered, hlisteners, hissued⟩ hsequence hnext hrevision
      hreservation

theorem settle_cases (s : RegistryState) (call : SettleCall) :
    EventStep s (.settle call) (s.settle call) := by
  cases call with
  | stageTerminal stamp input =>
      show EventStep s _ (s.stageTerminal stamp input).2
      rcases s.stageTerminal_cases stamp input with hnone | ⟨staged, t, hstage, hstages⟩
      · rw [hnone]
        exact .refl
      · rw [hstage]
        exact .staged input staged hstages
  | commitTerminal token =>
      simp only [settle]
      cases hissued : s.issued[token]? with
      | none => exact .refl
      | some staged =>
          show EventStep s _ (s.commitTerminal staged)
          rcases s.commitTerminal_cases staged with hsame | hcommits
          · rw [hsame]
            exact .refl
          · exact .committed token staged rfl hissued hcommits
  | abortTerminal token =>
      show EventStep s _ (s.abortTerminal token)
      unfold abortTerminal
      split
      · exact .quiet rfl rfl rfl rfl rfl rfl rfl nofun
      · exact .refl
  | cancel stamp reason =>
      show EventStep s _ (s.cancel stamp reason)
      unfold cancel
      split
      · exact .refl
      · exact eventStep_finish
  | complete stamp snapshot =>
      show EventStep s _ (s.complete stamp snapshot)
      unfold complete
      split
      · exact .quiet rfl rfl rfl rfl rfl rfl rfl fun _ h => h
      · cases snapshot with
        | none => exact .refl
        | some snapshot => exact eventStep_finish
  | fail stamp code message =>
      show EventStep s _ (s.fail stamp code message)
      unfold fail
      split
      · exact .refl
      · exact eventStep_once
  | interrupt stamp reason =>
      show EventStep s _ (s.interrupt stamp reason)
      unfold interrupt
      split
      · exact .refl
      · exact eventStep_once

theorem step_cases (s : RegistryState) (call : RegistryCall) : EventStep s call (s.step call) := by
  cases call with
  | appendEvent stamp type payload =>
      obtain ⟨happends, hsequence, hnext, hrevision, _, _, hreservation⟩ :
          s.Logs (s.buildEvent stamp type payload) (s.appendEvent stamp type payload) :=
        appendEvent_logs
      exact .logged _ happends hsequence hnext hrevision hreservation
  | settle call => exact s.settle_cases call
  | subscribe listener => exact .subscribed listener rfl
  | unsubscribe listener => exact .left listener rfl

/-! ## Reservations -/

structure Reserves (s : RegistryState) (staged : StagedTerminalTransition) : Prop where
  sequence : 0 < staged.event.sequence ∧ staged.event.sequence ≤ s.record.nextSequence
  /-- Nothing was appended since. -/
  current : staged.event.sequence = s.record.nextSequence →
    staged.snapshot.revision = s.record.revision + 1
  late : staged.event.sequence < s.record.nextSequence →
    staged.snapshot.revision ≤ s.record.revision

structure Accounted (s : RegistryState) : Prop where
  tokens : ∀ (token : Nat) (staged : StagedTerminalTransition), s.issued[token]? = some staged →
    staged.token = token
  reserved : ∀ (token : Nat) (staged : StagedTerminalTransition),
    s.record.terminalReservation = some token → s.issued[token]? = some staged →
      s.Reserves staged
  /-- The events kept are those that are no fragments. -/
  events : s.record.events = s.appended.filter fun event => !event.isFragment

theorem accounted_create {runId : String} :
    (RegistryState.create runId taskId).Accounted where
  tokens _ _ h := by cases h
  reserved _ _ h := by cases h
  events := rfl

theorem Appends.events_filter (h : s.Appends event t)
    (hs : s.record.events = s.appended.filter fun event => !event.isFragment) :
    t.record.events = t.appended.filter fun event => !event.isFragment := by
  rw [h.events, h.appended, List.filter_append, ← hs]
  cases hfragment : event.isFragment <;> simp [hfragment]

theorem Stages.accounted (h : s.Stages input staged t) (hs : s.Accounted) : t.Accounted := by
  obtain ⟨aborted, hrecord⟩ := h.record
  have hnext : t.record.nextSequence = s.record.nextSequence + 1 := by rw [hrecord]
  have hrevision : t.record.revision = s.record.revision := by rw [hrecord]
  have hreservation : t.record.terminalReservation = some staged.token := by rw [hrecord]
  have hstaged : t.Reserves staged := by
    refine ⟨⟨?_, ?_⟩, fun _ => ?_, fun hlate => ?_⟩
    · rw [h.sequence]
      exact Nat.succ_pos _
    · rw [h.sequence, hnext]
    · rw [h.revision, hrevision]
    · rw [h.sequence, hnext] at hlate
      exact absurd hlate (Nat.lt_irrefl _)
  refine ⟨fun token other hother => ?_, fun token other hreserved hother => ?_, ?_⟩
  · rcases h.issued_cases hother with hbefore | ⟨rfl, rfl⟩
    · exact hs.tokens token other hbefore
    · exact h.token
  · rw [hreservation] at hreserved
    cases hreserved
    rw [h.issued, h.token, List.getElem?_concat_length] at hother
    cases hother
    exact hstaged
  · rw [hrecord, h.appended]
    exact hs.events

theorem Commits.accounted (h : s.Commits staged t) (hs : s.Accounted) : t.Accounted where
  tokens := h.appends.issued ▸ hs.tokens
  reserved token other hreserved _ := by
    rw [h.released] at hreserved
    cases hreserved
  events := h.appends.events_filter hs.events

theorem Reserves.logged (h : s.Reserves staged)
    (hnext : t.record.nextSequence = s.record.nextSequence + 1)
    (hrevision : t.record.revision = s.record.revision + 1) : t.Reserves staged := by
  refine ⟨⟨h.sequence.1, ?_⟩, fun hcurrent => ?_, fun _ => ?_⟩
  · rw [hnext]
    exact Nat.le_succ_of_le h.sequence.2
  · rw [hnext] at hcurrent
    exact absurd h.sequence.2 (by omega)
  · rw [hrevision]
    rcases Nat.lt_or_eq_of_le h.sequence.2 with hlt | heq
    · exact Nat.le_succ_of_le (h.late hlt)
    · exact Nat.le_of_eq (h.current heq)

theorem EventStep.accounted (h : EventStep s call t) (hs : s.Accounted) : t.Accounted := by
  cases h with
  | quiet events appended delivered listeners nextSequence revision issued reservation =>
      refine ⟨issued ▸ hs.tokens, fun token staged hreserved hstaged => ?_, ?_⟩
      · have h := hs.reserved token staged (reservation token hreserved) (issued ▸ hstaged)
        exact
          { sequence := nextSequence ▸ h.sequence
            current := nextSequence ▸ revision ▸ h.current
            late := nextSequence ▸ revision ▸ h.late }
      · rw [events, appended]
        exact hs.events
  | staged input staged stages => exact stages.accounted hs
  | logged event appends sequence nextSequence revision reservation =>
      refine ⟨appends.issued ▸ hs.tokens, fun token staged hreserved hstaged => ?_,
        appends.events_filter hs.events⟩
      exact (hs.reserved token staged (reservation ▸ hreserved) (appends.issued ▸ hstaged)).logged
        nextSequence revision
  | committed token staged commit issued commits => exact commits.accounted hs
  | finished input staged between stages commits => exact commits.accounted (stages.accounted hs)
  | subscribed listener subscribe =>
      cases subscribe
      exact ⟨hs.tokens, fun token staged hreserved hstaged =>
        let h := hs.reserved token staged hreserved hstaged
        ⟨h.sequence, h.current, h.late⟩, hs.events⟩
  | left listener unsubscribe =>
      cases unsubscribe
      exact ⟨hs.tokens, fun token staged hreserved hstaged =>
        let h := hs.reserved token staged hreserved hstaged
        ⟨h.sequence, h.current, h.late⟩, hs.events⟩

/-! ## Watermarks -/

def mark (s : RegistryState) (listener : Nat) : Nat :=
  (s.watermark listener).getD 0

/-- The events among those a client was given that are no fragments. -/
def coordination (events : List AppRunEvent) : List AppRunEvent :=
  events.filter fun event => !event.isFragment

theorem le_mark (h : event ∈ s.received listener) : event.sequence ≤ s.mark listener :=
  List.le_max?_getD_of_mem (List.mem_map_of_mem h)

theorem mark_congr (h : t.received listener = s.received listener) :
    t.mark listener = s.mark listener := by
  unfold mark watermark
  rw [h]

theorem mark_lt {n : Nat} (hn : 0 < n)
    (h : ∀ event ∈ s.received listener, event.sequence < n) : s.mark listener < n := by
  unfold mark
  cases hmark : s.watermark listener with
  | none => exact hn
  | some m =>
      obtain ⟨event, hin, rfl⟩ := List.mem_map.mp (List.max?_mem hmark)
      exact h event hin

theorem coordination_singleton :
    coordination [event] = if event.isFragment then [] else [event] := by
  unfold coordination
  cases hfragment : event.isFragment <;> simp [hfragment]

theorem told_once {listeners : List Nat} (hnodup : listeners.Nodup) :
    ((listeners.map fun other => (other, event)).filter fun entry => entry.1 = listener).map (·.2) =
      if listener ∈ listeners then [event] else [] := by
  induction listeners with
  | nil => rfl
  | cons first rest ih =>
      obtain ⟨hfirst, hrest⟩ := List.nodup_cons.mp hnodup
      rw [List.map_cons]
      by_cases hsame : first = listener
      · subst hsame
        rw [List.filter_cons_of_pos (by simp), List.map_cons, ih hrest, if_neg hfirst,
          if_pos List.mem_cons_self]
      · rw [List.filter_cons_of_neg (by simpa using hsame), ih hrest]
        simp [List.mem_cons, Ne.symm hsame]

theorem Appends.received (h : s.Appends event t) (hnodup : s.record.listeners.Nodup)
    (listener : Nat) : t.received listener =
      s.received listener ++ if listener ∈ s.record.listeners then [event] else [] := by
  unfold RegistryState.received
  rw [h.delivered, List.filter_append, List.map_append, told_once hnodup]

/-- The events of a run ascend, and every client has read them up to its watermark. -/
structure Ordered (s : RegistryState) : Prop where
  ascending : Ascending AppRunEvent.sequence s.record.events
  coordination : ∀ event ∈ s.record.events, event.isFragment = false
  positive : ∀ event ∈ s.record.events, 0 < event.sequence
  below : ∀ event ∈ s.record.events, event.sequence ≤ s.record.nextSequence
  given : ∀ entry ∈ s.delivered, entry.2.sequence ≤ s.record.nextSequence
  listeners : s.record.listeners.Nodup
  /-- The sequence of a staged event is nobody else's. -/
  reserved : ∀ token staged, s.record.terminalReservation = some token →
    s.issued[token]? = some staged →
      (∀ event ∈ s.record.events, event.sequence ≠ staged.event.sequence) ∧
        ∀ entry ∈ s.delivered, entry.2.sequence ≠ staged.event.sequence
  read : ∀ listener, RegistryState.coordination (s.received listener) =
    upTo AppRunEvent.sequence (s.mark listener) s.record.events
  live : ∀ listener ∈ s.record.listeners, ∀ event ∈ s.record.events,
    event.sequence ≤ s.mark listener

theorem ordered_create {runId : String} : (RegistryState.create runId taskId).Ordered where
  ascending := List.Pairwise.nil
  coordination _ h := absurd h List.not_mem_nil
  positive _ h := absurd h List.not_mem_nil
  below _ h := absurd h List.not_mem_nil
  given _ h := absurd h List.not_mem_nil
  listeners := List.nodup_nil
  reserved _ _ h := by cases h
  read _ := rfl
  live _ h := absurd h List.not_mem_nil

theorem mem_received {entry : AppRunEvent} (h : entry ∈ s.received listener) :
    (listener, entry) ∈ s.delivered := by
  obtain ⟨⟨other, event⟩, hin, rfl⟩ := List.mem_map.mp h
  obtain ⟨hin, hother⟩ := List.mem_filter.mp hin
  rw [decide_eq_true_iff] at hother
  exact hother ▸ hin

theorem Ordered.read_appends (hs : s.Ordered) (h : s.Appends event t) (hpositive : 0 < event.sequence)
    (hevents : ∀ other ∈ s.record.events, other.sequence < event.sequence)
    (hgiven : ∀ entry ∈ s.delivered, entry.2.sequence < event.sequence) (listener : Nat) :
    RegistryState.coordination (t.received listener) =
        upTo AppRunEvent.sequence (t.mark listener) t.record.events ∧
      (listener ∈ t.record.listeners → ∀ other ∈ t.record.events,
        other.sequence ≤ t.mark listener) := by
  have hreceived := h.received hs.listeners listener
  have hevent : t.record.events = s.record.events ++ RegistryState.coordination [event] := by
    rw [h.events, coordination_singleton]
    split
    · rw [List.append_nil]
    · rfl
  by_cases hlistens : listener ∈ s.record.listeners
  · rw [if_pos hlistens] at hreceived
    have hmark : event.sequence ≤ t.mark listener :=
      le_mark (hreceived ▸ List.mem_append_right _ (List.mem_singleton_self _))
    have hall (other : AppRunEvent) (hin : other ∈ t.record.events) :
        other.sequence ≤ t.mark listener := by
      rw [hevent] at hin
      rcases List.mem_append.mp hin with hin | hin
      · exact (Nat.le_of_lt (hevents other hin)).trans hmark
      · rw [List.mem_singleton.mp (List.mem_filter.mp hin).1]
        exact hmark
    refine ⟨?_, fun _ => hall⟩
    rw [upTo_eq_self hall, hreceived, hevent]
    have hbefore := hs.read listener
    rw [upTo_eq_self (hs.live listener hlistens)] at hbefore
    unfold RegistryState.coordination at hbefore ⊢
    rw [List.filter_append, hbefore]
  · rw [if_neg hlistens, List.append_nil] at hreceived
    have hmark : t.mark listener = s.mark listener := mark_congr hreceived
    have hlt : s.mark listener < event.sequence :=
      mark_lt hpositive fun other hin => hgiven _ (mem_received hin)
    refine ⟨?_, fun hin => absurd (h.listeners ▸ hin) hlistens⟩
    rw [hreceived, hmark, hs.read listener, hevent, coordination_singleton]
    split
    · rw [List.append_nil]
    · exact (upTo_snoc hlt).symm

/-- A step after which the sequences in use are below the next one, and one of those reserved is
nobody else's. -/
theorem Ordered.appends (hs : s.Ordered) (h : s.Appends event t)
    (hpositive : 0 < event.sequence) (hevents : ∀ other ∈ s.record.events,
      other.sequence < event.sequence)
    (hgiven : ∀ entry ∈ s.delivered, entry.2.sequence < event.sequence)
    (hnext : s.record.nextSequence ≤ t.record.nextSequence)
    (hle : event.sequence ≤ t.record.nextSequence)
    (hreserved : ∀ (token : Nat) (staged : StagedTerminalTransition),
      t.record.terminalReservation = some token → s.issued[token]? = some staged →
        s.record.terminalReservation = some token ∧
          event.sequence ≠ staged.event.sequence) : t.Ordered := by
  have hin (other : AppRunEvent) (hother : other ∈ t.record.events) :
      other ∈ s.record.events ∨ event.isFragment = false ∧ other = event := by
    rw [h.events] at hother
    split at hother
    · exact .inl hother
    · next hfragment =>
        rcases List.mem_append.mp hother with hother | hother
        · exact .inl hother
        · exact .inr ⟨Bool.eq_false_iff.mpr hfragment, List.mem_singleton.mp hother⟩
  have hentry (entry : Nat × AppRunEvent) (hentry : entry ∈ t.delivered) :
      entry ∈ s.delivered ∨ entry.2 = event := by
    rw [h.delivered] at hentry
    rcases List.mem_append.mp hentry with hentry | hentry
    · exact .inl hentry
    · obtain ⟨listener, _, rfl⟩ := List.mem_map.mp hentry
      exact .inr rfl
  refine
    { ascending := ?_
      coordination := fun other hother => ?_
      positive := fun other hother => ?_
      below := fun other hother => ?_
      given := fun entry hgives => ?_
      listeners := h.listeners ▸ hs.listeners
      reserved := fun token staged htoken hstaged => ?_
      read := fun listener => (hs.read_appends h hpositive hevents hgiven listener).1
      live := fun listener => (hs.read_appends h hpositive hevents hgiven listener).2 }
  · rw [h.events]
    split
    · exact hs.ascending
    · exact hs.ascending.snoc hevents
  · rcases hin other hother with hother | ⟨hfragment, rfl⟩
    · exact hs.coordination other hother
    · exact hfragment
  · rcases hin other hother with hother | ⟨_, rfl⟩
    · exact hs.positive other hother
    · exact hpositive
  · rcases hin other hother with hother | ⟨_, rfl⟩
    · exact (hs.below other hother).trans hnext
    · exact hle
  · rcases hentry entry hgives with hgives | hsame
    · exact (hs.given entry hgives).trans hnext
    · exact hsame ▸ hle
  · rw [h.issued] at hstaged
    obtain ⟨hbefore, hne⟩ := hreserved token staged htoken hstaged
    obtain ⟨hfresh, hungiven⟩ := hs.reserved token staged hbefore hstaged
    refine ⟨fun other hother => ?_, fun entry hgives => ?_⟩
    · rcases hin other hother with hother | ⟨_, rfl⟩
      · exact hfresh other hother
      · exact hne
    · rcases hentry entry hgives with hgives | hsame
      · exact hungiven entry hgives
      · exact hsame ▸ hne

theorem Ordered.stages (hs : s.Ordered) (h : s.Stages input staged t) : t.Ordered := by
  obtain ⟨aborted, hrecord⟩ := h.record
  have hevents : t.record.events = s.record.events := by rw [hrecord]
  have hnext : t.record.nextSequence = s.record.nextSequence + 1 := by rw [hrecord]
  have hreservation : t.record.terminalReservation = some staged.token := by rw [hrecord]
  have hlisteners : t.record.listeners = s.record.listeners := by rw [hrecord]
  have hreceived (listener : Nat) : t.received listener = s.received listener := by
    unfold RegistryState.received
    rw [h.delivered]
  have hmark (listener : Nat) : t.mark listener = s.mark listener :=
    mark_congr (hreceived listener)
  refine
    { ascending := hevents ▸ hs.ascending
      coordination := hevents ▸ hs.coordination
      positive := hevents ▸ hs.positive
      below := fun other hother => ?_
      given := fun entry hgives => ?_
      listeners := hlisteners ▸ hs.listeners
      reserved := fun token other htoken hother => ?_
      read := fun listener => by rw [hreceived, hmark, hevents, hs.read]
      live := fun listener hin => ?_ }
  · rw [hnext]
    exact Nat.le_succ_of_le (hs.below other (hevents ▸ hother))
  · rw [hnext]
    exact Nat.le_succ_of_le (hs.given entry (h.delivered ▸ hgives))
  · rw [hreservation] at htoken
    cases htoken
    rw [h.issued, h.token, List.getElem?_concat_length] at hother
    cases hother
    rw [h.sequence]
    refine ⟨fun other hother => ?_, fun entry hgives => ?_⟩
    · exact Nat.ne_of_lt (Nat.lt_succ_of_le (hs.below other (hevents ▸ hother)))
    · exact Nat.ne_of_lt (Nat.lt_succ_of_le (hs.given entry (h.delivered ▸ hgives)))
  · rw [hevents, hmark]
    exact hs.live listener (hlisteners ▸ hin)

theorem Ordered.commits {token : Nat} (hs : s.Ordered) (haccounted : s.Accounted)
    (h : s.Commits staged t) (hissued : s.issued[token]? = some staged)
    (hprompt : staged.event.sequence = s.record.nextSequence) : t.Ordered := by
  have htoken : staged.token = token := haccounted.tokens token staged hissued
  have hreserves := haccounted.reserved token staged (htoken ▸ h.reserved) hissued
  obtain ⟨hfresh, hungiven⟩ := hs.reserved token staged (htoken ▸ h.reserved) hissued
  refine hs.appends h.appends hreserves.sequence.1 (fun other hother => ?_) (fun entry hgives => ?_)
    (Nat.le_of_eq h.nextSequence.symm) (Nat.le_of_eq (hprompt.trans h.nextSequence.symm)) ?_
  · exact Nat.lt_of_le_of_ne (hprompt ▸ hs.below other hother) (hfresh other hother)
  · exact Nat.lt_of_le_of_ne (hprompt ▸ hs.given entry hgives) (hungiven entry hgives)
  · intro other _ hreserved _
    rw [h.released] at hreserved
    cases hreserved

theorem Ordered.replayed (hs : s.Ordered) (listener : Nat) :
    (s.record.events.filter fun event => (s.watermark listener).all fun n => n < event.sequence) =
      after AppRunEvent.sequence (s.mark listener) s.record.events := by
  refine List.filter_congr fun event hin => ?_
  unfold mark
  cases s.watermark listener with
  | none => simpa using hs.positive event hin
  | some n => rfl

theorem Ordered.subscribes (hs : s.Ordered) (listener : Nat) :
    (s.subscribe listener (s.watermark listener)).Ordered := by
  have hreplayed := hs.replayed listener
  have hother (other : Nat) (hne : other ≠ listener) :
      (s.subscribe listener (s.watermark listener)).received other = s.received other := by
    unfold RegistryState.received subscribe
    rw [List.filter_append, List.map_append]
    have hnone : (List.map (fun event => (listener, event)) (s.record.events.filter fun event =>
        (s.watermark listener).all fun n => n < event.sequence)).filter
          (fun entry => entry.1 = other) = [] := by
      refine List.filter_eq_nil_iff.mpr fun entry hentry => ?_
      obtain ⟨event, _, rfl⟩ := List.mem_map.mp hentry
      simpa using Ne.symm hne
    rw [hnone, List.map_nil, List.append_nil]
  have hmine : (s.subscribe listener (s.watermark listener)).received listener =
      s.received listener ++ after AppRunEvent.sequence (s.mark listener) s.record.events := by
    unfold RegistryState.received subscribe
    rw [List.filter_append, List.map_append, hreplayed]
    congr 1
    rw [List.filter_eq_self.mpr fun entry hentry => ?_, List.map_map]
    · exact List.map_id _
    · obtain ⟨event, _, rfl⟩ := List.mem_map.mp hentry
      simp
  have hmark (other : Nat) (hne : other ≠ listener) :
      (s.subscribe listener (s.watermark listener)).mark other = s.mark other :=
    mark_congr (hother other hne)
  have hlive (event : AppRunEvent) (hin : event ∈ s.record.events) :
      event.sequence ≤ (s.subscribe listener (s.watermark listener)).mark listener := by
    rw [← upTo_append_after (m := s.mark listener) hs.ascending] at hin
    rcases List.mem_append.mp hin with hin | hin
    · have hcoordination := hs.read listener ▸ hin
      exact le_mark (hmine ▸ List.mem_append_left _ (List.mem_filter.mp hcoordination).1)
    · exact le_mark (hmine ▸ List.mem_append_right _ hin)
  refine
    { ascending := hs.ascending
      coordination := hs.coordination
      positive := hs.positive
      below := hs.below
      given := fun entry hgives => ?_
      listeners := hs.listeners.insert
      reserved := fun token staged htoken hstaged => ?_
      read := fun other => ?_
      live := fun other hin => ?_ }
  · rcases List.mem_append.mp hgives with hgives | hgives
    · exact hs.given entry hgives
    · obtain ⟨event, hin, rfl⟩ := List.mem_map.mp hgives
      exact hs.below event (List.mem_filter.mp hin).1
  · obtain ⟨hfresh, hungiven⟩ := hs.reserved token staged htoken hstaged
    refine ⟨hfresh, fun entry hgives => ?_⟩
    rcases List.mem_append.mp hgives with hgives | hgives
    · exact hungiven entry hgives
    · obtain ⟨event, hin, rfl⟩ := List.mem_map.mp hgives
      exact hfresh event (List.mem_filter.mp hin).1
  · by_cases hsame : other = listener
    · subst hsame
      show RegistryState.coordination _ = upTo _ _ s.record.events
      rw [upTo_eq_self hlive, hmine]
      have hafter : RegistryState.coordination
          (after AppRunEvent.sequence (s.mark other) s.record.events) =
            after AppRunEvent.sequence (s.mark other) s.record.events := by
        refine List.filter_eq_self.mpr fun event hin => ?_
        rw [hs.coordination event (List.mem_filter.mp hin).1]
        rfl
      have happend := hs.read other
      unfold RegistryState.coordination at hafter happend ⊢
      rw [List.filter_append, happend, hafter, upTo_append_after hs.ascending]
    · show RegistryState.coordination _ = upTo _ _ s.record.events
      rw [hother other hsame, hmark other hsame, hs.read other]
  · by_cases hsame : other = listener
    · exact hsame ▸ hlive
    · rw [hmark other hsame]
      exact hs.live other ((List.mem_insert_iff.mp hin).resolve_left hsame)

theorem Ordered.unsubscribes (hs : s.Ordered) (listener : Nat) : (s.unsubscribe listener).Ordered where
  ascending := hs.ascending
  coordination := hs.coordination
  positive := hs.positive
  below := hs.below
  given := hs.given
  listeners := hs.listeners.filter _
  reserved := hs.reserved
  read := hs.read
  live other hin := hs.live other (List.mem_filter.mp hin).1

/-! ## Whole runs -/

/-- A transition that takes effect although something was appended since it was staged. -/
def CommitsLate (s : RegistryState) : RegistryCall → Prop
  | .settle (.commitTerminal token) =>
      s.record.status = .running ∧ s.record.terminalReservation = some token ∧
        ∃ staged, s.issued[token]? = some staged ∧ staged.event.sequence < s.record.nextSequence
  | _ => False

theorem EventStep.ordered (h : EventStep s call t) (haccounted : s.Accounted) (hs : s.Ordered)
    (hprompt : ¬ s.CommitsLate call) : t.Ordered := by
  cases h with
  | quiet events appended delivered listeners nextSequence revision issued reservation =>
      have hreceived (listener : Nat) : t.received listener = s.received listener := by
        unfold RegistryState.received
        rw [delivered]
      have hmark (listener : Nat) : t.mark listener = s.mark listener :=
        mark_congr (hreceived listener)
      exact
        { ascending := events ▸ hs.ascending
          coordination := events ▸ hs.coordination
          positive := events ▸ hs.positive
          below := events ▸ nextSequence ▸ hs.below
          given := delivered ▸ nextSequence ▸ hs.given
          listeners := listeners ▸ hs.listeners
          reserved := fun token staged htoken hstaged => by
            rw [events, delivered]
            exact hs.reserved token staged (reservation token htoken) (issued ▸ hstaged)
          read := fun listener => by rw [hreceived, hmark, events, hs.read]
          live := fun listener hin => by
            rw [hmark, events]
            exact hs.live listener (listeners ▸ hin) }
  | staged input staged stages => exact hs.stages stages
  | logged event appends sequence nextSequence revision reservation =>
      have hlt (n : Nat) (hn : n ≤ s.record.nextSequence) : n < event.sequence := by
        rw [sequence]
        exact Nat.lt_succ_of_le hn
      refine hs.appends appends (hlt 0 (Nat.zero_le _)) (fun other hin => hlt _ (hs.below other hin))
        (fun entry hin => hlt _ (hs.given entry hin)) ?_ ?_ fun token staged htoken hstaged => ?_
      · rw [nextSequence]
        exact Nat.le_succ _
      · rw [nextSequence, sequence]
      · have hreserved := reservation ▸ htoken
        exact ⟨hreserved, (Nat.ne_of_lt (hlt _
          (haccounted.reserved token staged hreserved hstaged).sequence.2)).symm⟩
  | committed token staged commit issued commits =>
      refine hs.commits haccounted commits issued ?_
      have htoken := haccounted.tokens token staged issued
      have hreserved := htoken ▸ commits.reserved
      rcases Nat.lt_or_eq_of_le (haccounted.reserved token staged hreserved issued).sequence.2
        with hlt | heq
      · subst commit
        exact absurd ⟨commits.running, hreserved, staged, issued, hlt⟩ hprompt
      · exact heq
  | finished input staged between stages commits =>
      obtain ⟨aborted, hrecord⟩ := stages.record
      have hissued : between.issued[s.issued.length]? = some staged := by
        rw [stages.issued, List.getElem?_concat_length]
      refine (hs.stages stages).commits (stages.accounted haccounted) commits hissued ?_
      rw [stages.sequence, hrecord]
  | subscribed listener subscribe => exact subscribe ▸ hs.subscribes listener
  | left listener unsubscribe => exact unsubscribe ▸ hs.unsubscribes listener

/-- An event is appended and the revision does not rise. -/
def RevisionStalls (s : RegistryState) (_ : RegistryCall) (t : RegistryState) : Prop :=
  s.appended.length < t.appended.length ∧ t.record.revision ≤ s.record.revision

/-- A client that listens was given every event that is no fragment, once and in ascending
order. -/
def CaughtUp (s : RegistryState) (listener : Nat) : Prop :=
  listener ∈ s.record.listeners →
    coordination (s.received listener) = coordination s.appended ∧
      Ascending AppRunEvent.sequence (coordination (s.received listener))

theorem Ordered.caughtUp (hs : s.Ordered) (haccounted : s.Accounted) (listener : Nat) :
    s.CaughtUp listener := by
  intro hin
  have hread : RegistryState.coordination (s.received listener) = s.record.events :=
    (hs.read listener).trans (upTo_eq_self (hs.live listener hin))
  rw [hread]
  exact ⟨haccounted.events, hs.ascending⟩

theorem CommitsLate.stalls (h : s.CommitsLate call) (hs : s.Accounted) :
    s.RevisionStalls call (s.step call) := by
  cases call with
  | settle call =>
      cases call with
      | commitTerminal token =>
          obtain ⟨hrunning, hreserved, staged, hissued, hlate⟩ := h
          have hstep : s.step (.settle (.commitTerminal token)) = s.commitTerminal staged := by
            simp only [step, settle, hissued]
          have hcommits : s.Commits staged (s.commitTerminal staged) :=
            commitTerminal_commits (hs.tokens token staged hissued ▸ hreserved) hrunning
          rw [hstep]
          refine ⟨?_, ?_⟩
          · rw [hcommits.appends.appended, List.length_append]
            exact Nat.lt_succ_self _
          · rw [hcommits.revision]
            exact (hs.reserved token staged hreserved hissued).late hlate
      | stageTerminal | abortTerminal | cancel | complete | fail | interrupt => exact h.elim
  | appendEvent | subscribe | unsubscribe => exact h.elim

theorem EventStep.rises (h : EventStep s call t) (hs : s.Accounted)
    (hprompt : ¬ s.CommitsLate call) : ¬ s.RevisionStalls call t := by
  rintro ⟨hgrows, hstalls⟩
  cases h with
  | quiet events appended delivered listeners nextSequence revision issued reservation =>
      rw [appended] at hgrows
      exact Nat.lt_irrefl _ hgrows
  | staged input staged stages =>
      rw [stages.appended] at hgrows
      exact Nat.lt_irrefl _ hgrows
  | logged event appends sequence nextSequence revision reservation => omega
  | committed token staged commit issued commits =>
      have htoken := hs.tokens token staged issued
      have hreserved := htoken ▸ commits.reserved
      have hreserves := hs.reserved token staged hreserved issued
      rcases Nat.lt_or_eq_of_le hreserves.sequence.2 with hlt | heq
      · subst commit
        exact hprompt ⟨commits.running, hreserved, staged, issued, hlt⟩
      · rw [commits.revision, hreserves.current heq] at hstalls
        exact Nat.not_succ_le_self _ hstalls
  | finished input staged between stages commits =>
      rw [commits.revision, stages.revision] at hstalls
      exact Nat.not_succ_le_self _ hstalls
  | subscribed listener subscribe =>
      subst subscribe
      exact Nat.lt_irrefl _ hgrows
  | left listener unsubscribe =>
      subst unsubscribe
      exact Nat.lt_irrefl _ hgrows

/-- Every client that listens is caught up, and the revision rises with every event, if and only
if no transition takes effect after an event was appended since it was staged. -/
theorem subscriber_resumes_iff (runId taskId : String) (calls : List RegistryCall) :
    (¬ Runs.Happened step (create runId taskId) calls RevisionStalls ∧
        ∀ seen, seen <+: calls → ∀ listener,
          (seen.foldl step (create runId taskId)).CaughtUp listener) ↔
      ¬ Runs.Happened step (create runId taskId) calls fun s call _ => s.CommitsLate call := by
  have haccounted (s : RegistryState) (call : RegistryCall) (hs : s.Accounted) :
      (s.step call).Accounted := (s.step_cases call).accounted hs
  have hstep (s : RegistryState) (call : RegistryCall) (hs : s.Accounted ∧ s.Ordered)
      (hprompt : ¬ s.CommitsLate call) : (s.step call).Accounted ∧ (s.step call).Ordered :=
    ⟨haccounted s call hs.1, (s.step_cases call).ordered hs.1 hs.2 hprompt⟩
  have hstart : (create runId taskId).Accounted ∧ (create runId taskId).Ordered :=
    ⟨accounted_create, ordered_create⟩
  constructor
  · rintro ⟨hrises, _⟩ ⟨pre, call, post, rfl, hlate⟩
    have hpre : (pre.foldl step (create runId taskId)).Accounted :=
      List.foldlRecOn pre step accounted_create fun s hs call _ => haccounted s call hs
    exact hrises ⟨pre, call, post, rfl, hlate.stalls hpre⟩
  · intro h
    refine ⟨Runs.not_happened hstep (fun s call hs hprompt =>
      (s.step_cases call).rises hs.1 hprompt) hstart h, fun seen hseen listener => ?_⟩
    obtain ⟨rest, rfl⟩ := hseen
    have hnever : ¬ Runs.Happened step (create runId taskId) seen
        fun s call _ => s.CommitsLate call := fun hlate => h (hlate.append rest)
    have hseen := Runs.invariant_of_not_happened (I := fun s => s.Accounted ∧ s.Ordered) hstep hstart
      hnever
    exact hseen.2.caughtUp hseen.1 listener

/-- A transition is staged, an event appended and given to a client, who leaves; the transition is
committed, and the client subscribes again. -/
def missedTransition : List RegistryCall :=
  [.subscribe 0, .settle (.stageTerminal ⟨"e1", "t1"⟩ (.completed "snapshot")),
    .appendEvent ⟨"e2", "t2"⟩ "artifact.registered" [], .unsubscribe 0,
    .settle (.commitTerminal 0), .subscribe 0]

/-- It is never given `run.completed`. -/
theorem transition_missed :
    ¬ (missedTransition.foldl step (create "run" "task")).CaughtUp 0 := by
  intro h
  have htypes := congrArg (List.map AppRunEvent.type) (h (by decide)).1
  revert htypes
  decide

end RegistryState

end Newide.App
