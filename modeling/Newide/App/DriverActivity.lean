import Newide.App.RunRegistry
import Newide.Foundation.Records

/-!
# What a driver is doing

`src/app/run-driver-activity.ts`: the state of each seat, folded from the
driver events that the registry retains.  The fragments among them stand in
one ring for each role, whatever their types.
-/

namespace Newide.App

open Record RegistryState

/-! ## The fold -/

inductive DriverState where
  | turnRunning | toolRunning | disconnected
deriving DecidableEq

structure DriverToolFields where
  toolCallId : Option String := none
  toolName : Option String := none
  toolKind : Option String := none
  toolTitle : Option String := none

structure DriverFold where
  state : DriverState
  since : Timestamp
  lastEventAt : Timestamp
  tool : DriverToolFields := {}

structure DriverSeat where
  fold : Option DriverFold := none
  turnCompleted : Bool := false

def readString (payload : Payload) (key : String) : Option String :=
  (payload.get? key).bind Json.nonEmptyString?

def readToolFields (payload : Payload) : DriverToolFields where
  toolCallId := readString payload "tool_call_id"
  toolName := readString payload "tool_name"
  toolKind := readString payload "kind"
  toolTitle := readString payload "title"

/-- An update of another call replaces the fields, one of the same call is laid over them. -/
def mergeToolFields (previous incoming : DriverToolFields) : DriverToolFields :=
  if previous.toolCallId.isSome ∧ incoming.toolCallId.isSome ∧
      previous.toolCallId ≠ incoming.toolCallId then
    incoming
  else
    { toolCallId := incoming.toolCallId <|> previous.toolCallId
      toolName := incoming.toolName <|> previous.toolName
      toolKind := incoming.toolKind <|> previous.toolKind
      toolTitle := incoming.toolTitle <|> previous.toolTitle }

def advanceDriverSeat (seat : DriverSeat) (event : AppRunEvent) : DriverSeat :=
  let at_ := event.createdAt
  let plain (state : DriverState) : DriverFold := { state, since := at_, lastEventAt := at_ }
  if event.type = "driver.turn_started" then { fold := some (plain .turnRunning) }
  else if event.type = "driver.tool_started" ∨ event.type = "driver.tool_progress" then
    let incoming := readToolFields event.payload
    let carried :=
      match seat.fold with
      | some fold =>
          if fold.state = .toolRunning then mergeToolFields fold.tool incoming else incoming
      | none => incoming
    { seat with fold := some { plain .toolRunning with tool := carried } }
  else if event.type = "driver.tool_completed" ∨ event.type = "driver.tool_failed" then
    { seat with fold := seat.fold.map fun _ => plain .turnRunning }
  else if event.type = "driver.turn_completed" then { turnCompleted := true }
  else if event.type = "driver.turn_failed" then {}
  else if event.type = "driver.disconnected" then
    { fold := if seat.turnCompleted then none else some (plain .disconnected) }
  else { seat with fold := seat.fold.map fun fold => { fold with lastEventAt := at_ } }

def seatOf? (event : AppRunEvent) : Option String :=
  if hasPrefix event.type "driver." ∧ event.createdAt ≠ "" then readString event.payload "role_id"
  else none

def advanceSeats (seats : Record String DriverSeat) (event : AppRunEvent) :
    Record String DriverSeat :=
  match seatOf? event with
  | none => seats
  | some roleId => seats.set roleId (advanceDriverSeat ((seats.get roleId).getD {}) event)

structure RunDriverActivity where
  state : DriverState
  since : Timestamp
  lastEventAt : Timestamp
  stale : Bool
  tool : DriverToolFields

/-- `isStale` is `isAgentActivityStale`, at the time and with the threshold of the call. -/
def projectDriverActivityByRole (isStale : Timestamp → Bool) (events : List AppRunEvent) :
    Record String RunDriverActivity :=
  (events.foldl advanceSeats []).filterMap fun entry =>
    entry.2.fold.map fun fold =>
      (entry.1,
        { state := fold.state
          since := fold.since
          lastEventAt := fold.lastEventAt
          stale := isStale fold.lastEventAt
          tool := fold.tool })

/-! ## What is retained -/

/-- `mergeRetained` -/
def RegistryState.listRetainedEvents (s : RegistryState) : List AppRunEvent :=
  let fragments := s.record.streamFragments.flatMap Prod.snd
  if fragments.isEmpty then s.record.events
  else (s.record.events ++ fragments).insertionSort fun left right => left.sequence ≤ right.sequence

/-- The events of a run, appended one by one. -/
def appendEvents (events : List (Stamp × String × Payload)) (s : RegistryState) : RegistryState :=
  events.foldl (fun s event => s.appendEvent event.1 event.2.1 event.2.2) s

/-! ## One seat -/

variable {seat seat' : DriverSeat} {event dropped : AppRunEvent} {events before later : List AppRunEvent}
  {roleId : String}

theorem distinct_seats (events : List AppRunEvent) :
    Record.Distinct (events.foldl advanceSeats []) := by
  refine List.foldlRecOn events advanceSeats List.nodup_nil fun seats h event _ => ?_
  unfold advanceSeats
  split
  · exact h
  · exact h.set _ _

theorem get_seats : ((events.foldl advanceSeats []).get roleId).getD {} =
    (events.filter fun event => seatOf? event = some roleId).foldl advanceDriverSeat {} := by
  induction events using List.reverseRecOn with
  | nil => rfl
  | append_singleton events event ih =>
      rw [List.foldl_append, List.filter_append, List.foldl_append, ← ih, List.foldl_cons,
        List.foldl_nil, advanceSeats]
      cases hseat : seatOf? event with
      | none => simp [hseat]
      | some other =>
          dsimp only
          rw [get_set (distinct_seats events)]
          by_cases heq : roleId = other
          · subst heq
            simp [hseat]
          · simp [hseat, heq, Ne.symm heq]

theorem get_project (isStale : Timestamp → Bool) :
    (projectDriverActivityByRole isStale events).get roleId =
      ((events.filter fun event => seatOf? event = some roleId).foldl
        advanceDriverSeat {}).fold.map fun fold =>
          { state := fold.state
            since := fold.since
            lastEventAt := fold.lastEventAt
            stale := isStale fold.lastEventAt
            tool := fold.tool } := by
  unfold projectDriverActivityByRole
  rw [get_filterMap (distinct_seats events), ← get_seats]
  · cases (events.foldl advanceSeats []).get roleId with
    | none => rfl
    | some seat => cases h : seat.fold <;> simp [h]
  · intro entry _ out hout
    obtain ⟨fold, -, rfl⟩ := Option.map_eq_some_iff.mp hout
    rfl

/-! ## What an event leaves of the seat before it -/

/-- A turn begins or ends, or the driver is gone. -/
def endsTurn (type : String) : Bool :=
  type ∈ ["driver.turn_started", "driver.turn_completed", "driver.turn_failed",
    "driver.disconnected"]

def endsTool (type : String) : Bool := type ∈ ["driver.tool_completed", "driver.tool_failed"]

/-- A tool is started, or its fields are laid over those there are. -/
def updatesTool (type : String) : Bool := type ∈ ["driver.tool_started", "driver.tool_progress"]

def toolOf (seat : DriverSeat) : DriverToolFields :=
  match seat.fold with
  | some fold => if fold.state = .toolRunning then fold.tool else {}
  | none => {}

/-- The fields of the updates among some events, one after another. -/
def updatesOf (events : List AppRunEvent) : List DriverToolFields :=
  (events.filter fun event => updatesTool event.type).map fun event => readToolFields event.payload

/-- The second seat is shown whenever the first one is. -/
structure Ahead (seat seat' : DriverSeat) : Prop where
  turnCompleted : seat'.turnCompleted = seat.turnCompleted
  active : seat.fold.isSome → seat'.fold.isSome

theorem advance_turnCompleted (h : seat.turnCompleted = seat'.turnCompleted) :
    (advanceDriverSeat seat event).turnCompleted =
      (advanceDriverSeat seat' event).turnCompleted := by
  unfold advanceDriverSeat
  dsimp only
  split_ifs <;> first | rfl | exact h

theorem Ahead.advance (h : Ahead seat seat') :
    Ahead (advanceDriverSeat seat event) (advanceDriverSeat seat' event) := by
  refine ⟨advance_turnCompleted h.turnCompleted, ?_⟩
  have hactive := h.active
  unfold advanceDriverSeat
  dsimp only
  rw [h.turnCompleted]
  split_ifs <;> simp <;> simpa using hactive

theorem advance_endsTurn (hends : endsTurn event.type)
    (h : seat.turnCompleted = seat'.turnCompleted) :
    advanceDriverSeat seat event = advanceDriverSeat seat' event := by
  simp only [endsTurn, List.mem_cons, List.not_mem_nil, or_false, decide_eq_true_eq] at hends
  unfold advanceDriverSeat
  rcases hends with hends | hends | hends | hends <;> simp [hends, h]

theorem advance_endsTool (hends : endsTool event.type) (h : Ahead seat seat')
    (hshown : seat.fold.isSome) : advanceDriverSeat seat' event = advanceDriverSeat seat event := by
  obtain ⟨hturn, hactive⟩ := h
  simp only [endsTool, List.mem_cons, List.not_mem_nil, or_false, decide_eq_true_eq] at hends
  unfold advanceDriverSeat
  obtain ⟨fold, turnCompleted⟩ := seat
  obtain ⟨fold', turnCompleted'⟩ := seat'
  cases fold <;> cases fold' <;> rcases hends with hends | hends <;> simp_all

theorem advance_updatesTool (hupdates : updatesTool event.type) :
    advanceDriverSeat seat event =
      { seat with
        fold := some
          { state := .toolRunning
            since := event.createdAt
            lastEventAt := event.createdAt
            tool := mergeToolFields (toolOf seat) (readToolFields event.payload) } } := by
  have hnone (incoming : DriverToolFields) : mergeToolFields {} incoming = incoming := by
    simp [mergeToolFields]
  simp only [updatesTool, List.mem_cons, List.not_mem_nil, or_false, decide_eq_true_eq] at hupdates
  unfold advanceDriverSeat toolOf
  rcases hupdates with hupdates | hupdates <;> simp only [hupdates] <;>
    cases hfold : seat.fold <;> simp [hnone] <;> split_ifs <;> simp [hnone]

theorem toolOf_foldl
    (hruns : ∀ event ∈ events, endsTurn event.type = false ∧ endsTool event.type = false) :
    toolOf (events.foldl advanceDriverSeat seat) =
      (updatesOf events).foldl mergeToolFields (toolOf seat) := by
  induction events generalizing seat with
  | nil => rfl
  | cons event events ih =>
      rw [List.foldl_cons, ih fun other hother => hruns other (List.mem_cons_of_mem _ hother)]
      by_cases hupdates : updatesTool event.type
      · rw [advance_updatesTool hupdates]
        simp [updatesOf, hupdates, toolOf]
      · obtain ⟨hturn, htool⟩ := hruns event List.mem_cons_self
        have hkept : toolOf (advanceDriverSeat seat event) = toolOf seat := by
          simp only [endsTurn, endsTool, updatesTool, List.mem_cons, List.not_mem_nil, or_false,
            decide_eq_true_eq, decide_eq_false_iff_not, not_or] at hturn htool hupdates
          unfold advanceDriverSeat toolOf
          simp [hturn, htool, hupdates]
          cases seat.fold <;> rfl
        simp [updatesOf, hupdates, hkept]

/-- The seat without the start of its state. -/
def bare (seat : DriverSeat) : DriverSeat :=
  { seat with fold := seat.fold.map fun fold => { fold with since := "" } }

/-- What the seat is doing, without any times. -/
def doing (seat : DriverSeat) : DriverSeat :=
  { seat with fold := seat.fold.map fun fold => { fold with since := "", lastEventAt := "" } }

theorem doing_of_bare (h : bare seat = bare seat') : doing seat = doing seat' := by
  have hdoing (seat : DriverSeat) : doing seat = doing (bare seat) := by
    unfold doing bare
    cases seat.fold <;> rfl
  rw [hdoing seat, h, ← hdoing]

theorem bare_advance (h : doing seat = doing seat') :
    bare (advanceDriverSeat seat event) = bare (advanceDriverSeat seat' event) := by
  obtain ⟨fold, turnCompleted⟩ := seat
  obtain ⟨fold', turnCompleted'⟩ := seat'
  unfold doing at h
  unfold bare advanceDriverSeat
  cases fold <;> cases fold' <;> simp_all
  split_ifs <;> simp_all

theorem bare_foldl (h : bare seat = bare seat') :
    bare (events.foldl advanceDriverSeat seat) = bare (events.foldl advanceDriverSeat seat') := by
  induction events generalizing seat seat' with
  | nil => exact h
  | cons event events ih => exact ih (bare_advance (doing_of_bare h))

/-! ## A fragment that is dropped -/

theorem Ahead.foldl (h : Ahead seat seat') :
    Ahead (events.foldl advanceDriverSeat seat) (events.foldl advanceDriverSeat seat') := by
  induction events generalizing seat seat' with
  | nil => exact h
  | cons event events ih => exact ih h.advance

/-- The event is no update of a tool, or one of the tool that runs and without news. -/
def AddsNothing (before : List AppRunEvent) (dropped : AppRunEvent) : Prop :=
  dropped.type = "driver.tool_progress" →
    ∃ fold, (before.foldl advanceDriverSeat {}).fold = some fold ∧ fold.state = .toolRunning ∧
      mergeToolFields fold.tool (readToolFields dropped.payload) = fold.tool

/-- A later event of the seat leaves nothing of the dropped one: any, if that added nothing, the
end of the turn, the end of a tool where the seat is shown without it, or an update of the tool
that gives the same fields without it. -/
inductive Overtaken (before : List AppRunEvent) (dropped : AppRunEvent) :
    List AppRunEvent → Prop where
  | heard (event : AppRunEvent) (later : List AppRunEvent) (h : AddsNothing before dropped) :
      Overtaken before dropped (event :: later)
  | turn (between : List AppRunEvent) (event : AppRunEvent) (later : List AppRunEvent)
      (h : endsTurn event.type) : Overtaken before dropped (between ++ event :: later)
  | tool (between : List AppRunEvent) (event : AppRunEvent) (later : List AppRunEvent)
      (h : endsTool event.type)
      (hshown : ((before ++ between).foldl advanceDriverSeat {}).fold.isSome) :
      Overtaken before dropped (between ++ event :: later)
  | update (between : List AppRunEvent) (event : AppRunEvent) (later : List AppRunEvent)
      (h : updatesTool event.type)
      (hruns : ∀ e ∈ between, endsTurn e.type = false ∧ endsTool e.type = false)
      (hfields :
        (updatesOf (dropped :: between ++ [event])).foldl mergeToolFields
            (toolOf (before.foldl advanceDriverSeat {})) =
          (updatesOf (between ++ [event])).foldl mergeToolFields
            (toolOf (before.foldl advanceDriverSeat {}))) :
      Overtaken before dropped (between ++ event :: later)

theorem AddsNothing.doing (h : AddsNothing before dropped)
    (hfragment : isStreamFragment dropped.type) :
    doing (advanceDriverSeat (before.foldl advanceDriverSeat {}) dropped) =
      doing (before.foldl advanceDriverSeat {}) := by
  simp only [isStreamFragment, streamOnlyTypes, List.mem_cons, List.not_mem_nil, or_false,
    decide_eq_true_eq] at hfragment
  unfold AddsNothing at h
  generalize before.foldl advanceDriverSeat {} = seat at h ⊢
  unfold App.doing advanceDriverSeat
  rcases hfragment with htype | htype | htype | htype | htype | htype
  · obtain ⟨fold, hfold, hstate, hmerge⟩ := h htype
    simp [htype, hfold, hstate, hmerge]
  all_goals cases hfold : seat.fold <;> simp [htype]

theorem advance_fragment (hfragment : isStreamFragment event.type) :
    Ahead seat (advanceDriverSeat seat event) ∧ endsTurn event.type = false ∧
      endsTool event.type = false := by
  simp only [isStreamFragment, streamOnlyTypes, List.mem_cons, List.not_mem_nil, or_false,
    decide_eq_true_eq] at hfragment
  unfold advanceDriverSeat
  refine ⟨⟨?_, ?_⟩, ?_⟩
  · rcases hfragment with h | h | h | h | h | h <;> simp [h]
  · rcases hfragment with h | h | h | h | h | h <;> simp [h]
  · rcases hfragment with h | h | h | h | h | h <;> simp [h, endsTurn, endsTool]

theorem Overtaken.bare (h : Overtaken before dropped later)
    (hfragment : isStreamFragment dropped.type) :
    bare ((before ++ dropped :: later).foldl advanceDriverSeat {}) =
      bare ((before ++ later).foldl advanceDriverSeat {}) := by
  obtain ⟨hahead, hturn, htool⟩ :=
    @advance_fragment (before.foldl advanceDriverSeat {}) dropped hfragment
  rw [List.foldl_append, List.foldl_append, List.foldl_cons]
  cases h with
  | heard event later h =>
      rw [List.foldl_cons, List.foldl_cons]
      exact bare_foldl (bare_advance (h.doing hfragment))
  | turn between event later h =>
      rw [List.foldl_append, List.foldl_append, List.foldl_cons, List.foldl_cons,
        advance_endsTurn h hahead.foldl.turnCompleted]
  | tool between event later h hshown =>
      rw [List.foldl_append] at hshown
      rw [List.foldl_append, List.foldl_append, List.foldl_cons, List.foldl_cons,
        advance_endsTool h hahead.foldl hshown]
  | update between event later h hruns hfields =>
      have hsplit (events : List AppRunEvent) : (updatesOf (events ++ [event])).foldl mergeToolFields
          (toolOf (before.foldl advanceDriverSeat {})) =
          mergeToolFields ((updatesOf events).foldl mergeToolFields
            (toolOf (before.foldl advanceDriverSeat {}))) (readToolFields event.payload) := by
        simp [updatesOf, h]
      have hruns' : ∀ e ∈ dropped :: between, endsTurn e.type = false ∧ endsTool e.type = false :=
        List.forall_mem_cons.mpr ⟨⟨hturn, htool⟩, hruns⟩
      rw [hsplit, hsplit, ← toolOf_foldl hruns, ← toolOf_foldl hruns', List.foldl_cons] at hfields
      rw [List.foldl_append, List.foldl_append, List.foldl_cons, List.foldl_cons,
        advance_updatesTool h, advance_updatesTool h, hfields, hahead.foldl.turnCompleted]

/-! ## The rings -/

variable {fragments : StreamFragments}

theorem retainFragment_cases :
    let kept := (retainFragment event roleId fragments).flatMap Prod.snd
    kept.Perm (fragments.flatMap Prod.snd ++ [event]) ∨
      ∃ dropped ring, (roleId, dropped :: ring) ∈ fragments ∧
        retainedFragmentsPerRole ≤ ring.length + 1 ∧
        (dropped :: kept).Perm (fragments.flatMap Prod.snd ++ [event]) := by
  induction fragments with
  | nil => exact .inl (.refl _)
  | cons entry fragments ih =>
      obtain ⟨role, ring⟩ := entry
      have hmove : ([event] ++ fragments.flatMap Prod.snd).Perm
          (fragments.flatMap Prod.snd ++ [event]) := List.perm_append_comm
      simp only [retainFragment]
      by_cases hrole : role = roleId
      · rw [if_pos hrole]
        by_cases hfull : (ring ++ [event]).length > retainedFragmentsPerRole
        · rw [if_pos hfull]
          cases ring with
          | nil => simp [retainedFragmentsPerRole] at hfull
          | cons oldest ring =>
              refine .inr ⟨oldest, ring, by simp [hrole],
                Nat.le_of_lt_succ (by simpa using hfull), ?_⟩
              simp only [List.flatMap_cons, List.cons_append, List.drop_succ_cons, List.drop_zero,
                List.append_assoc]
              exact (hmove.append_left ring).cons oldest
        · rw [if_neg hfull]
          refine .inl ?_
          simp only [List.flatMap_cons, List.append_assoc]
          exact hmove.append_left ring
      · rw [if_neg hrole]
        simp only [List.flatMap_cons, List.append_assoc]
        refine ih.imp (fun hperm => hperm.append_left ring) ?_
        rintro ⟨dropped, others, hin, hfull, hperm⟩
        exact ⟨dropped, others, List.mem_cons_of_mem _ hin, hfull,
          List.perm_middle.symm.trans (hperm.append_left ring)⟩

/-! ## The registry -/

/-- The events `kept` are those that the registry retains. -/
structure Retains (s : RegistryState) (kept : List AppRunEvent) : Prop where
  perm : (s.record.events ++ s.record.streamFragments.flatMap Prod.snd).Perm kept
  ordered : kept.Pairwise (·.sequence < ·.sequence)
  below : ∀ e ∈ kept, e.sequence ≤ s.record.nextSequence
  events_ordered : s.record.events.Pairwise (·.sequence < ·.sequence)
  fragments : ∀ e ∈ s.record.streamFragments.flatMap Prod.snd, isStreamFragment e.type

variable {s : RegistryState} {kept : List AppRunEvent} {stamp : Stamp} {type : String}
  {payload : Payload}

theorem Retains.list (h : Retains s kept) : s.listRetainedEvents = kept := by
  have hsame {l : List AppRunEvent} (hperm : l.Perm kept)
      (hl : l.Pairwise fun a b => a.sequence ≤ b.sequence) : l = kept := by
    refine List.Perm.eq_of_pairwise (fun a b ha hb hle hge => ?_) hl
      (h.ordered.imp fun hlt => hlt.le) hperm
    have hnodup : (kept.map (·.sequence)).Nodup :=
      List.pairwise_map.mpr (h.ordered.imp fun hlt => hlt.ne)
    exact List.inj_on_of_nodup_map hnodup (hperm.mem_iff.mp ha) hb (le_antisymm hle hge)
  have hperm := h.perm
  unfold listRetainedEvents
  dsimp only
  split_ifs with hnone
  · rw [List.isEmpty_iff.mp hnone, List.append_nil] at hperm
    exact hsame hperm (h.events_ordered.imp fun hlt => hlt.le)
  · have : Std.Total fun a b : AppRunEvent => a.sequence ≤ b.sequence :=
      ⟨fun a b => Nat.le_total a.sequence b.sequence⟩
    have : IsTrans AppRunEvent fun a b => a.sequence ≤ b.sequence :=
      ⟨fun _ _ _ => Nat.le_trans⟩
    exact hsame ((List.perm_insertionSort _ _).trans hperm) (List.pairwise_insertionSort _ _)

theorem Retains.snoc_ordered {l : List AppRunEvent} (h : Retains s kept)
    (hl : l.Pairwise (·.sequence < ·.sequence)) (hsub : ∀ e ∈ l, e ∈ kept)
    (hnew : event.sequence = s.record.nextSequence + 1) :
    (l ++ [event]).Pairwise (·.sequence < ·.sequence) := by
  refine List.pairwise_append.mpr ⟨hl, List.pairwise_singleton _ _, ?_⟩
  intro e he other hother
  rw [List.mem_singleton.mp hother, hnew]
  exact Nat.lt_succ_of_le (h.below e (hsub e he))

/-- The oldest fragment of a full ring gives way to a new one. -/
def Drops (s : RegistryState) (type : String) (payload : Payload) (dropped : AppRunEvent) : Prop :=
  isStreamFragment type ∧
    ∃ ring, (((payload.get? "role_id").bind Json.string?).getD "", dropped :: ring) ∈
      s.record.streamFragments ∧ retainedFragmentsPerRole ≤ ring.length + 1

/-- The step lemma: an event is retained, and at most one fragment is dropped for it. -/
theorem Retains.append (h : Retains s kept) :
    Retains (s.appendEvent stamp type payload) (kept ++ [s.buildEvent stamp type payload]) ∨
      ∃ before dropped later, kept = before ++ dropped :: later ∧ Drops s type payload dropped ∧
        isStreamFragment dropped.type ∧
        Retains (s.appendEvent stamp type payload)
          (before ++ later ++ [s.buildEvent stamp type payload]) := by
  generalize he : s.buildEvent stamp type payload = event
  have hnew : event.sequence = s.record.nextSequence + 1 := by rw [← he]; rfl
  have hsequence : (s.appendEvent stamp type payload).record.nextSequence =
      s.record.nextSequence + 1 :=
    appendEvent_logs.nextSequence
  have hbelow {l : List AppRunEvent} (hsub : l.Sublist kept) :
      ∀ e ∈ l ++ [event], e.sequence ≤ (s.appendEvent stamp type payload).record.nextSequence := by
    intro e hin
    rw [hsequence]
    rcases List.mem_append.mp hin with hin | hin
    · exact (h.below e (hsub.subset hin)).trans (Nat.le_succ _)
    · rw [List.mem_singleton.mp hin, hnew]
  have hretain : (s.appendEvent stamp type payload).record.events =
        (retainEvent s.record event).events ∧
      (s.appendEvent stamp type payload).record.streamFragments =
        (retainEvent s.record event).streamFragments := by
    simp only [appendEvent, notify, he, retainEvent]
    split_ifs <;> exact ⟨rfl, rfl⟩
  obtain ⟨hevents, hfragments⟩ := hretain
  unfold retainEvent at hevents hfragments
  split_ifs at hevents hfragments with hfragment
  · have hcases := @retainFragment_cases event
      (((event.payload.get? "role_id").bind Json.string?).getD "") s.record.streamFragments
    dsimp only at hcases hfragments
    rw [← hfragments] at hcases
    have hordered : (s.appendEvent stamp type payload).record.events.Pairwise
        (·.sequence < ·.sequence) := by
      rw [hevents]
      exact h.events_ordered
    have hjoined : (s.record.events ++
        (s.record.streamFragments.flatMap Prod.snd ++ [event])).Perm (kept ++ [event]) := by
      rw [← List.append_assoc]
      exact h.perm.append_right _
    have htypes : ∀ e ∈ s.record.streamFragments.flatMap Prod.snd ++ [event],
        isStreamFragment e.type := by
      intro e hin
      rcases List.mem_append.mp hin with hin | hin
      · exact h.fragments e hin
      · rw [List.mem_singleton.mp hin]
        exact hfragment
    rcases hcases with hperm | ⟨dropped, ring, hring, hfull, hperm⟩
    · refine .inl ⟨?_, h.snoc_ordered h.ordered (fun e he => he) hnew,
        hbelow (List.Sublist.refl _), hordered, fun e hin => htypes e (hperm.mem_iff.mp hin)⟩
      rw [hevents]
      exact (hperm.append_left _).trans hjoined
    · have hdropped : dropped ∈ s.record.streamFragments.flatMap Prod.snd :=
        List.mem_flatMap.mpr ⟨_, hring, List.mem_cons_self⟩
      have hin : dropped ∈ kept := h.perm.mem_iff.mp (List.mem_append_right _ hdropped)
      obtain ⟨before, later, rfl⟩ := List.append_of_mem hin
      have hsub : (before ++ later).Sublist (before ++ dropped :: later) :=
        (List.sublist_cons_self dropped later).append_left before
      have hdrops : Drops s type payload dropped := by
        subst he
        exact ⟨hfragment, ring, hring, hfull⟩
      refine .inr ⟨before, dropped, later, rfl, hdrops, h.fragments dropped hdropped, ?_,
        h.snoc_ordered (h.ordered.sublist hsub) (fun e he => hsub.subset he) hnew, hbelow hsub,
        hordered, fun e hin => htypes e (hperm.mem_iff.mp (List.mem_cons_of_mem _ hin))⟩
      rw [hevents]
      refine List.Perm.cons_inv (a := dropped) ?_
      refine List.perm_middle.symm.trans ((hperm.append_left _).trans (hjoined.trans ?_))
      rw [List.append_assoc, List.append_assoc]
      exact List.perm_middle
  · have hin (e : AppRunEvent) (he : e ∈ s.record.events) : e ∈ kept :=
      h.perm.mem_iff.mp (List.mem_append_left _ he)
    refine .inl ⟨?_, h.snoc_ordered h.ordered (fun e he => he) hnew,
      hbelow (List.Sublist.refl _), ?_, ?_⟩
    · rw [hevents, hfragments, List.append_assoc]
      have hmove : ([event] ++ s.record.streamFragments.flatMap Prod.snd).Perm
          (s.record.streamFragments.flatMap Prod.snd ++ [event]) := List.perm_append_comm
      refine (hmove.append_left _).trans ?_
      rw [← List.append_assoc]
      exact h.perm.append_right _
    · rw [hevents]
      exact h.snoc_ordered h.events_ordered hin hnew
    · rw [hfragments]
      exact h.fragments

/-! ## All runs -/

def ofSeat (roleId : String) (events : List AppRunEvent) : List AppRunEvent :=
  events.filter fun event => seatOf? event = some roleId

/-- Whatever an append drops has been overtaken. -/
def DropsOvertaken (s : RegistryState) (stamp : Stamp) (type : String) (payload : Payload) : Prop :=
  ∀ before dropped later roleId,
    s.listRetainedEvents ++ [s.buildEvent stamp type payload] = before ++ dropped :: later →
    Drops s type payload dropped →
    seatOf? dropped = some roleId →
    Overtaken (ofSeat roleId before) dropped (ofSeat roleId later)

/-- What is shown of a role, but for the start of its state. -/
def shownActivity (isStale : Timestamp → Bool) (events : List AppRunEvent) (roleId : String) :
    Option RunDriverActivity :=
  ((projectDriverActivityByRole isStale events).get roleId).map fun activity =>
    { activity with since := "" }

theorem shownActivity_congr {isStale : Timestamp → Bool} {all : List AppRunEvent}
    (h : bare ((ofSeat roleId kept).foldl advanceDriverSeat {}) =
      bare ((ofSeat roleId all).foldl advanceDriverSeat {})) :
    shownActivity isStale kept roleId = shownActivity isStale all roleId := by
  have hshown (events : List AppRunEvent) : shownActivity isStale events roleId =
      (bare ((ofSeat roleId events).foldl advanceDriverSeat {})).fold.map fun fold =>
        { state := fold.state
          since := fold.since
          lastEventAt := fold.lastEventAt
          stale := isStale fold.lastEventAt
          tool := fold.tool } := by
    rw [shownActivity, get_project, bare, Option.map_map, Option.map_map]
    rfl
  rw [hshown, hshown, h]

/-- The run lemma: what is retained leaves each seat as all events do. -/
theorem Retains.run {runId taskId : String} {events : List (Stamp × String × Payload)}
    (h : ∀ earlier input rest, events = earlier ++ input :: rest →
      DropsOvertaken (appendEvents earlier (.create runId taskId)) input.1 input.2.1 input.2.2) :
    ∃ kept, Retains (appendEvents events (.create runId taskId)) kept ∧ ∀ roleId,
      bare ((ofSeat roleId kept).foldl advanceDriverSeat {}) =
        bare ((ofSeat roleId (appendEvents events (.create runId taskId)).appended).foldl
          advanceDriverSeat {}) := by
  induction events using List.reverseRecOn with
  | nil =>
      exact ⟨[], ⟨.nil, .nil, fun _ h => (nomatch h), .nil, fun _ h => (nomatch h)⟩, fun _ => rfl⟩
  | append_singleton events input ih =>
      obtain ⟨kept, hkept, hsame⟩ := ih fun earlier other rest hsplit =>
        h earlier other (rest ++ [input]) (by simp [hsplit])
      have hdrops := h events input [] rfl
      have hrun : appendEvents (events ++ [input]) (.create runId taskId) =
          (appendEvents events (.create runId taskId)).appendEvent input.1 input.2.1 input.2.2 := by
        simp [appendEvents]
      rw [hrun]
      generalize appendEvents events (.create runId taskId) = s at hkept hsame hdrops
      obtain ⟨stamp, type, payload⟩ := input
      have happended : (s.appendEvent stamp type payload).appended =
          s.appended ++ [s.buildEvent stamp type payload] := rfl
      dsimp only at hdrops ⊢
      rw [happended]
      have hjoin (roleId : String) :
          bare ((ofSeat roleId (kept ++ [s.buildEvent stamp type payload])).foldl
              advanceDriverSeat {}) =
            bare ((ofSeat roleId (s.appended ++ [s.buildEvent stamp type payload])).foldl
              advanceDriverSeat {}) := by
        simp only [ofSeat, List.filter_append, List.foldl_append]
        exact bare_foldl (hsame roleId)
      rcases hkept.append with hretains | ⟨before, dropped, later, rfl, hdropped, hfragment, hretains⟩
      · exact ⟨_, hretains, hjoin⟩
      · refine ⟨_, hretains, fun roleId => (Eq.symm ?_).trans (hjoin roleId)⟩
        by_cases hseat : seatOf? dropped = some roleId
        · have hover := hdrops before dropped (later ++ [s.buildEvent stamp type payload]) roleId
            (by rw [hkept.list]; simp) hdropped hseat
          have hbare := hover.bare hfragment
          simpa [ofSeat, hseat] using hbare
        · simp [ofSeat, hseat]

/-- An event of the call `call` that seat `lead` has started. -/
private def callEvent (now : Timestamp) (type title : String) : Stamp × String × Payload :=
  ({ eventId := now, now }, type,
    [("role_id", .str "lead"), ("tool_call_id", .str "call"), ("title", .str title)])

private def chunkEvent (now : Timestamp) : Stamp × String × Payload :=
  ({ eventId := now, now }, "driver.agent_message_chunk", [("role_id", .str "lead")])

end Newide.App
