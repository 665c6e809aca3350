import Newide.App.RunRegistry

/-!
# A run is settled once

Which calls of the registry settle a run, and what keeps it settled.  A
run that has left `running` has one terminal event, that of its status;
only `fail` may settle it again.
-/

namespace Newide.App

open AppRunStatus

/-! ## Terminal events -/

/-- The event of an exit from `running`. -/
def AppRunStatus.terminalType : AppRunStatus → Option String
  | .running => none
  | .completed => some "run.completed"
  | .failed => some "run.failed"
  | .cancelled => some "run.cancelled"
  | .interrupted => some "run.interrupted"

def isTerminalType (type : String) : Bool :=
  type ∈ ["run.completed", "run.failed", "run.cancelled", "run.interrupted"]

variable {status : AppRunStatus} {call : SettleCall} {input : TerminalInput}
  {staged : StagedTerminalTransition}

theorem terminalType_eq_none :
    status.terminalType = none ↔ status = .running := by
  cases status <;> simp [terminalType]

theorem terminalType_inj {other : AppRunStatus} (h : status.terminalType = other.terminalType) :
    status = other := by
  cases status <;> cases other <;> first | rfl | simp [terminalType] at h

theorem isTerminalType_of {type : String} (h : status.terminalType = some type) :
    isTerminalType type = true ∧ isStreamFragment type = false := by
  cases status <;> cases h <;> decide

theorem TerminalInput.terminalType (input : TerminalInput) :
    input.status.terminalType = some input.type := by
  cases input <;> rfl

namespace RegistryState

variable {s t : RegistryState} {stamp : Stamp} {type : String} {payload : Payload}

def terminalTypes (s : RegistryState) : List String :=
  (s.record.events.map (·.type)).filter isTerminalType

theorem Appends.terminalTypes {event : AppRunEvent} (h : s.Appends event t)
    (hstatus : status.terminalType = some event.type) :
    t.terminalTypes = s.terminalTypes ++ [event.type] := by
  obtain ⟨hterminal, hfragment⟩ := isTerminalType_of hstatus
  have hevents : t.record.events = s.record.events ++ [event] := by
    rw [h.events, AppRunEvent.isFragment, hfragment]
    rfl
  unfold RegistryState.terminalTypes
  rw [hevents, List.map_append, List.filter_append]
  simp [hterminal]

theorem mem_terminalTypes (htype : status.terminalType = some type)
    (h : ∃ event ∈ s.record.events, event.type = type) : type ∈ s.terminalTypes := by
  obtain ⟨event, hin, hevent⟩ := h
  exact List.mem_filter.mpr ⟨List.mem_map.mpr ⟨event, hin, hevent⟩, (isTerminalType_of htype).1⟩

/-! ## Agreement of the status and the events -/

/-- A transition goes by its number, and its event is that of its status. -/
def StagedTerminalTransition.Fits (token : Nat) (staged : StagedTerminalTransition) : Prop :=
  staged.token = token ∧ staged.snapshot.status.terminalType = some staged.event.type

/-- A run has the terminal event of its status and no other. -/
structure Settled (s : RegistryState) : Prop where
  issued : ∀ token staged, s.issued[token]? = some staged →
    StagedTerminalTransition.Fits token staged
  types : s.terminalTypes = s.record.status.terminalType.toList

theorem settled_create {runId taskId : String} : (RegistryState.create runId taskId).Settled where
  issued _ _ h := by cases h
  types := rfl

/-- What a call may do to a run: nothing to its exit, or settle it. -/
inductive SettleStep (s t : RegistryState) : Prop where
  | kept (status : t.record.status = s.record.status) (error : t.record.error = s.record.error)
      (types : t.terminalTypes = s.terminalTypes)
  | settles (type : String) (running : s.record.status = .running)
      (status : t.record.status.terminalType = some type)
      (types : t.terminalTypes = s.terminalTypes ++ [type])

theorem SettleStep.types (h : SettleStep s t) (hs : s.Settled) :
    t.terminalTypes = t.record.status.terminalType.toList := by
  cases h with
  | kept status error types => rw [types, status, hs.types]
  | settles type running status types =>
      rw [types, status, hs.types, running]
      rfl

theorem SettleStep.settled (h : SettleStep s t) (hsettled : s.record.status ≠ .running) :
    t.record.status = s.record.status ∧ t.record.error = s.record.error := by
  cases h with
  | kept status error types => exact ⟨status, error⟩
  | settles type running status types => exact absurd running hsettled

/-! ## Calls -/

theorem Stages.settles (h : s.Stages input staged t) (hs : s.Settled) :
    t.Settled ∧ SettleStep s t := by
  obtain ⟨aborted, hrecord⟩ := h.record
  have hevents : t.record.events = s.record.events := by rw [hrecord]
  have htypes : t.terminalTypes = s.terminalTypes := by
    unfold terminalTypes
    rw [hevents]
  have hstep : SettleStep s t := .kept (by rw [hrecord]) (by rw [hrecord]) htypes
  refine ⟨⟨fun token other hother => ?_, hstep.types hs⟩, hstep⟩
  rcases h.issued_cases hother with hbefore | ⟨rfl, rfl⟩
  · exact hs.issued token other hbefore
  · exact ⟨h.token, by rw [h.status, h.type, input.terminalType]⟩

theorem Commits.settles (h : s.Commits staged t)
    (hfits : staged.snapshot.status.terminalType = some staged.event.type) (hs : s.Settled) :
    t.Settled ∧ SettleStep s t := by
  have hstep : SettleStep s t :=
    .settles staged.event.type h.running (h.status ▸ hfits) (h.appends.terminalTypes hfits)
  exact ⟨⟨h.appends.issued ▸ hs.issued, hstep.types hs⟩, hstep⟩

theorem settles_finish (hs : s.Settled) :
    (s.finish stamp input).Settled ∧ SettleStep s (s.finish stamp input) := by
  rcases s.finish_cases stamp input with hsame | ⟨staged, t, hstages, hcommits⟩
  · rw [hsame]
    exact ⟨hs, .kept rfl rfl rfl⟩
  · obtain ⟨ht, hstep⟩ := hstages.settles hs
    have hfits : staged.snapshot.status.terminalType = some staged.event.type := by
      rw [hstages.status, hstages.type, input.terminalType]
    obtain ⟨hafter, hcommit⟩ := hcommits.settles hfits ht
    obtain ⟨aborted, hrecord⟩ := hstages.record
    have htypes : t.terminalTypes = s.terminalTypes := by
      unfold terminalTypes
      rw [hrecord]
    refine ⟨hafter, .settles staged.event.type hstages.running (hcommits.status ▸ hfits) ?_⟩
    rw [hcommits.appends.terminalTypes hfits, htypes]

/-- The calls that settle a run by themselves: the status is set, then the event appended. -/
theorem settles_once {current : AppRunCurrent} {error : Option AppRunError} (hs : s.Settled)
    (hrunning : s.record.status = .running) (htype : status.terminalType = some type) :
    let t := appendEventOnce { s with record := { s.record with status, current, error } } stamp
      type payload
    t.Settled ∧ SettleStep s t := by
  intro t
  rcases appendEventOnce_cases { s with record := { s.record with status, current, error } } stamp
      type payload with ⟨hany, _⟩ | ⟨_, hlogs⟩
  · have hmem : type ∈ s.terminalTypes := mem_terminalTypes htype hany
    rw [hs.types, hrunning] at hmem
    cases hmem
  · have hstatus : t.record.status.terminalType = some type := by
      rw [hlogs.status]
      exact htype
    have hstep : SettleStep s t :=
      .settles type hrunning hstatus (hlogs.appends.terminalTypes htype)
    exact ⟨⟨hlogs.appends.issued ▸ hs.issued, hstep.types hs⟩, hstep⟩

/-- `fail` on a run that is settled settles it anew: it looks at a cancelled run only. -/
def FailsSettled (s : RegistryState) : SettleCall → Prop
  | .fail _ code message =>
      s.record.status ∈ [.completed, .interrupted] ∨
        s.record.status = .failed ∧ s.record.error ≠ some { code, message }
  | _ => False

theorem settles_fail {code message : String} (hs : s.Settled)
    (h : ¬ s.FailsSettled (.fail stamp code message)) :
    (s.fail stamp code message).Settled ∧ SettleStep s (s.fail stamp code message) := by
  unfold FailsSettled at h
  unfold fail
  cases hstatus : s.record.status with
  | cancelled =>
      rw [if_pos rfl]
      exact ⟨hs, .kept rfl rfl rfl⟩
  | completed => exact absurd (.inl (by rw [hstatus]; decide)) h
  | interrupted => exact absurd (.inl (by rw [hstatus]; decide)) h
  | running =>
      rw [if_neg nofun]
      exact settles_once hs hstatus rfl
  | failed =>
      have herror : s.record.error = some { code, message } := by
        by_contra hne
        exact h (.inr ⟨hstatus, hne⟩)
      have hmem : "run.failed" ∈ s.terminalTypes := by
        rw [hs.types, hstatus]
        exact List.mem_singleton_self _
      rw [if_neg nofun]
      rcases appendEventOnce_cases
          { s with
            record :=
              { s.record with
                status := .failed
                current := { stage := .intervention, activeNodeCode := "N18" }
                error := some { code, message } } }
          stamp "run.failed" [("code", .str code)] with ⟨_, hsame⟩ | ⟨hnone, _⟩
      · rw [hsame]
        have hstep : SettleStep s
            { s with
              record :=
                { s.record with
                  status := .failed
                  current := { stage := .intervention, activeNodeCode := "N18" }
                  error := some { code, message } } } :=
          .kept hstatus.symm herror.symm rfl
        exact ⟨⟨hs.issued, hstep.types hs⟩, hstep⟩
      · obtain ⟨hin, _⟩ := List.mem_filter.mp hmem
        obtain ⟨event, hevent, htype⟩ := List.mem_map.mp hin
        exact absurd htype (hnone event hevent)

theorem settles_complete {snapshot : Option String} (hs : s.Settled) :
    (s.complete stamp snapshot).Settled ∧ SettleStep s (s.complete stamp snapshot) := by
  unfold complete
  split
  · next hany =>
      simp only [List.any_eq_true, decide_eq_true_iff] at hany
      have hmem : "run.completed" ∈ s.terminalTypes :=
        mem_terminalTypes (rfl : completed.terminalType = _) hany
      rw [hs.types, Option.mem_toList] at hmem
      have hstatus : s.record.status = .completed := terminalType_inj hmem
      have hstep : SettleStep s
          { s with
            record :=
              { s.record with
                status := .completed
                current := { stage := .delivery, activeNodeCode := "N18" }
                snapshot := snapshot <|> s.record.snapshot } } := .kept hstatus.symm rfl rfl
      exact ⟨⟨hs.issued, hstep.types hs⟩, hstep⟩
  · cases snapshot with
    | none => exact ⟨hs, .kept rfl rfl rfl⟩
    | some snapshot => exact settles_finish hs

/-- A call that is no such `fail` keeps the exit and the event of a run together. -/
theorem Settled.settle (hs : s.Settled) (h : ¬ s.FailsSettled call) :
    (s.settle call).Settled ∧ SettleStep s (s.settle call) := by
  cases call with
  | stageTerminal stamp input =>
      show (s.stageTerminal stamp input).2.Settled ∧ SettleStep s (s.stageTerminal stamp input).2
      rcases s.stageTerminal_cases stamp input with hnone | ⟨staged, t, hstage, hstages⟩
      · rw [hnone]
        exact ⟨hs, .kept rfl rfl rfl⟩
      · rw [hstage]
        exact hstages.settles hs
  | commitTerminal token =>
      cases hissued : s.issued[token]? with
      | none =>
          have hsame : s.settle (.commitTerminal token) = s := by
            simp only [RegistryState.settle, hissued]
          rw [hsame]
          exact ⟨hs, .kept rfl rfl rfl⟩
      | some staged =>
          have hsettle : s.settle (.commitTerminal token) = s.commitTerminal staged := by
            simp only [RegistryState.settle, hissued]
          rw [hsettle]
          rcases s.commitTerminal_cases staged with hsame | hcommits
          · rw [hsame]
            exact ⟨hs, .kept rfl rfl rfl⟩
          · exact hcommits.settles (hs.issued token staged hissued).2 hs
  | abortTerminal token =>
      show (s.abortTerminal token).Settled ∧ SettleStep s (s.abortTerminal token)
      unfold abortTerminal
      split
      · exact ⟨⟨hs.issued, hs.types⟩, .kept rfl rfl rfl⟩
      · exact ⟨hs, .kept rfl rfl rfl⟩
  | cancel stamp reason =>
      show (s.cancel stamp reason).Settled ∧ SettleStep s (s.cancel stamp reason)
      unfold cancel
      split
      · exact ⟨hs, .kept rfl rfl rfl⟩
      · exact settles_finish hs
  | complete stamp snapshot => exact settles_complete hs
  | fail stamp code message => exact settles_fail hs h
  | interrupt stamp reason =>
      show (s.interrupt stamp reason).Settled ∧ SettleStep s (s.interrupt stamp reason)
      unfold interrupt
      split
      · exact ⟨hs, .kept rfl rfl rfl⟩
      · next hrunning => exact settles_once hs (not_not.mp hrunning) rfl

/-! ## Whole runs -/

/-- A call that changes the status or the error of a run that has left `running`. -/
def Resettles (s : RegistryState) (_ : SettleCall) (t : RegistryState) : Prop :=
  s.record.status ≠ .running ∧
    (t.record.status ≠ s.record.status ∨ t.record.error ≠ s.record.error)

/-- A settled run has one terminal event, that of its status. -/
def Matched (s : RegistryState) : Prop :=
  s.record.status ≠ .running → ∃ type, s.record.status.terminalType = some type ∧
    s.terminalTypes = [type]

theorem Settled.matched (hs : s.Settled) : s.Matched := by
  intro hsettled
  obtain ⟨type, htype⟩ := Option.ne_none_iff_exists'.mp (mt terminalType_eq_none.mp hsettled)
  exact ⟨type, htype, by rw [hs.types, htype]; rfl⟩

theorem FailsSettled.resettles (h : s.FailsSettled call) :
    s.Resettles call (s.settle call) := by
  cases call with
  | fail stamp code message =>
      have hnot : s.record.status ≠ .cancelled := by
        rcases h with hin | ⟨hfailed, _⟩
        · intro hcancelled
          rw [hcancelled] at hin
          revert hin
          decide
        · rw [hfailed]
          exact nofun
      have hafter : (s.settle (.fail stamp code message)).record.status = .failed ∧
          (s.settle (.fail stamp code message)).record.error = some { code, message } := by
        show (s.fail stamp code message).record.status = _ ∧
          (s.fail stamp code message).record.error = _
        unfold fail
        rw [if_neg hnot]
        rcases appendEventOnce_cases
            { s with
              record :=
                { s.record with
                  status := .failed
                  current := { stage := .intervention, activeNodeCode := "N18" }
                  error := some { code, message } } }
            stamp "run.failed" [("code", .str code)] with ⟨_, hsame⟩ | ⟨_, hlogs⟩
        · rw [hsame]
          exact ⟨rfl, rfl⟩
        · exact ⟨hlogs.status, hlogs.error⟩
      rcases h with hin | ⟨hfailed, herror⟩
      · refine ⟨fun hrunning => ?_, .inl fun hsame => ?_⟩
        · rw [hrunning] at hin
          revert hin
          decide
        · rw [← hsame, hafter.1] at hin
          revert hin
          decide
      · refine ⟨hfailed ▸ nofun, .inr fun hsame => herror ?_⟩
        rw [← hsame, hafter.2]
  | stageTerminal | commitTerminal | abortTerminal | cancel | complete | interrupt => exact h.elim

/-- A run is settled once if and only if no `fail` comes to a run that has completed, was
interrupted, or has failed with another error. -/
theorem settled_once_iff (runId taskId : String) (calls : List SettleCall) :
    (¬ Runs.Happened settle (create runId taskId) calls Resettles ∧
        ∀ seen, seen <+: calls → (seen.foldl settle (create runId taskId)).Matched) ↔
      ¬ Runs.Happened settle (create runId taskId) calls fun s call _ => s.FailsSettled call := by
  have hstep (s : RegistryState) (call : SettleCall) (hs : s.Settled)
      (h : ¬ s.FailsSettled call) : (s.settle call).Settled := (hs.settle h).1
  constructor
  · rintro ⟨hkept, _⟩ ⟨pre, call, post, rfl, hfails⟩
    exact hkept ⟨pre, call, post, rfl, hfails.resettles⟩
  · intro h
    refine ⟨Runs.not_happened hstep (fun s call hs hgood hresettles => ?_) settled_create h,
      fun seen hseen => ?_⟩
    · obtain ⟨hstatus, herror⟩ := (hs.settle hgood).2.settled hresettles.1
      rcases hresettles.2 with hne | hne
      · exact hne hstatus
      · exact hne herror
    · obtain ⟨rest, rfl⟩ := hseen
      have hnever : ¬ Runs.Happened settle (create runId taskId) seen
          fun s call _ => s.FailsSettled call := fun hfails => h (hfails.append rest)
      exact (Runs.invariant_of_not_happened hstep settled_create hnever).matched

/-- A run that has completed is failed, and then has both events. -/
theorem failed_after_completion :
    Runs.Happened settle (create "run" "task")
      [.complete ⟨"e1", "t1"⟩ (some "snapshot"), .fail ⟨"e2", "t2"⟩ "terminal_failed" "late"]
      Resettles :=
  ⟨[.complete ⟨"e1", "t1"⟩ (some "snapshot")], _, [], rfl, by decide, .inl (by decide)⟩

end RegistryState

end Newide.App
