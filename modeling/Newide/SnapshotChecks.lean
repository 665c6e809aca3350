import Newide.TaskSnapshot

/-!
# What a readable Task satisfies, and what makes one readable

Every operation ends by projecting the Task it acted on.  The projection
parses what it shows, so an operation that returned has shown that its
Task's rows pass those checks; and a Task whose rows pass them is always
shown, whatever its Runs did.
-/

namespace Newide

open Fallible TaskRunFact

variable {run : PersistedRunState} {snapshot : TaskSnapshot} {additions : List String}
  {events new : List PersistedCoordinationEvent} {x : String}

theorem projectAggregate_runId_ne {aggregate : PersistedTaskAggregate}
    (h : projectAggregate aggregate = .ok snapshot) (hrun : run ∈ aggregate.runs)
    (hsnap : run.snapshot = none) : run.runId ≠ "" := by
  simp only [projectAggregate, bind_eq_ok] at h
  obtain ⟨facts, hfacts, _⟩ := h
  obtain ⟨fact, _, hfact⟩ := mapM_mem_ok hfacts hrun
  simp only [toRunFact, hsnap, bind_eq_ok, projectPersistedRunSnapshot, checkRunSnapshot,
    ensure_eq_ok] at hfact
  obtain ⟨_, ⟨_, ⟨_, hne, _⟩, _⟩, _⟩ := hfact
  exact hne

/-! ## Readable rows -/

def runQuality (events : List PersistedCoordinationEvent) : Option Json :=
  asRunOutcome
    ((lastEvent events "completion.evaluated").bind fun event => event.payload.get? "outcome")

/-- What the snapshot schema asks of a Run's rows. -/
structure RunReadable (aggregate : PersistedTaskAggregate) (run : PersistedRunState) : Prop where
  named : run.runId ≠ ""
  times : run.completedAt ≠ some "" ∧ run.startedAt ≠ some ""
  code : run.error.map (·.code) ≠ some ""
  stored : ∀ s ∈ run.snapshot, (s.errors.head?.map (·.code)) ≠ some "" ∧
    ∀ output ∈ s.finalOutput, ∀ ref ∈ output.artifactRefs, ref ≠ ""
  message : run.snapshot = none → run.error.map (·.message) ≠ some ""
  quality : run.snapshot = none →
    ∀ outcome ∈ runQuality (aggregate.runEvents run.runId), isRunOutcome outcome = true
  timeline : run.snapshot = none → ∀ event ∈ aggregate.runEvents run.runId, TimelineEvent event
  refs : run.snapshot = none →
    ∀ ref ∈ (projectRunFinalOutput (aggregate.runEvents run.runId)).artifactRefs, ref ≠ ""

instance (aggregate : PersistedTaskAggregate) (run : PersistedRunState) :
    Decidable (RunReadable aggregate run) :=
  decidable_of_iff
    (run.runId ≠ "" ∧ (run.completedAt ≠ some "" ∧ run.startedAt ≠ some "") ∧
      run.error.map (·.code) ≠ some "" ∧
      (∀ s ∈ run.snapshot, (s.errors.head?.map (·.code)) ≠ some "" ∧
        ∀ output ∈ s.finalOutput, ∀ ref ∈ output.artifactRefs, ref ≠ "") ∧
      (run.snapshot.isNone = true → run.error.map (·.message) ≠ some "" ∧
        (∀ outcome ∈ runQuality (aggregate.runEvents run.runId), isRunOutcome outcome = true) ∧
        (∀ event ∈ aggregate.runEvents run.runId, TimelineEvent event) ∧
        ∀ ref ∈ (projectRunFinalOutput (aggregate.runEvents run.runId)).artifactRefs, ref ≠ ""))
    ⟨fun ⟨h1, h2, h3, h4, h5⟩ => ⟨h1, h2, h3, h4,
        fun hs => (h5 (by rw [hs]; rfl)).1, fun hs => (h5 (by rw [hs]; rfl)).2.1,
        fun hs => (h5 (by rw [hs]; rfl)).2.2.1, fun hs => (h5 (by rw [hs]; rfl)).2.2.2⟩,
      fun h => ⟨h.named, h.times, h.code, h.stored, fun hs =>
        have hs := Option.isNone_iff_eq_none.mp hs
        ⟨h.message hs, h.quality hs, h.timeline hs, h.refs hs⟩⟩⟩

/-- What the snapshot schema asks of a Task's rows, `updated_at` apart. -/
structure Readable (aggregate : PersistedTaskAggregate) : Prop where
  task_id : aggregate.task.taskId ≠ ""
  spec : aggregate.task.spec ≠ ""
  criteria : ∀ criterion ∈ aggregate.task.completionCriteria, criterion ≠ ""
  budget : ∀ budget ∈ aggregate.task.budget, BudgetOk budget
  created_at : aggregate.task.createdAt ≠ ""
  error : aggregate.task.error.map (·.code) ≠ some ""
  runs : ∀ run ∈ aggregate.runs, RunReadable aggregate run

instance (aggregate : PersistedTaskAggregate) : Decidable (Readable aggregate) :=
  decidable_of_iff
    (aggregate.task.taskId ≠ "" ∧ aggregate.task.spec ≠ "" ∧
      (∀ criterion ∈ aggregate.task.completionCriteria, criterion ≠ "") ∧
      (∀ budget ∈ aggregate.task.budget, BudgetOk budget) ∧ aggregate.task.createdAt ≠ "" ∧
      aggregate.task.error.map (·.code) ≠ some "" ∧
      ∀ run ∈ aggregate.runs, RunReadable aggregate run)
    ⟨fun ⟨h1, h2, h3, h4, h5, h6, h7⟩ => ⟨h1, h2, h3, h4, h5, h6, h7⟩,
      fun h => ⟨h.task_id, h.spec, h.criteria, h.budget, h.created_at, h.error, h.runs⟩⟩

/-! ## The parts of the projection -/

/-- `taskSnapshotSchema.parse` returns what it was given, if it passes these checks. -/
structure SnapshotValid (snapshot : TaskSnapshot) : Prop where
  task_id : snapshot.taskId ≠ ""
  spec : snapshot.spec ≠ ""
  criteria : ∀ criterion ∈ snapshot.completionCriteria, criterion ≠ ""
  budget : ∀ budget ∈ snapshot.budget, BudgetOk budget
  created_at : snapshot.createdAt ≠ ""
  updated_at : snapshot.updatedAt ≠ ""
  runs : ∀ run ∈ snapshot.runHistory ++ snapshot.currentRun.toList,
    run.runId ≠ "" ∧ (run.error.map (·.code)) ≠ some ""
  error : (snapshot.error.map (·.code)) ≠ some ""
  output : ∀ output ∈ snapshot.finalOutput, (∀ ref ∈ output.artifactRefs, ref ≠ "") ∧
    ∀ sha256 ∈ output.sha256, isSha256 sha256 = true
  waiting : isWaitingStatus snapshot.status = true → snapshot.waitingReason.isSome = true
  warnings : ∀ result ∈ snapshot.councilResult, ∀ warning ∈ result.warnings,
    warning ∈ snapshot.warnings
  council : ∀ result ∈ snapshot.councilResult, ∀ output ∈ snapshot.finalOutput,
    result.finalArtifactRef ∈ output.artifactRefs

theorem parseTaskSnapshot_eq_ok {parsed : TaskSnapshot} :
    parseTaskSnapshot snapshot = .ok parsed ↔ SnapshotValid snapshot ∧ snapshot = parsed := by
  simp only [parseTaskSnapshot, bind_eq_ok, ensure_eq_ok, pure_eq_ok, exists_and_left,
    exists_const]
  constructor
  · rintro ⟨h1, h2, h3, h4, h5, h6, h7, h8, h9, h10, h11, h12, h13⟩
    exact ⟨⟨h1, h2, h3, h4, h5, h6, h7, h8, h9, h10, h11, h12⟩, h13⟩
  · rintro ⟨⟨h1, h2, h3, h4, h5, h6, h7, h8, h9, h10, h11, h12⟩, h13⟩
    exact ⟨h1, h2, h3, h4, h5, h6, h7, h8, h9, h10, h11, h12, h13⟩

/-- The fact `toRunFact` makes of a Run. -/
def runFact (aggregate : PersistedTaskAggregate) (run : PersistedRunState) : TaskRunFact where
  run
  snapshot := run.snapshot.getD (shownRunSnapshot aggregate run)

structure FactReadable (fact : TaskRunFact) : Prop where
  named : fact.run.runId ≠ ""
  time : fact.timestamp ≠ some ""
  code : fact.run.error.map (·.code) ≠ some ""
  error : (fact.snapshot.errors.head?.map (·.code)) ≠ some ""
  refs : ∀ output ∈ fact.snapshot.finalOutput, ∀ ref ∈ output.artifactRefs, ref ≠ ""

section
variable {aggregate : PersistedTaskAggregate}

theorem toRunFact_eq (h : Readable aggregate) (hupdated : aggregate.task.updatedAt ≠ "")
    (hrun : run ∈ aggregate.runs) (htask : run.taskId = aggregate.task.taskId) :
    toRunFact aggregate run = .ok (runFact aggregate run) := by
  have hr := h.runs run hrun
  unfold toRunFact runFact
  cases hs : run.snapshot with
  | some snapshot => rfl
  | none =>
      simp only [bind_eq_ok, pure_eq_ok, projectPersistedRunSnapshot, checkRunSnapshot,
        ensure_eq_ok, exists_and_left, exists_const, Option.getD_none]
      exact ⟨_, ⟨⟨hr.named, htask ▸ h.task_id, hr.quality hs, h.spec, h.criteria, h.created_at,
        hupdated, hr.timeline hs, hr.code, hr.message hs⟩, rfl⟩, rfl⟩

theorem runFact_readable (hr : RunReadable aggregate run) :
    FactReadable (runFact aggregate run) := by
  have htime : (runFact aggregate run).timestamp ≠ some "" := by
    simp only [runFact, timestamp, Option.orElse_eq_orElse, Option.orElse_eq_or]
    intro he
    rcases Option.or_eq_some_iff.mp he with hc | ⟨_, hs⟩
    · exact hr.times.1 hc
    · exact hr.times.2 hs
  cases hs : run.snapshot with
  | some snapshot =>
      have hstored := hr.stored snapshot hs
      exact ⟨hr.named, htime, hr.code, by simpa [runFact, hs] using hstored.1,
        by simpa [runFact, hs] using hstored.2⟩
  | none =>
      refine ⟨hr.named, htime, hr.code, ?_, ?_⟩
      · have hhead : (shownRunSnapshot aggregate run).errors.head? = run.error := by
          unfold shownRunSnapshot
          cases run.error <;> rfl
        simpa [runFact, hs, hhead] using hr.code
      · intro output houtput
        simp only [runFact, hs, Option.getD_none, shownRunSnapshot, Option.mem_def] at houtput
        split at houtput
        · cases houtput
          exact hr.refs hs
        · cases houtput

theorem nonEmptyString?_ne {value : Json} {text : String}
    (h : value.nonEmptyString? = some text) : text ≠ "" := by
  cases value with
  | str s =>
      simp only [Json.nonEmptyString?] at h
      split at h
      · cases h
      · next hne => exact Option.some.inj h ▸ hne
  | null | bool | num | arr | obj => cases h

theorem parseCouncilResult_evidence {value : Option Json} {result : CouncilResultEvidence}
    (h : parseCouncilResult value = some result) :
    result.finalArtifactRef ≠ "" ∧ isSha256 result.finalArtifactSha256 = true := by
  simp only [parseCouncilResult, Option.bind_eq_bind, Option.bind_eq_some_iff] at h
  obtain ⟨json, _, ref, href, sha, _, warnings, _, h⟩ := h
  obtain ⟨refJson, _, href⟩ := href
  split at h
  · next haccepted =>
      cases h
      exact ⟨nonEmptyString?_ne href, haccepted.2.1⟩
  · cases h

theorem projectFinalOutput_valid {evidence : Option RunSnapshot}
    {councilResult : Option CouncilResultEvidence} {output : TaskFinalOutput}
    (hrefs : ∀ s ∈ evidence, ∀ o ∈ s.finalOutput, ∀ ref ∈ o.artifactRefs, ref ≠ "")
    (hcouncil : ∀ result ∈ councilResult,
      result.finalArtifactRef ≠ "" ∧ isSha256 result.finalArtifactSha256 = true)
    (h : projectFinalOutput evidence councilResult = some output) :
    ((∀ ref ∈ output.artifactRefs, ref ≠ "") ∧ ∀ sha256 ∈ output.sha256, isSha256 sha256 = true) ∧
      ∀ result ∈ councilResult, result.finalArtifactRef ∈ output.artifactRefs := by
  obtain ⟨raw, hraw, rfl⟩ := Option.map_eq_some_iff.mp h
  obtain ⟨s, hs, hraw⟩ := Option.bind_eq_some_iff.mp hraw
  refine ⟨⟨fun ref href => ?_, fun sha256 hsha => ?_⟩, fun result hresult => ?_⟩
  · rcases List.mem_append.mp href with href | href
    · exact hrefs s hs raw hraw ref href
    · obtain ⟨href, _⟩ := Option.filter_eq_some_iff.mp (Option.mem_toList.mp href)
      obtain ⟨result, hresult, rfl⟩ := Option.map_eq_some_iff.mp href
      exact (hcouncil result hresult).1
  · obtain ⟨result, hresult, rfl⟩ := Option.map_eq_some_iff.mp hsha
    exact (hcouncil result hresult).2
  · rw [List.mem_append]
    by_cases hin : result.finalArtifactRef ∈ raw.artifactRefs
    · exact .inl hin
    · right
      rw [Option.mem_def.mp hresult]
      simp [Option.filter, hin]

/-! ## Projecting readable rows -/

theorem projectedSnapshot_valid {runs : List TaskRunFact} (h : Readable aggregate)
    (hfacts : ∀ fact ∈ runs, FactReadable fact) :
    SnapshotValid (projectedSnapshot aggregate runs) := by
  set current := runs.find? fun fact => fact.status = .running with hcurrent
  set latest := current <|> runs.head? with hlatest
  have hcur : ∀ fact ∈ current, FactReadable fact := fun fact hf =>
    hfacts fact (List.mem_of_find?_eq_some hf)
  have hlat : ∀ fact ∈ latest, FactReadable fact := by
    intro fact hf
    simp only [hlatest, Option.orElse_eq_orElse, Option.orElse_eq_or, Option.mem_def,
      Option.or_eq_some_iff] at hf
    rcases hf with hf | ⟨_, hf⟩
    · exact hcur fact hf
    · exact hfacts fact (List.mem_of_head? hf)
  have hcouncil : ∀ result ∈ parseCouncilResult ((latest.map (·.snapshot)).bind (·.councilResult)),
      result.finalArtifactRef ≠ "" ∧ isSha256 result.finalArtifactSha256 = true :=
    fun result hresult => parseCouncilResult_evidence hresult
  have hrefs : ∀ s ∈ latest.map (·.snapshot), ∀ o ∈ s.finalOutput, ∀ ref ∈ o.artifactRefs,
      ref ≠ "" := by
    intro s hs
    obtain ⟨fact, hf, rfl⟩ := Option.map_eq_some_iff.mp hs
    exact (hlat fact hf).refs
  refine ⟨h.task_id, h.spec, h.criteria, h.budget, h.created_at, ?_, ?_, ?_, ?_, ?_, ?_, ?_⟩
  · show (latest.bind (·.timestamp)).getD aggregate.task.createdAt ≠ ""
    cases ht : latest.bind (·.timestamp) with
    | none => exact h.created_at
    | some time =>
        obtain ⟨fact, hf, htime⟩ := Option.bind_eq_some_iff.mp ht
        exact fun he => (hlat fact hf).time (htime.trans (congrArg some he))
  · intro summary hs
    have hfact : ∃ fact, FactReadable fact ∧ fact.toRunSummary = summary := by
      rcases List.mem_append.mp hs with hs | hs
      · obtain ⟨fact, hf, rfl⟩ := List.mem_map.mp hs
        exact ⟨fact, hfacts fact (List.mem_filter.mp hf).1, rfl⟩
      · obtain ⟨fact, hf, rfl⟩ := Option.map_eq_some_iff.mp (Option.mem_toList.mp hs)
        exact ⟨fact, hcur fact hf, rfl⟩
    obtain ⟨fact, hf, rfl⟩ := hfact
    exact ⟨hf.named, hf.code⟩
  · show (((latest.bind (·.run.error)) <|>
      ((latest.map (·.snapshot)).bind (·.errors.head?))).map (·.code)) ≠ some ""
    intro he
    obtain ⟨error, herror, hcode⟩ := Option.map_eq_some_iff.mp he
    simp only [Option.orElse_eq_orElse, Option.orElse_eq_or, Option.or_eq_some_iff] at herror
    rcases herror with herror | ⟨_, herror⟩
    · obtain ⟨fact, hf, herror⟩ := Option.bind_eq_some_iff.mp herror
      exact (hlat fact hf).code (by rw [herror, Option.map_some, hcode])
    · obtain ⟨s, hs, herror⟩ := Option.bind_eq_some_iff.mp herror
      obtain ⟨fact, hf, rfl⟩ := Option.map_eq_some_iff.mp hs
      exact (hlat fact hf).error (by rw [herror, Option.map_some, hcode])
  · exact fun output ho => (projectFinalOutput_valid hrefs hcouncil ho).1
  · intro hwaiting
    have hblocked : (projectedSnapshot aggregate runs).status = .blocked := by
      revert hwaiting
      show isWaitingStatus (projectTaskStatus (latest.map (·.status))) = true →
        projectTaskStatus (latest.map (·.status)) = .blocked
      cases latest.map (·.status) with
      | none => decide
      | some status => cases status <;> decide
    show (if (projectedSnapshot aggregate runs).status = .blocked then _ else none).isSome = true
    rw [if_pos hblocked]
    rfl
  · intro result hresult warning hwarning
    show warning ∈ (parseCouncilResult _).elim [] (·.warnings)
    rw [show parseCouncilResult _ = some result from hresult]
    exact hwarning
  · exact fun result hresult output ho =>
      (projectFinalOutput_valid hrefs hcouncil ho).2 result hresult

theorem foldl_unique {seen : List String} :
    x ∈ additions.foldl (fun seen x => if x ∈ seen then seen else seen ++ [x]) seen ↔
      x ∈ seen ∨ x ∈ additions := by
  induction additions generalizing seen with
  | nil => simp
  | cons a rest ih =>
      rw [List.foldl_cons, ih]
      split
      · next hin =>
          simp only [List.mem_cons]
          constructor
          · tauto
          · rintro (h | rfl | h)
            · exact .inl h
            · exact .inl hin
            · exact .inr h
      · simp only [List.mem_append, List.mem_cons, List.not_mem_nil, or_false]
        tauto

theorem mem_appendUnique {current : List String} :
    x ∈ appendUnique current additions ↔ x ∈ current ∨ x ∈ additions := by
  simp [appendUnique, foldl_unique]

theorem shownSnapshot_valid {projected : TaskSnapshot} (h : Readable aggregate)
    (hupdated : aggregate.task.updatedAt ≠ "") (hout : aggregate.task.finalOutput = none)
    (hp : SnapshotValid projected) : SnapshotValid (shownSnapshot aggregate projected) := by
  have hfinal : (shownSnapshot aggregate projected).finalOutput = projected.finalOutput := by
    simp [shownSnapshot, hout]
  refine ⟨hp.task_id, hp.spec, hp.criteria, hp.budget, hp.created_at, hupdated, hp.runs, ?_, ?_,
    ?_, ?_, ?_⟩
  · show ((aggregate.task.error <|> projected.error).map (·.code)) ≠ some ""
    cases herror : aggregate.task.error with
    | none => simpa using hp.error
    | some error => simpa [herror] using h.error
  · rw [hfinal]
    exact hp.output
  · intro hwaiting
    have hstatus : isWaitingStatus aggregate.task.status = true := hwaiting
    simp [shownSnapshot, readWaitingReason, hstatus]
  · exact fun result hresult warning hwarning =>
      mem_appendUnique.mpr (.inl (hp.warnings result hresult warning hwarning))
  · rw [hfinal]
    exact hp.council

theorem projectAggregate_ok (h : Readable aggregate) (hupdated : aggregate.task.updatedAt ≠ "")
    (hout : aggregate.task.finalOutput = none)
    (htask : ∀ run ∈ aggregate.runs, run.taskId = aggregate.task.taskId)
    (hdistinct : (aggregate.runs.map (·.runId)).Nodup)
    (hone : (aggregate.runs.filter isActiveRun).length ≤ 1) :
    ∃ snapshot, projectAggregate aggregate = .ok snapshot := by
  have hfacts : aggregate.runs.mapM (toRunFact aggregate) =
      .ok (aggregate.runs.map (runFact aggregate)) :=
    mapM_eq_map fun run hrun => toRunFact_eq h hupdated hrun (htask run hrun)
  have hassert : assertRunFacts aggregate.task.taskId (aggregate.runs.map (runFact aggregate)) =
      .ok () := by
    simp only [assertRunFacts, bind_eq_ok, ensure_eq_ok, exists_and_left, exists_const]
    refine ⟨?_, ?_, ?_⟩
    · intro fact hf
      obtain ⟨run, hrun, rfl⟩ := List.mem_map.mp hf
      exact htask run hrun
    · rw [List.map_map]
      exact hdistinct
    · rw [List.filter_map, List.length_map]
      refine le_of_eq_of_le (congrArg List.length (List.filter_congr fun run _ => ?_)) hone
      cases hs : run.status <;> simp [runFact, status, isActiveRun, hs]
  have hvalid : SnapshotValid (projectedSnapshot aggregate
      ((aggregate.runs.map (runFact aggregate)).insertionSort before)) := by
    refine projectedSnapshot_valid h fun fact hf => ?_
    obtain ⟨run, hrun, rfl⟩ := List.mem_map.mp ((List.mem_insertionSort _).mp hf)
    exact runFact_readable (h.runs run hrun)
  have hshown := parseTaskSnapshot_eq_ok.mpr
    ⟨shownSnapshot_valid h hupdated hout hvalid, rfl⟩
  refine ⟨_, bind_eq_ok.mpr ⟨_, hfacts, bind_eq_ok.mpr ⟨_, ?_, hshown⟩⟩⟩
  exact bind_eq_ok.mpr ⟨(), hassert, parseTaskSnapshot_eq_ok.mpr ⟨hvalid, rfl⟩⟩

/-! ## More events -/

def evidenceTypes : List String :=
  ["completion.evaluated", "artifact.delivered", "council.completed",
    "agent.execution_completed"]

theorem lastEvent_append {eventType : String} (h : ∀ event ∈ new, event.eventType ≠ eventType) :
    lastEvent (events ++ new) eventType = lastEvent events eventType := by
  have hnone : new.reverse.find? (fun event => event.eventType = eventType) = none :=
    List.find?_eq_none.mpr fun event he => by simpa using h event (List.mem_reverse.mp he)
  rw [lastEvent, List.reverse_append, List.find?_append, hnone, Option.none_or]
  rfl

theorem projectRunFinalOutput_congr {events' : List PersistedCoordinationEvent}
    (h : ∀ eventType ∈ evidenceTypes, lastEvent events eventType = lastEvent events' eventType) :
    projectRunFinalOutput events = projectRunFinalOutput events' := by
  have hdelivered := h "artifact.delivered" (by decide)
  have hcouncil := h "council.completed" (by decide)
  have hagent := h "agent.execution_completed" (by decide)
  simp only [projectRunFinalOutput, hdelivered, hcouncil, hagent]

theorem RunReadable.extend {after : PersistedTaskAggregate} {run' : PersistedRunState}
    (h : RunReadable aggregate run) (hid : run'.runId = run.runId) (herror : run'.error = run.error)
    (hsnap : run'.snapshot = run.snapshot)
    (htimes : run'.completedAt ≠ some "" ∧ run'.startedAt ≠ some "")
    (hevents : after.runEvents run.runId = aggregate.runEvents run.runId ++ new)
    (hnew : ∀ event ∈ new, TimelineEvent event ∧ event.eventType ∉ evidenceTypes) :
    RunReadable after run' := by
  have hlast : ∀ eventType ∈ evidenceTypes, lastEvent (after.runEvents run.runId) eventType =
      lastEvent (aggregate.runEvents run.runId) eventType := by
    intro eventType htype
    rw [hevents]
    exact lastEvent_append fun event he heq => (hnew event he).2 (heq ▸ htype)
  refine ⟨hid ▸ h.named, htimes, herror ▸ h.code, hsnap ▸ h.stored, ?_, ?_, ?_, ?_⟩
  · intro hs
    exact herror ▸ h.message (hsnap ▸ hs)
  · intro hs
    rw [hid, runQuality, hlast _ (by decide)]
    exact h.quality (hsnap ▸ hs)
  · intro hs event he
    rw [hid, hevents, List.mem_append] at he
    rcases he with he | he
    · exact h.timeline (hsnap ▸ hs) event he
    · exact (hnew event he).1
  · intro hs
    rw [hid, projectRunFinalOutput_congr hlast]
    exact h.refs (hsnap ▸ hs)

end

end Newide
