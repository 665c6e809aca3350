import Newide.Foundation.Runs
import Newide.Driver.RoutingService

/-!
# Routing updates of several processes

Any number of backend processes share the file of the UI's routing.  A
critical section is one step, since the lock of the directory excludes the
others; the answer of a call is built after the lock is released, and the
configuration is read from disk again for it.
-/

namespace Newide.Driver

open Record Runs RoutingSetup

variable {setup : RoutingSetup}

/-! ## How a critical section ends -/

/-- The call has thrown: the file is untouched, and memory holds what is on disk. -/
structure SectionEnd.Refuses (setup : RoutingSetup) (ui : Option UiFile) (memory : DriverConfig)
    (e : SectionEnd) : Prop where
  file : e.ui = ui
  memory : ∀ diskConfig, setup.loadConfig (ui.map UiFile.layer) = .ok diskConfig →
    e.memory = diskConfig

/-- The call has succeeded: the expected revision was in force, and `next` has been read back. -/
structure SectionEnd.Installs (setup : RoutingSetup) (expected : String) (ui next : Option UiFile)
    (e : SectionEnd) : Prop where
  expected : ∃ diskConfig, setup.loadConfig (ui.map UiFile.layer) = .ok diskConfig ∧
    expected = setup.revisionOf diskConfig
  file : e.ui = next
  memory : setup.loadConfig (next.map UiFile.layer) = .ok e.memory

def FileFaults.Restores (faults : FileFaults) : Prop := faults.restore = false

variable {layer : Option DriverConfigLayer} {other : Nat}

namespace RoutingSetup

variable {ui next : Option UiFile} {memory diskConfig : DriverConfig} {faults : FileFaults}
  {drivers : DriverProjection} {input : UpdateDriverRoutingInput} {expected : String}
  {document : UiDriverRoutingDocument}

theorem assertRevision_eq_ok :
    setup.assertRevision expected diskConfig = .ok () ↔ expected = setup.revisionOf diskConfig := by
  unfold assertRevision
  split
  · rename_i h
    exact ⟨fun _ => h, fun _ => rfl⟩
  · rename_i h
    exact ⟨fun he => (by cases he), fun he => absurd he h⟩

theorem checkUpdate_eq_ok (h : setup.checkUpdate drivers diskConfig input = .ok document) :
    input.expectedRevision = setup.revisionOf diskConfig ∧
      setup.assertUnlocked input.defaultDriver = .ok () ∧
      document = normalizeUiDriverRoutingDocument input.defaultDriver input.roles := by
  unfold checkUpdate at h
  cases hrevision : setup.assertRevision input.expectedRevision diskConfig with
  | error e =>
      rw [hrevision] at h
      cases h
  | ok _ =>
      rw [hrevision] at h
      cases hlocked : setup.assertUnlocked input.defaultDriver with
      | error e =>
          rw [hlocked] at h
          cases h
      | ok _ =>
          rw [hlocked] at h
          refine ⟨assertRevision_eq_ok.mp hrevision, rfl, ?_⟩
          simp only [bind, Except.bind, pure, Except.pure] at h
          split at h
          · cases h
          · split at h
            · cases h
            · split at h
              · cases h
              · exact (Except.ok.inj h).symm

variable {error : DriverRoutingError} {config : DriverConfig}

theorem install_refuses (hrestore : faults.Restores)
    (hdisk : setup.loadConfig (ui.map UiFile.layer) = .ok diskConfig)
    (h : (setup.install ui next diskConfig faults).error = some error) :
    (setup.install ui next diskConfig faults).Refuses setup ui memory := by
  have hmemory : ∀ config, setup.loadConfig (ui.map UiFile.layer) = .ok config →
      diskConfig = config := fun config hconfig => Except.ok.inj (hdisk.symm.trans hconfig)
  unfold install at h ⊢
  split
  · exact ⟨rfl, hmemory⟩
  · rename_i hwrite
    rw [if_neg hwrite] at h
    split
    · rename_i config hload
      rw [hload] at h
      cases h
    · refine ⟨?_, hmemory⟩
      rw [show faults.restore = false from hrestore]
      rfl

theorem install_installs (hdisk : setup.loadConfig (ui.map UiFile.layer) = .ok diskConfig)
    (hexpected : expected = setup.revisionOf diskConfig)
    (h : (setup.install ui next diskConfig faults).error = none) :
    (setup.install ui next diskConfig faults).Installs setup expected ui next := by
  unfold install at h ⊢
  split
  · rename_i hwrite
    rw [if_pos hwrite] at h
    cases h
  · rename_i hwrite
    rw [if_neg hwrite] at h
    split
    · rename_i config hload
      refine ⟨⟨diskConfig, hdisk, hexpected⟩, rfl, ?_⟩
      split at hload
      · cases hload
      · exact hload
    · rename_i errors hload
      rw [hload] at h
      cases h

theorem updateSection_refuses (hrestore : faults.Restores)
    (h : (setup.updateSection drivers input faults ui memory).error = some error) :
    (setup.updateSection drivers input faults ui memory).Refuses setup ui memory := by
  unfold updateSection at h ⊢
  cases hdisk : setup.loadConfig (ui.map UiFile.layer) with
  | error errors => exact ⟨rfl, fun config hconfig => by rw [hdisk] at hconfig; cases hconfig⟩
  | ok diskConfig =>
      rw [hdisk] at h
      dsimp only at h ⊢
      cases hcheck : setup.checkUpdate drivers diskConfig input with
      | error e => exact ⟨rfl, fun config hconfig => Except.ok.inj (hdisk.symm.trans hconfig)⟩
      | ok document =>
          rw [hcheck] at h
          exact install_refuses hrestore hdisk h

theorem updateSection_installs
    (h : (setup.updateSection drivers input faults ui memory).error = none) :
    (setup.updateSection drivers input faults ui memory).Installs setup input.expectedRevision ui
        (some (setup.uiFile
          (normalizeUiDriverRoutingDocument input.defaultDriver input.roles))) ∧
      setup.assertUnlocked input.defaultDriver = .ok () := by
  unfold updateSection at h ⊢
  cases hdisk : setup.loadConfig (ui.map UiFile.layer) with
  | error errors =>
      rw [hdisk] at h
      cases h
  | ok diskConfig =>
      rw [hdisk] at h
      dsimp only at h ⊢
      cases hcheck : setup.checkUpdate drivers diskConfig input with
      | error e =>
          rw [hcheck] at h
          cases h
      | ok document =>
          obtain ⟨hexpected, hunlocked, rfl⟩ := checkUpdate_eq_ok hcheck
          rw [hcheck] at h
          exact ⟨install_installs hdisk hexpected h, hunlocked⟩

theorem resetSection_refuses (hrestore : faults.Restores)
    (h : (setup.resetSection expected faults ui memory).error = some error) :
    (setup.resetSection expected faults ui memory).Refuses setup ui memory := by
  unfold resetSection at h ⊢
  cases hdisk : setup.loadConfig (ui.map UiFile.layer) with
  | error errors => exact ⟨rfl, fun config hconfig => by rw [hdisk] at hconfig; cases hconfig⟩
  | ok diskConfig =>
      rw [hdisk] at h
      dsimp only at h ⊢
      cases hcheck : setup.checkReset diskConfig expected with
      | error e => exact ⟨rfl, fun config hconfig => Except.ok.inj (hdisk.symm.trans hconfig)⟩
      | ok _ =>
          rw [hcheck] at h
          exact install_refuses hrestore hdisk h

theorem resetSection_installs (h : (setup.resetSection expected faults ui memory).error = none) :
    (setup.resetSection expected faults ui memory).Installs setup expected ui none := by
  unfold resetSection at h ⊢
  cases hdisk : setup.loadConfig (ui.map UiFile.layer) with
  | error errors =>
      rw [hdisk] at h
      cases h
  | ok diskConfig =>
      rw [hdisk] at h
      dsimp only at h ⊢
      cases hcheck : setup.checkReset diskConfig expected with
      | error e =>
          rw [hcheck] at h
          cases h
      | ok _ =>
          rw [hcheck] at h
          refine install_installs hdisk ?_ h
          unfold checkReset at hcheck
          cases hrevision : setup.assertRevision expected diskConfig with
          | error e =>
              rw [hrevision] at hcheck
              cases hcheck
          | ok _ => exact assertRevision_eq_ok.mp hrevision

/-! ## What an update puts in force -/

theorem loadConfig_eq_ok (h : setup.loadConfig layer = .ok config) :
    parseDriverConfigShape (synthesize setup.env (setup.files layer)) = .ok config :=
  (loadDriverConfig_eq_ok.mp h).1

/-- The configuration over a layer of the UI has its roles, and its default unless locked. -/
theorem load_document (hdistinct : Record.Distinct input.roles)
    (hunlocked : setup.assertUnlocked input.defaultDriver = .ok ()) (h : setup.loadConfig (some
      (normalizeUiDriverRoutingDocument input.defaultDriver input.roles).layer) = .ok config) :
    config.defaultDriver = input.defaultDriver ∧
      config.roles = (normalizeUiDriverRoutingDocument input.defaultDriver input.roles).roles := by
  obtain ⟨hdefault, _, _, hroles⟩ := parseDriverConfigShape_eq_ok.mp (loadConfig_eq_ok h)
  constructor
  · have henv : (synthesize setup.env (setup.files (some (normalizeUiDriverRoutingDocument
        input.defaultDriver input.roles).layer))).defaultDriver =
        setup.env.newideDriver.or (some input.defaultDriver) := rfl
    rw [henv] at hdefault
    unfold assertUnlocked at hunlocked
    cases hlocked : setup.env.newideDriver with
    | none =>
        rw [hlocked] at hdefault
        exact (Option.some.inj hdefault).symm
    | some locked =>
        rw [hlocked] at hdefault hunlocked
        dsimp only at hunlocked
        split at hunlocked
        · rename_i heq
          rw [heq]
          exact (Option.some.inj hdefault).symm
        · cases hunlocked
  · have hlayer : (synthesize setup.env (setup.files (some (normalizeUiDriverRoutingDocument
        input.defaultDriver input.roles).layer))).roles =
        ofEntries (normalizeUiDriverRoutingDocument input.defaultDriver input.roles).roles := rfl
    rw [hroles, hlayer, Distinct.ofEntries (normalize_distinct hdistinct)]

theorem resolve_loaded (h : setup.loadConfig layer = .ok config) (roleId : String) :
    ∃ profile, resolveRoleDriver config roleId =
      .ok ((get roleId config.roles).getD config.defaultDriver, profile) := by
  obtain ⟨hdefault, _, hdrivers, hroles⟩ := parseDriverConfigShape_eq_ok.mp (loadConfig_eq_ok h)
  have hresolves := (loadDriverConfig_eq_ok.mp h).2
  have hmem : (get roleId config.roles).getD config.defaultDriver ∈
      config.drivers.map Prod.fst := by
    rw [hdrivers]
    refine hresolves _ ?_
    unfold DriverConfigLayer.references
    rw [hdefault, ← hroles]
    cases hrole : get roleId config.roles with
    | none => simp
    | some driverId =>
        refine List.mem_append_right _ (List.mem_map.mpr ⟨(roleId, driverId), ?_, rfl⟩)
        exact get_eq_some_mem hrole
  obtain ⟨profile, hprofile⟩ := Option.isSome_iff_exists.mp (mem_keys_iff.mp hmem)
  refine ⟨profile, ?_⟩
  unfold resolveRoleDriver
  dsimp only
  rw [hprofile]

end RoutingSetup

/-! ## Several processes -/

/-- A backend process: its configuration, and whether a call of it has left the critical section
and not answered yet. -/
structure RoutingProcess where
  memory : DriverConfig
  answering : Bool := false

structure RoutingMachine where
  ui : Option UiFile
  process : Nat → Option RoutingProcess := fun _ => none

open RoutingMachine

inductive RoutingRequest where
  /-- `updateRouting`, with what the process knows of its drivers. -/
  | update (drivers : DriverProjection) (input : UpdateDriverRoutingInput)
  /-- `resetRouting` -/
  | reset (expected : String)

def RoutingRequest.expected : RoutingRequest → String
  | .update _ input => input.expectedRevision
  | .reset expected => expected

inductive RoutingLabel where
  /-- The process is started, or started again. -/
  | start (pid : Nat)
  /-- A call: the wait for the lock, and the critical section. -/
  | call (pid : Nat) (request : RoutingRequest) (locked : Bool) (faults : FileFaults)
  /-- The answer of a call that has succeeded. -/
  | answer (pid : Nat)
  /-- Another reader of the process aligns the configuration with the disk. -/
  | refresh (pid : Nat)

/-- In this step a file that was replaced but not read back is restored. -/
def RoutingLabel.Restores : RoutingLabel → Prop
  | .call _ _ _ faults => faults.Restores
  | _ => True

namespace RoutingMachine

def setProcess (m : RoutingMachine) (pid : Nat) (p : RoutingProcess) : RoutingMachine :=
  { m with process := fun other => if other = pid then some p else m.process other }

@[simp] theorem setProcess_ui (m : RoutingMachine) (pid : Nat) (p : RoutingProcess) :
    (m.setProcess pid p).ui = m.ui := rfl

@[simp] theorem setProcess_self (m : RoutingMachine) (pid : Nat) (p : RoutingProcess) :
    (m.setProcess pid p).process pid = some p := by
  simp [setProcess]

theorem setProcess_other (m : RoutingMachine) {pid : Nat} (p : RoutingProcess) (h : other ≠ pid) :
    (m.setProcess pid p).process other = m.process other := by
  simp [setProcess, h]

end RoutingMachine

namespace RoutingSetup

variable (setup : RoutingSetup)

def revisionOn (ui : Option UiFile) : Option String :=
  (setup.loadConfig (ui.map UiFile.layer)).toOption.map setup.revisionOf

/-- `refreshConfigFromDisk`: memory is replaced when the revision on disk is another one. -/
def refreshConfig (ui : Option UiFile) (memory : DriverConfig) : DriverConfig :=
  match setup.loadConfig (ui.map UiFile.layer) with
  | .ok diskConfig =>
      if setup.revisionOf diskConfig ≠ setup.revisionOf memory then diskConfig else memory
  | .error _ => memory

def sectionEnd (request : RoutingRequest) (locked : Bool) (faults : FileFaults)
    (ui : Option UiFile) (memory : DriverConfig) : SectionEnd :=
  if locked then
    match request with
    | .update drivers input => setup.updateSection drivers input faults ui memory
    | .reset expected => setup.resetSection expected faults ui memory
  else ⟨ui, memory, some (configBusy "DriverRoutingLockError")⟩

/-- How a call of a process ends; a process makes one at a time. -/
def callEnd (m : RoutingMachine) (pid : Nat) (request : RoutingRequest) (locked : Bool)
    (faults : FileFaults) : Option SectionEnd :=
  (m.process pid).bind fun p =>
    if p.answering then none
    else some (setup.sectionEnd request locked faults m.ui p.memory)

def next (m : RoutingMachine) : RoutingLabel → RoutingMachine
  | .start pid =>
      match setup.loadConfig (m.ui.map UiFile.layer) with
      | .ok config => m.setProcess pid { memory := config }
      | .error _ => m
  | .call pid request locked faults =>
      match setup.callEnd m pid request locked faults with
      | some e =>
          { m with ui := e.ui }.setProcess pid
            { memory := e.memory, answering := e.error.isNone }
      | none => m
  | .answer pid =>
      match m.process pid with
      | some p => m.setProcess pid { memory := setup.refreshConfig m.ui p.memory }
      | none => m
  | .refresh pid =>
      match m.process pid with
      | some p => m.setProcess pid { p with memory := setup.refreshConfig m.ui p.memory }
      | none => m

def answered (m : RoutingMachine) (pid : Nat) : Option String :=
  (m.process pid).bind fun p =>
    if p.answering then some (setup.revisionOf (setup.refreshConfig m.ui p.memory)) else none

end RoutingSetup

/-- A call that has succeeded: the revision it expected and the one it put in force. -/
structure RoutingSuccess where
  expected : String
  revision : String

namespace RoutingSetup

variable (setup : RoutingSetup)

def success (m : RoutingMachine) : RoutingLabel → Option RoutingSuccess
  | .call pid request locked faults =>
      (setup.callEnd m pid request locked faults).bind fun e =>
        if e.error.isNone then some ⟨request.expected, setup.revisionOf e.memory⟩ else none
  | _ => none

def successes (m : RoutingMachine) : List RoutingLabel → List RoutingSuccess
  | [] => []
  | label :: rest => (setup.success m label).toList ++ successes (setup.next m label) rest

end RoutingSetup

/-- Each call expected the revision in force immediately before it. -/
inductive Follows (first : Option String) : List RoutingSuccess → Option String → Prop where
  | nil : Follows first [] first
  | snoc {log : List RoutingSuccess} {c : RoutingSuccess} :
      Follows first log (some c.expected) → Follows first (log ++ [c]) (some c.revision)

theorem Follows.last {first last : Option String} {log : List RoutingSuccess}
    (h : Follows first log last) (hne : log ≠ []) :
    log.getLast?.map RoutingSuccess.revision = last := by
  cases h with
  | nil => exact absurd rfl hne
  | snoc _ => simp

/-- A call has thrown: the file is as it was, and memory is what is on disk unless the lock was
not obtained, which leaves memory as it was. -/
structure RoutingSetup.Threw (setup : RoutingSetup) (m m' : RoutingMachine) (pid : Nat)
    (error : DriverRoutingError) : Prop where
  file : m'.ui = m.ui
  memory : (error.code = .configBusy ∧ m'.process pid = m.process pid) ∨
    ∃ p, m'.process pid = some p ∧ setup.loadConfig (m'.ui.map UiFile.layer) = .ok p.memory

/-- An update has succeeded: its configuration is in force and in memory, every role resolves as
asked, and the revision is the one of the request. -/
structure RoutingSetup.Updated (setup : RoutingSetup) (m' : RoutingMachine) (pid : Nat)
    (input : UpdateDriverRoutingInput) : Prop where
  memory : ∃ p, m'.process pid = some p ∧
    setup.loadConfig (m'.ui.map UiFile.layer) = .ok p.memory ∧
    setup.revisionOf p.memory =
      setup.digest (normalizeUiDriverRoutingDocument input.defaultDriver input.roles) ∧
    ∀ roleId, ∃ profile, resolveRoleDriver p.memory roleId =
      .ok ((get roleId input.roles).getD input.defaultDriver, profile)

/-! ## Steps -/

namespace RoutingSetup

variable {m : RoutingMachine} {label : RoutingLabel} {labels : List RoutingLabel} {pid : Nat}
  {request : RoutingRequest} {locked : Bool} {faults : FileFaults} {ui : Option UiFile}
  {memory : DriverConfig} {e : SectionEnd} {error : DriverRoutingError} {config : DriverConfig}

theorem successes_snoc : setup.successes m (labels ++ [label]) =
    setup.successes m labels ++ (setup.success (labels.foldl setup.next m) label).toList := by
  induction labels generalizing m with
  | nil => simp [successes]
  | cons first rest ih => simp [successes, ih, List.append_assoc]

theorem revisionOn_of_load (h : setup.loadConfig (ui.map UiFile.layer) = .ok config) :
    setup.revisionOn ui = some (setup.revisionOf config) := by
  unfold revisionOn
  rw [h]
  rfl

theorem revisionOf_refreshConfig (h : setup.loadConfig (ui.map UiFile.layer) = .ok config) :
    setup.revisionOf (setup.refreshConfig ui memory) = setup.revisionOf config := by
  unfold refreshConfig
  rw [h]
  dsimp only
  split
  · rfl
  · rename_i hsame
    exact (not_not.mp hsame).symm

theorem sectionEnd_refuses (hrestore : faults.Restores)
    (h : (setup.sectionEnd request locked faults ui memory).error = some error) :
    (error.code = .configBusy ∧
        setup.sectionEnd request locked faults ui memory = ⟨ui, memory, some error⟩) ∨
      (setup.sectionEnd request locked faults ui memory).Refuses setup ui memory := by
  unfold sectionEnd at h ⊢
  split
  · rename_i hlocked
    rw [if_pos hlocked] at h
    cases request with
    | update drivers input => exact .inr (updateSection_refuses hrestore h)
    | reset expected => exact .inr (resetSection_refuses hrestore h)
  · rename_i hlocked
    rw [if_neg hlocked] at h
    cases h
    exact .inl ⟨rfl, rfl⟩

theorem sectionEnd_installs
    (h : (setup.sectionEnd request locked faults ui memory).error = none) :
    ∃ next, (setup.sectionEnd request locked faults ui memory).Installs setup request.expected ui
        next ∧
      ∀ drivers input, request = .update drivers input →
        next = some (setup.uiFile
            (normalizeUiDriverRoutingDocument input.defaultDriver input.roles)) ∧
          setup.assertUnlocked input.defaultDriver = .ok () := by
  unfold sectionEnd at h ⊢
  split
  · rename_i hlocked
    rw [if_pos hlocked] at h
    cases request with
    | update drivers input =>
        obtain ⟨hinstalls, hunlocked⟩ := updateSection_installs h
        refine ⟨_, hinstalls, fun drivers' input' heq => ?_⟩
        cases heq
        exact ⟨rfl, hunlocked⟩
    | reset expected =>
        refine ⟨none, resetSection_installs h, fun drivers input heq => ?_⟩
        cases heq
  · rename_i hlocked
    rw [if_neg hlocked] at h
    cases h

theorem callEnd_eq_some (h : setup.callEnd m pid request locked faults = some e) :
    ∃ p, m.process pid = some p ∧ p.answering = false ∧
      e = setup.sectionEnd request locked faults m.ui p.memory := by
  obtain ⟨p, hp, he⟩ := Option.bind_eq_some_iff.mp h
  split at he
  · cases he
  · rename_i hanswering
    exact ⟨p, hp, by simpa using hanswering, (Option.some.inj he).symm⟩

theorem next_call (h : setup.callEnd m pid request locked faults = some e) :
    setup.next m (.call pid request locked faults) =
      { m with ui := e.ui }.setProcess pid
        { memory := e.memory, answering := e.error.isNone } := by
  simp only [next, h]

/-- What holds after a run: the file loads once a process was started, every success expected
the revision before it, and a call that has not answered yet is among the successes. -/
structure Swapped (setup : RoutingSetup) (ui : Option UiFile) (log : List RoutingSuccess)
    (m : RoutingMachine) : Prop where
  loads : ∀ pid p, m.process pid = some p →
    ∃ config, setup.loadConfig (m.ui.map UiFile.layer) = .ok config
  follows : Follows (setup.revisionOn ui) log (setup.revisionOn m.ui)
  succeeded : ∀ pid p, m.process pid = some p → p.answering = true → log ≠ []

namespace Swapped

variable {log : List RoutingSuccess} {m' : RoutingMachine}

theorem start (setup : RoutingSetup) (ui : Option UiFile) :
    Swapped setup ui [] { ui } where
  loads := fun _ _ hp => (by cases hp)
  follows := .nil
  succeeded := fun _ _ hp => (by cases hp)

theorem same (h : Swapped setup ui log m) (hui : m'.ui = m.ui)
    (hloads : ∃ config, setup.loadConfig (m.ui.map UiFile.layer) = .ok config)
    (hanswering : ∀ pid p', m'.process pid = some p' → p'.answering = true →
      ∃ p, m.process pid = some p ∧ p.answering = true) : Swapped setup ui log m' where
  loads := fun _ _ _ => hui ▸ hloads
  follows := hui ▸ h.follows
  succeeded pid p' hp' hanswer := by
    obtain ⟨p, hp, ha⟩ := hanswering pid p' hp' hanswer
    exact h.succeeded pid p hp ha

theorem process_cases {p p' : RoutingProcess} (h : (m.setProcess pid p).process other = some p') :
    (other = pid ∧ p' = p) ∨ m.process other = some p' := by
  by_cases hpid : other = pid
  · subst hpid
    rw [setProcess_self] at h
    exact .inl ⟨rfl, (Option.some.inj h).symm⟩
  · rw [setProcess_other m p hpid] at h
    exact .inr h

theorem call (h : Swapped setup ui log m) (hrestores : faults.Restores)
    (hend : setup.callEnd m pid request locked faults = some e) :
    Swapped setup ui (log ++ (setup.success m (.call pid request locked faults)).toList)
      (setup.next m (.call pid request locked faults)) := by
  obtain ⟨p, hp, _, rfl⟩ := callEnd_eq_some hend
  have hsuccess : setup.success m (.call pid request locked faults) =
      if (setup.sectionEnd request locked faults m.ui p.memory).error.isNone then
        some ⟨request.expected, setup.revisionOf
          (setup.sectionEnd request locked faults m.ui p.memory).memory⟩
      else none := by
    simp only [success, hend, Option.bind_some]
  rw [next_call hend, hsuccess]
  cases herror : (setup.sectionEnd request locked faults m.ui p.memory).error with
  | some error =>
      have hfile : (setup.sectionEnd request locked faults m.ui p.memory).ui = m.ui := by
        rcases sectionEnd_refuses hrestores herror with ⟨_, heq⟩ | hrefuses
        · rw [heq]
        · exact hrefuses.file
      simp only [Option.isNone_some, Bool.false_eq_true, if_false, Option.toList_none,
        List.append_nil]
      refine h.same hfile (h.loads pid p hp) fun other p' hp' hanswer => ?_
      rcases process_cases hp' with ⟨_, rfl⟩ | hold
      · cases hanswer
      · exact ⟨p', hold, hanswer⟩
  | none =>
      obtain ⟨next, hinstalls, _⟩ := sectionEnd_installs herror
      obtain ⟨diskConfig, hdisk, hexpected⟩ := hinstalls.expected
      have hload := hinstalls.memory
      rw [← hinstalls.file] at hload
      simp only [Option.isNone_none, if_true, Option.toList_some]
      constructor
      · intro other p' _
        exact ⟨_, hload⟩
      · have hbefore : setup.revisionOn m.ui = some request.expected := by
          rw [revisionOn_of_load hdisk, hexpected]
        rw [setProcess_ui, revisionOn_of_load hload]
        exact .snoc (hbefore ▸ h.follows)
      · intro other p' _ _
        simp

theorem next (h : Swapped setup ui log m) (hrestores : label.Restores) :
    Swapped setup ui (log ++ (setup.success m label).toList) (setup.next m label) := by
  cases label with
  | start pid =>
      simp only [success, Option.toList_none, List.append_nil, next]
      cases hload : setup.loadConfig (m.ui.map UiFile.layer) with
      | error errors => exact h
      | ok config =>
          refine h.same rfl ⟨config, hload⟩ fun other p' hp' hanswer => ?_
          rcases process_cases hp' with ⟨_, rfl⟩ | hold
          · cases hanswer
          · exact ⟨p', hold, hanswer⟩
  | call pid request locked faults =>
      cases hend : setup.callEnd m pid request locked faults with
      | none => simpa only [success, next, hend, Option.bind_none, Option.toList_none,
          List.append_nil] using h
      | some e => exact h.call hrestores hend
  | answer pid =>
      simp only [success, Option.toList_none, List.append_nil, next]
      cases hp : m.process pid with
      | none => exact h
      | some p =>
          refine h.same rfl (h.loads pid p hp) fun other p' hp' hanswer => ?_
          rcases process_cases hp' with ⟨_, rfl⟩ | hold
          · cases hanswer
          · exact ⟨p', hold, hanswer⟩
  | refresh pid =>
      simp only [success, Option.toList_none, List.append_nil, next]
      cases hp : m.process pid with
      | none => exact h
      | some p =>
          refine h.same rfl (h.loads pid p hp) fun other p' hp' hanswer => ?_
          rcases process_cases hp' with ⟨rfl, rfl⟩ | hold
          · exact ⟨p, hp, hanswer⟩
          · exact ⟨p', hold, hanswer⟩

theorem run (setup : RoutingSetup) (ui : Option UiFile) (labels : List RoutingLabel)
    (hrestores : ∀ label ∈ labels, label.Restores) :
    Swapped setup ui (setup.successes { ui } labels) (labels.foldl setup.next { ui }) := by
  induction labels using List.reverseRecOn with
  | nil => exact start setup ui
  | append_singleton labels label ih =>
      rw [successes_snoc, List.foldl_append]
      have hbefore := ih fun label hlabel => hrestores label (List.mem_append_left _ hlabel)
      exact hbefore.next (hrestores label (by simp))

theorem threw (h : Swapped setup ui log m) (hrestores : faults.Restores)
    (hend : setup.callEnd m pid request locked faults = some e) (herror : e.error = some error) :
    setup.Threw m (setup.next m (.call pid request locked faults)) pid error := by
  rw [next_call hend]
  obtain ⟨p, hp, hidle, rfl⟩ := callEnd_eq_some hend
  obtain ⟨config, hconfig⟩ := h.loads pid p hp
  rcases sectionEnd_refuses hrestores herror with ⟨hbusy, heq⟩ | hrefuses
  · rw [heq]
    refine ⟨rfl, .inl ⟨hbusy, ?_⟩⟩
    rw [setProcess_self, hp]
    simp [← hidle]
  · refine ⟨hrefuses.file, .inr ⟨_, setProcess_self _ _ _, ?_⟩⟩
    rw [setProcess_ui, hrefuses.file, hconfig]
    exact congrArg Except.ok (hrefuses.memory config hconfig).symm

end Swapped

theorem updated {drivers : DriverProjection} {input : UpdateDriverRoutingInput}
    (hend : setup.callEnd m pid (.update drivers input) locked faults = some e)
    (herror : e.error = none) :
    setup.Updated (setup.next m (.call pid (.update drivers input) locked faults)) pid input := by
  rw [next_call hend]
  obtain ⟨p, _, _, rfl⟩ := callEnd_eq_some hend
  obtain ⟨next, hinstalls, hnext⟩ := sectionEnd_installs herror
  obtain ⟨rfl, hunlocked⟩ := hnext drivers input rfl
  have hload := hinstalls.memory
  obtain ⟨hdefault, hroles⟩ := load_document input.distinct hunlocked hload
  refine ⟨_, setProcess_self _ _ _, ?_, ?_, fun roleId => ?_⟩
  · rw [setProcess_ui, hinstalls.file]
    exact hload
  · unfold revisionOf effectiveUiRoutingDocument
    dsimp only
    rw [hdefault, hroles, normalize_normalize]
  · obtain ⟨profile, hprofile⟩ := resolve_loaded hload roleId
    refine ⟨profile, ?_⟩
    dsimp only
    rw [hprofile, hdefault, hroles, resolve_normalize input.distinct]

end RoutingSetup

/-! ## Two processes -/

/-- A project that has `codex` beside the built-in driver. -/
def exampleSetup : RoutingSetup where
  manual := [{ drivers := [("codex", { agent := "codex" })] }]
  digest := fun document =>
    document.defaultDriver ++ String.join (document.roles.map fun role => role.1 ++ role.2)
  render := fun document => document.defaultDriver

def anyDriver : DriverProjection where
  hasRuntime := fun _ => true
  projectAvailability := fun _ _ => { selectable := true }

/-- Make `codex` the default; the reviewer stays with the built-in driver. -/
def codexInput : UpdateDriverRoutingInput where
  expectedRevision := legacyDriverId
  defaultDriver := "codex"
  roles := [("reviewer", legacyDriverId), ("coder", "codex")]
  distinct := by simp [Record.Distinct, Rows.Distinct]

def exampleLabels : List RoutingLabel :=
  [.start 0, .start 1, .call 0 (.update anyDriver codexInput) true {}]

/-- The second process resets before the first one has answered. -/
def resetLabels : List RoutingLabel :=
  exampleLabels ++ [.call 1 (.reset "codexrevieweracp-external") true {}]

def busyLabels : List RoutingLabel :=
  exampleLabels ++ [.call 1 (.reset "acp-external") false {}]

end Newide.Driver
