import Newide.Foundation.FileTrees

/-!
# The workspace of a Council participant

`src/council/council-workspace.ts`: a checkout of `HEAD`, patched path by
path from two listings of git.  Files are regular ones; git, and the
settings file that every participant gets, are as they stand.
-/

namespace Newide.Council

open Fallible FileTrees FileTree

/-! ## The source -/

/-- A checkout without submodules: git's three views of it, each well formed. -/
structure SourceCheckout where
  /-- The files of `HEAD`. -/
  head : List (Path × String)
  /-- The paths in the index. -/
  index : List Path
  /-- The entries of the working tree. -/
  working : List (Path × Node String)
  /-- `--exclude-standard` leaves the path out. -/
  ignored : Path → Bool
  /-- `HEAD` has no file below a file. -/
  head_files : ∀ {p q : Path}, (head.lookup p).isSome → (head.lookup q).isSome → p <+: q → p = q
  /-- What is above an entry is a directory. -/
  working_dirs : ∀ {p q : Path}, p <+: q → p ≠ q → (working.lookup q).isSome →
    working.lookup p = some .dir

open SourceCheckout

namespace SourceCheckout

def workingTree (checkout : SourceCheckout) : FileTree String := fun path =>
  checkout.working.lookup path

def below (checkout : SourceCheckout) (path : Path) : List (Path × Node String) :=
  checkout.working.filter fun entry => path.isPrefixOf entry.1

/-- `git worktree add --detach target HEAD` -/
def headTree (checkout : SourceCheckout) : FileTree String := fun path =>
  match checkout.head.lookup path with
  | some content => some (.file content)
  | none => if checkout.head.any fun file => path.isPrefixOf file.1 then some .dir else none

/-- A path of `HEAD` that `git diff HEAD` takes for deleted. -/
def Deleted (checkout : SourceCheckout) (path : Path) : Prop :=
  (checkout.head.lookup path).isSome ∧
    (path ∉ checkout.index ∨ checkout.workingTree.file? path = none)

/-- A path that `git diff HEAD` has a difference at. -/
def Changed (checkout : SourceCheckout) (path : Path) : Prop :=
  checkout.Deleted path ∨
    path ∈ checkout.index ∧ ∃ content, checkout.workingTree.file? path = some content ∧
      checkout.head.lookup path ≠ some content

/-- The two listings of git, in any order: a deleted file that git pairs with a new one, as
renamed, is listed under its new path only. -/
structure Lists (checkout : SourceCheckout) (renamedAway : Path → Prop)
    (tracked untracked : List Path) : Prop where
  renamed : ∀ p, renamedAway p → checkout.Deleted p
  tracked_iff : ∀ p, p ∈ tracked ↔ checkout.Changed p ∧ ¬ renamedAway p
  untracked_iff : ∀ p, p ∈ untracked ↔
    (checkout.workingTree.file? p).isSome ∧ p ∉ checkout.index ∧ checkout.ignored p = false

end SourceCheckout

/-! ## The copy -/

inductive WorkspaceError where
  /-- `Git workspace path escapes source: …` -/
  | escapes (relative : Path)
  | files (error : FileError)

/-- `relative.replaceAll('\\', '/')` -/
def normalizedPath (relative : Path) : Path :=
  relative.flatMap fun part => (part.toList.splitOn '\\').map String.ofList

/-- `path.win32.isAbsolute`, for a path without a separator in front -/
def startsAtDrive (normalized : Path) : Bool :=
  match normalized with
  | drive :: _ :: _ =>
      match drive.toList with
      | [letter, ':'] => letter.isAlpha
      | _ => false
  | _ => false

def escapesSource (normalized : Path) : Bool :=
  normalized.isEmpty || normalized.head? = some "" || startsAtDrive normalized
    || normalized.contains ".."

/-- `path.join(source, normalized)`, below the source -/
def joinedPath (normalized : Path) : Path :=
  normalized.filter fun part => part ≠ "" && part ≠ "."

/-- One round of the loop of `copyDirtyGitFiles`. -/
def copyDirtyGitFile (checkout : SourceCheckout) (target : FileTree String) (relative : Path) :
    Except WorkspaceError (FileTree String) :=
  let normalized := normalizedPath relative
  if escapesSource normalized then .error (.escapes relative)
  else
    let path := joinedPath normalized
    let copied := do
      let node ← checkout.workingTree.access path
      let target ← target.makeDirs path.dropLast
      target.copyNode (checkout.below path) path node
    match copied with
    | .ok target => .ok target
    | .error .missing => (target.remove path).mapError .files
    | .error error => .error (.files error)

def copyDirtyGitFiles (checkout : SourceCheckout) (tracked untracked : List Path)
    (target : FileTree String) : Except WorkspaceError (FileTree String) :=
  (tracked ++ untracked).eraseDups.foldlM (copyDirtyGitFile checkout) target

def evalClaudeSettings : Path := [".claude", "settings.json"]

def copyEvalClaudeSettings (checkout : SourceCheckout) (target : FileTree String) :
    Except FileError (FileTree String) := do
  let target ← target.makeDirs evalClaudeSettings.dropLast
  match checkout.workingTree.access evalClaudeSettings with
  | .ok (.file content) => target.putFile evalClaudeSettings content
  | .ok .dir => .error .isDirectory
  | .error .missing => .ok target
  | .error error => .error error

def prepareCouncilWorkspace (checkout : SourceCheckout) (tracked untracked : List Path) :
    Except WorkspaceError (FileTree String) := do
  let target ← copyDirtyGitFiles checkout tracked untracked checkout.headTree
  (copyEvalClaudeSettings checkout target).mapError .files

/-! ## What the participant should see -/

namespace SourceCheckout

/-- The tracked files and the untracked ones that are not ignored, as the working tree has
them, and the settings. -/
def expected (checkout : SourceCheckout) (path : Path) : Option String :=
  if path ∈ checkout.index ∨ checkout.ignored path = false ∨ path = evalClaudeSettings then
    checkout.workingTree.file? path
  else none

/-- No file that git takes for renamed has left the working tree, and no file of `HEAD` that
has left the index is still there and ignored. -/
structure LeavesNothing (checkout : SourceCheckout) (renamedAway : Path → Prop) : Prop where
  renamed : ∀ p, renamedAway p → (checkout.workingTree.file? p).isSome
  dropped : ∀ p, (checkout.head.lookup p).isSome → p ∉ checkout.index →
    (checkout.workingTree.file? p).isSome → checkout.ignored p → p = evalClaudeSettings

end SourceCheckout

variable {ready : FileTree String}

section
variable {checkout : SourceCheckout} {renamedAway : Path → Prop} {tracked untracked : List Path}
  {target after : FileTree String} {path other : Path} {done paths : List Path}

/-! ## One path -/

/-- Names of git, without a backslash. -/
def Plain (path : Path) : Prop :=
  ∀ part ∈ path, part ≠ "" ∧ part ≠ "." ∧ '\\' ∉ part.toList

theorem normalizedPath_plain (h : Plain path) : normalizedPath path = path := by
  unfold normalizedPath
  induction path with
  | nil => rfl
  | cons part path ih =>
      rw [List.flatMap_cons, ih fun other hother => h other (List.mem_cons_of_mem _ hother),
        List.splitOn_eq_singleton (h part List.mem_cons_self).2.2]
      simp

theorem joinedPath_plain (h : Plain path) : joinedPath path = path := by
  refine List.filter_eq_self.mpr fun part hpart => ?_
  obtain ⟨hempty, hdot, -⟩ := h part hpart
  simp [hempty, hdot]

theorem file?_headTree (path : Path) : checkout.headTree.file? path = checkout.head.lookup path := by
  unfold FileTree.file? headTree
  cases checkout.head.lookup path with
  | some content => rfl
  | none =>
      dsimp only
      split_ifs <;> rfl

theorem working_isSome_of_file (h : (checkout.workingTree.file? path).isSome) :
    (checkout.working.lookup path).isSome := by
  obtain ⟨content, hcontent⟩ := Option.isSome_iff_exists.mp h
  rw [show checkout.working.lookup path = some (.file content) from
    file?_eq_some.mp hcontent]
  rfl

/-- The target when the paths `done` have been applied to the checkout of `HEAD`. -/
structure Patched (checkout : SourceCheckout) (done : List Path) (target : FileTree String) :
    Prop where
  file? : ∀ p, target.file? p =
    if p ∈ done then checkout.workingTree.file? p else checkout.head.lookup p
  no_dir : ∀ p ∈ done, checkout.workingTree p ≠ some .dir

/-- What git lists is a file of `HEAD` or of the working tree. -/
def Known (checkout : SourceCheckout) (path : Path) : Prop :=
  (checkout.head.lookup path).isSome ∨ (checkout.workingTree.file? path).isSome

theorem Patched.removed (hpatched : Patched checkout done target) (hknown : Known checkout path)
    (hgone : checkout.workingTree path = none) (h : target.remove path = .ok after) :
    Patched checkout (path :: done) after := by
  have hhead : (checkout.head.lookup path).isSome := by
    refine hknown.resolve_right ?_
    simp [file?_eq_none_of_none hgone]
  have hbelow : ∀ p, path <+: p → checkout.workingTree.file? p = none := by
    intro p hp
    by_contra hfile
    have hentry := working_isSome_of_file (Option.isSome_iff_ne_none.mpr hfile)
    by_cases heq : path = p
    · rw [← heq, show checkout.working.lookup path = none from hgone] at hentry
      cases hentry
    · have hdir := checkout.working_dirs hp heq hentry
      rw [show checkout.working.lookup path = none from hgone] at hdir
      cases hdir
  constructor
  · intro p
    rw [file?_remove h, hpatched.file?]
    by_cases hp : path <+: p
    · rw [if_pos hp, hbelow p hp]
      split_ifs with hdone
      · rfl
      · by_contra hother
        refine hdone (List.mem_cons.mpr (.inl (checkout.head_files hhead ?_ hp).symm))
        exact Option.isSome_iff_ne_none.mpr fun hnone => hother hnone.symm
    · have hne : p ≠ path := fun heq => hp (heq ▸ List.prefix_rfl)
      simp [hp, hne]
  · intro p hp
    rcases List.mem_cons.mp hp with rfl | hp
    · rw [hgone]
      exact fun hdir => by cases hdir
    · exact hpatched.no_dir p hp

theorem Patched.copied {content : String} (hpatched : Patched checkout done target)
    (hfile : checkout.workingTree path = some (.file content))
    (hready : target.makeDirs path.dropLast = .ok ready)
    (h : ready.putFile path content = .ok after) : Patched checkout (path :: done) after := by
  constructor
  · intro p
    rw [file?_putFile h, file?_makeDirs hready, hpatched.file?]
    by_cases hp : p = path
    · rw [if_pos hp, if_pos (by simp [hp]), hp, file?_eq_some.mpr hfile]
    · simp [hp]
  · intro p hp
    rcases List.mem_cons.mp hp with rfl | hp
    · rw [hfile]
      exact fun hdir => by cases hdir
    · exact hpatched.no_dir p hp

/-- Only a file of `HEAD` is listed where the working tree has a directory, and it is in the way
of the copy. -/
theorem Patched.copy_dir {below : List (Path × Node String)}
    (hpatched : Patched checkout done target) (hknown : Known checkout path)
    (hdir : checkout.workingTree path = some .dir)
    (hready : target.makeDirs path.dropLast = .ok ready) :
    ready.copyNode below path .dir = .error .notDirectory := by
  have hnone : checkout.workingTree.file? path = none := by simp [FileTree.file?, hdir]
  have hhead := hknown.resolve_right (by simp [hnone])
  obtain ⟨content, hcontent⟩ := Option.isSome_iff_exists.mp hhead
  have htarget : ready.file? path = some content := by
    rw [file?_makeDirs hready, hpatched.file?,
      if_neg fun hdone => hpatched.no_dir path hdone hdir, hcontent]
  exact copyNode_dir_file htarget

/-- The step lemma: a path that is applied without an error reads as in the working tree from
then on, and all others as before. -/
theorem Patched.step (hpatched : Patched checkout done target) (hknown : Known checkout path)
    (hplain : Plain path) (h : copyDirtyGitFile checkout target path = .ok after) :
    Patched checkout (path :: done) after := by
  unfold copyDirtyGitFile at h
  simp only [normalizedPath_plain hplain, joinedPath_plain hplain] at h
  split at h
  · cases h
  split at h
  · rename_i hcopied
    cases h
    obtain ⟨node, hnode, hcopied⟩ := bind_eq_ok.mp hcopied
    obtain ⟨ready, hready, hcopied⟩ := bind_eq_ok.mp hcopied
    have hnode := access_eq_ok hnode
    cases node with
    | file content => exact hpatched.copied hnode hready hcopied
    | dir =>
        rw [hpatched.copy_dir hknown hnode hready] at hcopied
        cases hcopied
  · rename_i hmissing
    have hremoved : target.remove path = .ok after := by
      cases hremove : target.remove path with
      | error e => simp [hremove, Except.mapError] at h
      | ok removed =>
          rw [hremove] at h
          cases h
          rfl
    -- nothing but the first call finds something missing
    rcases bind_eq_error.mp hmissing with haccess | ⟨node, hnode, hmissing⟩
    · exact hpatched.removed hknown (access_eq_missing haccess) hremoved
    rcases bind_eq_error.mp hmissing with hdirs | ⟨ready, hready, hmissing⟩
    · exact absurd hdirs makeDirs_ne_missing
    have hnode := access_eq_ok hnode
    cases node with
    | file content => exact absurd hmissing putFile_ne_missing
    | dir =>
        rw [hpatched.copy_dir hknown hnode hready] at hmissing
        cases hmissing
  · cases h

theorem Patched.run (hpatched : Patched checkout done target)
    (hknown : ∀ p ∈ paths, Known checkout p) (hplain : ∀ p ∈ paths, Plain p)
    (h : paths.foldlM (copyDirtyGitFile checkout) target = .ok after) :
    ∃ all, (∀ p, p ∈ all ↔ p ∈ paths ∨ p ∈ done) ∧ Patched checkout all after := by
  induction paths generalizing done target with
  | nil =>
      cases h
      exact ⟨done, by simp, hpatched⟩
  | cons path paths ih =>
      rw [List.foldlM_cons] at h
      obtain ⟨next, hnext, h⟩ := bind_eq_ok.mp h
      have hstep := hpatched.step (hknown path List.mem_cons_self)
        (hplain path List.mem_cons_self) hnext
      obtain ⟨all, hall, hafter⟩ := ih hstep (fun p hp => hknown p (List.mem_cons_of_mem _ hp))
        (fun p hp => hplain p (List.mem_cons_of_mem _ hp)) h
      refine ⟨all, fun p => ?_, hafter⟩
      rw [hall]
      simp only [List.mem_cons]
      tauto

/-! ## The whole copy -/

theorem Lists_known (hlists : checkout.Lists renamedAway tracked untracked)
    (hpath : path ∈ tracked ++ untracked) : Known checkout path := by
  rcases List.mem_append.mp hpath with htracked | huntracked
  · rcases ((hlists.tracked_iff path).mp htracked).1 with hdeleted | ⟨-, content, hcontent, -⟩
    · exact .inl hdeleted.1
    · exact .inr (by simp [hcontent])
  · exact .inr ((hlists.untracked_iff path).mp huntracked).1

theorem file?_copyEvalClaudeSettings (h : copyEvalClaudeSettings checkout target = .ok after)
    (path : Path) : after.file? path =
      if path = evalClaudeSettings ∧ (checkout.workingTree.file? path).isSome then
        checkout.workingTree.file? path
      else target.file? path := by
  obtain ⟨ready, hready, h⟩ := bind_eq_ok.mp h
  have hsame := file?_makeDirs hready path
  split at h
  · rename_i content haccess
    have hfile := file?_eq_some.mpr (access_eq_ok haccess)
    rw [file?_putFile h, hsame]
    by_cases hpath : path = evalClaudeSettings
    · subst hpath
      simp [hfile]
    · simp [hpath]
  · cases h
  · rename_i hmissing
    cases h
    have hnone := file?_eq_none_of_none (access_eq_missing hmissing)
    rw [hsame, if_neg]
    rintro ⟨rfl, hsome⟩
    simp [hnone] at hsome
  · cases h

theorem file?_prepared (hlists : checkout.Lists renamedAway tracked untracked)
    (hplain : ∀ p ∈ tracked ++ untracked, Plain p)
    (h : prepareCouncilWorkspace checkout tracked untracked = .ok target) (path : Path) :
    target.file? path =
      if path ∈ tracked ++ untracked ∨
          path = evalClaudeSettings ∧ (checkout.workingTree.file? path).isSome then
        checkout.workingTree.file? path
      else checkout.head.lookup path := by
  obtain ⟨patched, hpatched, h⟩ := bind_eq_ok.mp h
  have hsettings : copyEvalClaudeSettings checkout patched = .ok target := by
    cases hcopy : copyEvalClaudeSettings checkout patched with
    | error e => simp [hcopy, Except.mapError] at h
    | ok copied =>
        rw [hcopy] at h
        cases h
        rfl
  have hstart : Patched checkout [] checkout.headTree :=
    ⟨fun p => by simp [file?_headTree], fun p hp => (by cases hp)⟩
  obtain ⟨all, hall, hdone⟩ := hstart.run
    (fun p hp => Lists_known hlists (List.mem_eraseDups.mp hp))
    (fun p hp => hplain p (List.mem_eraseDups.mp hp)) hpatched
  have hlisted : path ∈ all ↔ path ∈ tracked ++ untracked := by
    rw [hall, List.mem_eraseDups]
    simp
  rw [file?_copyEvalClaudeSettings hsettings, hdone.file?]
  simp only [hlisted]
  split_ifs <;> tauto

theorem head_eq_of_kept (hlists : checkout.Lists renamedAway tracked untracked)
    (hfile : (checkout.workingTree.file? path).isSome)
    (hkeep : path ∈ checkout.index ∨ checkout.ignored path = false ∨ path = evalClaudeSettings)
    (hlisted : path ∉ tracked ++ untracked ∧
      ¬ (path = evalClaudeSettings ∧ (checkout.workingTree.file? path).isSome)) :
    checkout.head.lookup path = checkout.workingTree.file? path := by
  have htracked : path ∉ tracked := fun h => hlisted.1 (List.mem_append_left _ h)
  have huntracked : path ∉ untracked := fun h => hlisted.1 (List.mem_append_right _ h)
  rw [hlists.tracked_iff] at htracked
  rw [hlists.untracked_iff] at huntracked
  have hsettings : path ≠ evalClaudeSettings := fun h => hlisted.2 ⟨h, hfile⟩
  have hindex : path ∈ checkout.index := by
    by_contra hindex
    rcases hkeep with h | h | h
    · exact hindex h
    · exact huntracked ⟨hfile, hindex, h⟩
    · exact hsettings h
  obtain ⟨content, hcontent⟩ := Option.isSome_iff_exists.mp hfile
  have hrenamed : ¬ renamedAway path := fun h => by
    rcases (hlists.renamed path h).2 with hout | hgone
    · exact hout hindex
    · rw [hcontent] at hgone
      cases hgone
  rw [hcontent]
  by_contra hhead
  exact htracked ⟨.inr ⟨hindex, content, hcontent, hhead⟩, hrenamed⟩

end

/-! ## A file that was renamed -/

/-- `a` has become `b` in the index. -/
def renamedCheckout : SourceCheckout where
  head := [(["a"], "x")]
  index := [["b"]]
  working := [([], .dir), (["b"], .file "x")]
  ignored := fun _ => false
  head_files := by
    intro p q hp hq _
    simp only [List.lookup_cons, List.lookup_nil] at hp hq
    split at hp <;> split at hq <;> simp_all
  working_dirs := by
    intro p q hp hne hq
    have hq : q = [] ∨ q = ["b"] := by
      simp only [List.lookup_cons, List.lookup_nil] at hq
      split at hq
      · simp_all
      · split at hq <;> simp_all
    rcases hq with rfl | rfl
    · exact absurd (List.prefix_nil.mp hp) hne
    · rcases List.prefix_cons_iff.mp hp with rfl | ⟨rest, rfl, hrest⟩
      · rfl
      · rw [List.prefix_nil.mp hrest] at hne
        exact absurd rfl hne

theorem renamedCheckout_file? (path : Path) :
    renamedCheckout.workingTree.file? path = if path = ["b"] then some "x" else none := by
  by_cases hb : path = ["b"]
  · rw [hb]
    rfl
  · rw [if_neg hb]
    by_cases hroot : path = []
    · rw [hroot]
      rfl
    · refine file?_eq_none_of_none ?_
      simp [workingTree, renamedCheckout, List.lookup_cons, beq_false_of_ne hb,
        beq_false_of_ne hroot]

theorem renamedCheckout_head (path : Path) :
    renamedCheckout.head.lookup path = if path = ["a"] then some "x" else none := by
  by_cases ha : path = ["a"]
  · rw [ha]
    rfl
  · simp [renamedCheckout, List.lookup_cons, ha, beq_false_of_ne ha]

theorem renamedCheckout_changed {path : Path} :
    renamedCheckout.Changed path ↔ path = ["a"] ∨ path = ["b"] := by
  unfold SourceCheckout.Changed SourceCheckout.Deleted
  rw [renamedCheckout_file?, renamedCheckout_head,
    show renamedCheckout.index = [["b"]] from rfl]
  by_cases ha : path = ["a"]
  · simp [ha]
  · by_cases hb : path = ["b"] <;> simp [ha, hb]

theorem renamedCheckout_untracked {path : Path} : path ∈ ([] : List Path) ↔
    (renamedCheckout.workingTree.file? path).isSome ∧ path ∉ renamedCheckout.index ∧
      renamedCheckout.ignored path = false := by
  rw [renamedCheckout_file?, show renamedCheckout.index = [["b"]] from rfl]
  by_cases hb : path = ["b"] <;> simp [hb]

end Newide.Council
