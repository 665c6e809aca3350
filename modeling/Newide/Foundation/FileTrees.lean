import Mathlib.Data.List.Infix
import Mathlib.Logic.Function.Basic
import Newide.Foundation.Fallible

/-!
# File trees

Files and directories under one root, by their paths, with the calls of a
file system on them.  Each call says which files it leaves as they were.
-/

namespace FileTrees

open Fallible

abbrev Path := List String

inductive Node (γ : Type) where
  | file (content : γ)
  | dir

inductive FileError where
  /-- `ENOENT` -/
  | missing
  /-- `ENOTDIR` -/
  | notDirectory
  /-- `EEXIST` -/
  | alreadyThere
  /-- `EISDIR`, or a copy that would put a file in place of a directory -/
  | isDirectory

abbrev FileTree (γ : Type) := Path → Option (Node γ)

variable {γ : Type}

namespace FileTree

def file? (tree : FileTree γ) (path : Path) : Option γ :=
  match tree path with
  | some (.file content) => some content
  | _ => none

def blocked (tree : FileTree γ) (path : Path) : Bool :=
  path.inits.dropLast.any fun above => (tree.file? above).isSome

/-- `fs.access`, with what was found. -/
def access (tree : FileTree γ) (path : Path) : Except FileError (Node γ) := do
  ensure (tree.blocked path = false) FileError.notDirectory
  orThrow (tree path) FileError.missing

/-- `fs.mkdir` with `recursive` -/
def makeDirs (tree : FileTree γ) (path : Path) : Except FileError (FileTree γ) := do
  ensure (tree.blocked path = false) FileError.notDirectory
  ensure ((tree.file? path).isNone) FileError.alreadyThere
  return fun other => if other.isPrefixOf path && (tree other).isNone then some .dir else tree other

def putFile (tree : FileTree γ) (path : Path) (content : γ) : Except FileError (FileTree γ) := do
  ensure ((tree path).all fun node => node matches .file _) FileError.isDirectory
  return Function.update tree path (some (.file content))

/-- `fs.rm` with `recursive` and `force` -/
def remove (tree : FileTree γ) (path : Path) : Except FileError (FileTree γ) := do
  ensure (tree.blocked path = false) FileError.notDirectory
  return fun other => if path.isPrefixOf other then none else tree other

/-- `fs.cp` with `recursive` and `force`, to the same path of another tree: `below` are the
entries at the path and below it. -/
def copyNode (below : List (Path × Node γ)) (path : Path) (node : Node γ) (tree : FileTree γ) :
    Except FileError (FileTree γ) :=
  match node with
  | .file content => tree.putFile path content
  | .dir => do
      ensure ((tree.file? path).isNone) FileError.notDirectory
      below.foldlM (fun tree entry =>
        match entry.2 with
        | .dir => tree.makeDirs entry.1
        | .file content => do (← tree.makeDirs entry.1.dropLast).putFile entry.1 content) tree

/-! ## What each call leaves as it was -/

variable {tree after : FileTree γ} {path other : Path} {content : γ}

theorem file?_eq_some : tree.file? path = some content ↔ tree path = some (.file content) := by
  unfold file?
  split <;> simp_all

theorem file?_eq_none_of_none (h : tree path = none) : tree.file? path = none := by
  simp [file?, h]

theorem access_eq_ok {node : Node γ} (h : tree.access path = .ok node) :
    tree path = some node := by
  simp only [access, bind_eq_ok, orThrow_eq_ok] at h
  obtain ⟨-, -, hnode⟩ := h
  exact hnode

theorem access_eq_missing (h : tree.access path = .error .missing) : tree path = none := by
  unfold access ensure orThrow at h
  split at h
  · cases hnode : tree path with
    | none => rfl
    | some node => simp [hnode, bind, Except.bind] at h
  · simp [bind, Except.bind] at h

theorem file?_makeDirs (h : tree.makeDirs path = .ok after) (other : Path) :
    after.file? other = tree.file? other := by
  simp only [makeDirs, bind_eq_ok, pure_eq_ok] at h
  obtain ⟨-, -, -, -, rfl⟩ := h
  unfold file?
  dsimp only
  split_ifs with hnew
  · rw [Option.isNone_iff_eq_none.mp (Bool.and_eq_true_iff.mp hnew).2]
  · rfl

theorem file?_putFile (h : tree.putFile path content = .ok after) (other : Path) :
    after.file? other = if other = path then some content else tree.file? other := by
  simp only [putFile, bind_eq_ok, pure_eq_ok] at h
  obtain ⟨-, -, rfl⟩ := h
  unfold file?
  by_cases hother : other = path
  · rw [if_pos hother, hother, Function.update_self]
  · rw [if_neg hother, Function.update_of_ne hother]

theorem file?_remove (h : tree.remove path = .ok after) (other : Path) :
    after.file? other = if path <+: other then none else tree.file? other := by
  simp only [remove, bind_eq_ok, pure_eq_ok] at h
  obtain ⟨-, -, rfl⟩ := h
  unfold file?
  simp only [ List.isPrefixOf_iff_prefix]
  split_ifs <;> rfl

theorem makeDirs_ne_missing : tree.makeDirs path ≠ .error .missing := by
  intro h
  simp [makeDirs, bind_eq_error, ensure_eq_error, pure, Except.pure] at h

theorem putFile_ne_missing : tree.putFile path content ≠ .error .missing := by
  intro h
  simp [putFile, bind_eq_error, ensure_eq_error, pure, Except.pure] at h

theorem copyNode_dir_file {below : List (Path × Node γ)} (h : tree.file? path = some content) :
    copyNode below path .dir tree = .error .notDirectory := by
  simp [copyNode, h, ensure, bind, Except.bind]

end FileTree

end FileTrees
