import Mathlib.Data.List.AList
import Newide.Memory.DeliveryFailures
import Newide.Memory.DeliveryLifecycle
import Newide.Memory.Experiences
import Newide.Foundation.Threads

/-!
# The files of the buffer of one role

What `src/memory/adapters/file-buffer-repository.ts` keeps on disk: the
reports and the contexts in their three partitions and `buffer_meta.json`,
and the operations of the file system it calls.
-/

namespace Newide.Memory

/-! ## What the files hold -/

inductive ExtractionStatus where
  | pending | processing | processed | deadLetter

/-- The report of a task; `driverReturn` stands for the fields of the driver. -/
structure BufferSnapshot where
  taskId : String
  userRating : Option UserRating := none
  driverReturn : String := ""
  contextSnapshotRef : Option String := none
  retryCount : Nat := 0
  extractionStatus : ExtractionStatus := .pending

structure AgentContextDriverCall where
  driverId : String
  driverReturnRef : String := ""

structure AgentContextSnapshot where
  snapshotId : String
  thinkingTrace : String := ""
  driverCalls : List AgentContextDriverCall := []

/-- A report as it is written; the schema drops the fields of a dead letter. -/
structure StoredReport where
  snapshot : BufferSnapshot
  deadLetterReason : Option String := none
  deadLetterAt : Option Time := none

structure BufferMeta where
  pendingCount : Nat := 0
  cursor : Nat := 0
  totalProcessed : Nat := 0
  totalDeadLetters : Nat := 0
deriving DecidableEq

inductive FileText where
  | report (report : StoredReport)
  | context (context : AgentContextSnapshot)
  | bufferMeta (bufferMeta : BufferMeta)
  /-- No schema; the text says what a parser says of it. -/
  | garbled (problem : String)

/-! ## Where they are -/

inductive BufferLocation where
  | pending | processed | deadLetter
deriving DecidableEq

def BufferLocation.all : List BufferLocation :=
  [.pending, .processed, .deadLetter]

inductive BufferFileName where
  | bufferMeta
  | report (seq : Nat)
  | context (seq : Nat)
deriving DecidableEq

/-- A file of a partition, or of the buffer itself; `temporary` is the one beside it. -/
structure BufferPath where
  dir : Option BufferLocation
  name : BufferFileName
  temporary : Bool := false
deriving DecidableEq

def metaPath : BufferPath :=
  { dir := none, name := .bufferMeta }

def reportPath (location : BufferLocation) (seq : Nat) : BufferPath :=
  { dir := some location, name := .report seq }

def contextPath (location : BufferLocation) (seq : Nat) : BufferPath :=
  { dir := some location, name := .context seq }

def BufferPath.tmp (path : BufferPath) : BufferPath :=
  { path with temporary := true }

def BufferLocation.text : BufferLocation → String
  | .pending => "pending"
  | .processed => "processed"
  | .deadLetter => "dead_letter"

def reportFileName (seq : Nat) : String :=
  "report_" ++ toString seq ++ ".json"

def contextFileName (seq : Nat) : String :=
  "context_" ++ toString seq ++ ".json"

def BufferPath.text (path : BufferPath) : String :=
  (path.dir.map fun dir => dir.text ++ "/").getD "" ++
    (match path.name with
    | .bufferMeta => "buffer_meta.json"
    | .report seq => reportFileName seq
    | .context seq => contextFileName seq) ++
    if path.temporary then ".tmp" else ""

/-! ## Operations -/

structure FileError where
  code : String
  message : String

inductive FileCall where
  | readFile (path : BufferPath)
  | writeFile (path : BufferPath) (text : FileText)
  | rename (source destination : BufferPath)
  | unlink (path : BufferPath)
  | readdir (dir : BufferLocation)
  | mkdir (dir : Option BufferLocation)

@[reducible] def FileCall.Answer : FileCall → Type
  | .readFile _ => FileText
  | .readdir _ => List BufferPath
  | _ => Unit

abbrev BufferDisk := AList fun _ : BufferPath => FileText

def noEntry (path : BufferPath) : FileError where
  code := "ENOENT"
  message := "ENOENT: no such file or directory, " ++ path.text

/-- An operation that meets no fault but the absence of a file; the directories are there. -/
def FileCall.exec : (c : FileCall) → BufferDisk → Except FileError c.Answer × BufferDisk
  | .readFile path, disk =>
      match disk.lookup path with
      | some text => (.ok text, disk)
      | none => (.error (noEntry path), disk)
  | .writeFile path text, disk => (.ok (), disk.insert path text)
  | .rename source destination, disk =>
      match disk.lookup source with
      | some text => (.ok (), (disk.erase source).insert destination text)
      | none => (.error (noEntry source), disk)
  | .unlink path, disk =>
      match disk.lookup path with
      | some _ => (.ok (), disk.erase path)
      | none => (.error (noEntry path), disk)
  | .readdir dir, disk => (.ok (disk.keys.filter fun path => path.dir = some dir), disk)
  | .mkdir _, disk => (.ok (), disk)

/-- A file name a scan knows: a report, or a context. -/
def BufferPath.seq? (path : BufferPath) : Option Nat :=
  if path.temporary then none
  else
    match path.name with
    | .bufferMeta => none
    | .report seq => some seq
    | .context seq => some seq

def BufferPath.isReport (path : BufferPath) : Bool :=
  !path.temporary &&
    match path.name with
    | .report _ => true
    | _ => false

def BufferDisk.size (disk : BufferDisk) (location : BufferLocation) : Nat :=
  ((disk.keys.filter fun path => path.dir = some location).filter BufferPath.isReport).length

end Newide.Memory
