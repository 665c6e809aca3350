import Newide.Memory.BufferFiles

/-!
# The buffer repository

The functions of `src/memory/adapters/file-buffer-repository.ts`, each a
routine that calls the file system.  Its operations on one role run
interleaved; three queues put some of them one after the other.
-/

namespace Newide.Memory

open Threads

/-! ## Calls -/

/-- The keys of `serialQueues`. -/
inductive QueueKey where
  | save
  | buffer (seq : Nat)
  | bufferMeta
deriving DecidableEq

/-- What a routine stops at.  Two calls are no operation of their own: `settle` says that the
routine is done with a report it has taken, and `allot` which number it gives out. -/
inductive BufferCall where
  | file (c : FileCall)
  /-- Read a report in order to write it again. -/
  | take (location : BufferLocation) (seq : Nat)
  | settle (seq : Nat)
  | allot (seq : Nat)
  | enter (queue : QueueKey)
  | leave (queue : QueueKey)

@[reducible] def BufferCall.Reply : BufferCall → Type
  | .file c => Except FileError c.Answer
  | .take .. => Except FileError FileText
  | _ => Unit

inductive BufferError where
  | errno (code message : String)
  /-- `PartialMoveError` -/
  | partialMove (message : String)
  | plain (message : String)

def BufferError.message : BufferError → String
  | .errno _ message => message
  | .partialMove message => message
  | .plain message => message

def BufferError.isNoEntry : BufferError → Bool
  | .errno code _ => code = "ENOENT"
  | _ => false

abbrev BufferThread := Thread BufferCall BufferCall.Reply

abbrev BufferRoutine := Routine BufferCall BufferCall.Reply BufferError

def thrown {α : Type} : Except FileError α → Except BufferError α
  | .ok a => .ok a
  | .error e => .error (.errno e.code e.message)

def file (c : FileCall) : BufferRoutine c.Answer :=
  ExceptT.mk (Thread.call (.file c) fun r => .done (thrown r))

/-- `readFile` of a report that is to be written again. -/
def takeReport (location : BufferLocation) (seq : Nat) : BufferRoutine FileText :=
  ExceptT.mk (Thread.call (.take location seq) fun r => .done (thrown r))

def allot (seq : Nat) : BufferRoutine Unit :=
  ExceptT.mk (Thread.call (.allot seq) fun _ => .done (.ok ()))

/-- The report is not touched again, however the routine ends. -/
def settling {α : Type} (seq : Nat) (routine : BufferRoutine α) : BufferRoutine α :=
  ExceptT.mk (routine.run.bind fun outcome => .call (.settle seq) fun _ => .done outcome)

def enqueue {α : Type} (queue : QueueKey) (operation : BufferRoutine α) : BufferRoutine α :=
  ExceptT.mk (Thread.call (.enter queue) fun _ =>
    operation.run.bind fun outcome => .call (.leave queue) fun _ => .done outcome)

/-! ## Files -/

def asReport : FileText → BufferRoutine BufferSnapshot
  | .report report => pure report.snapshot
  | .garbled problem => throw (.plain problem)
  | _ => throw (.plain "Invalid input: not a buffer snapshot")

def asContext : FileText → BufferRoutine AgentContextSnapshot
  | .context context => pure context
  | .garbled problem => throw (.plain problem)
  | _ => throw (.plain "Invalid input: not an agent context snapshot")

def asMeta : FileText → BufferRoutine BufferMeta
  | .bufferMeta found => pure found
  | .garbled problem => throw (.plain problem)
  | _ => throw (.plain "Invalid input: not a buffer meta")

/-- First a temporary file, then `rename`. -/
def writeTextAtomic (path : BufferPath) (text : FileText) : BufferRoutine Unit := do
  file (.mkdir path.dir)
  file (.writeFile path.tmp text)
  try
    file (.rename path.tmp path)
  catch _ =>
    try
      file (.unlink path)
    catch _ =>
      pure ()
    file (.rename path.tmp path)

def removeMovedSource (source destination : BufferPath) : BufferRoutine Unit := do
  try
    file (.unlink source)
  catch e =>
    if e.isNoEntry then pure ()
    else
      throw (.partialMove ("Buffer was copied to " ++ destination.text
        ++ " but its source copy at " ++ source.text ++ " could not be removed (" ++ e.message
        ++ "); it currently exists in both partitions."))

def moveFile (source destination : BufferPath) (rewritten : Option FileText) :
    BufferRoutine Unit := do
  file (.mkdir destination.dir)
  match rewritten with
  | none =>
      try
        file (.rename source destination)
      catch _ =>
        let raw ← file (.readFile source)
        writeTextAtomic destination raw
        removeMovedSource source destination
  | some text =>
      writeTextAtomic destination text
      removeMovedSource source destination

def fileExists (path : BufferPath) : BufferRoutine Bool := do
  try
    let _ ← file (.readFile path)
    pure true
  catch _ =>
    pure false

def isReadableAgentContext (path : BufferPath) : BufferRoutine Bool := do
  try
    let raw ← file (.readFile path)
    let _ ← asContext raw
    pure true
  catch _ =>
    pure false

def alreadyMoved (e : BufferError) (destination : BufferPath) : BufferRoutine Bool :=
  if e.isNoEntry then fileExists destination else pure false

def moveFileIdempotent (source destination : BufferPath) : BufferRoutine Unit := do
  file (.mkdir destination.dir)
  try
    file (.rename source destination)
  catch e =>
    if ← alreadyMoved e destination then pure ()
    else
      try
        file (.unlink destination)
      catch _ =>
        pure ()
      file (.rename source destination)

def readEntriesIfPresent (location : BufferLocation) : BufferRoutine (List BufferPath) := do
  try
    file (.readdir location)
  catch _ =>
    pure []

/-! ## The meta file -/

structure BufferStoreScan where
  pendingCount : Nat := 0
  totalProcessed : Nat := 0
  totalDeadLetters : Nat := 0
  highestSeq : Nat := 0

def highestSeq (entries : List BufferPath) : Nat :=
  (entries.filterMap BufferPath.seq?).foldl max 0

def reportCount (entries : List BufferPath) : Nat :=
  (entries.filter BufferPath.isReport).length

def scanStore : BufferRoutine BufferStoreScan := do
  let pending ← readEntriesIfPresent .pending
  let processed ← readEntriesIfPresent .processed
  let deadLetter ← readEntriesIfPresent .deadLetter
  pure
    { pendingCount := reportCount pending
      totalProcessed := reportCount processed
      totalDeadLetters := reportCount deadLetter
      highestSeq := max (highestSeq pending) (max (highestSeq processed) (highestSeq deadLetter)) }

def readBufferMeta (roleId : String) : BufferRoutine BufferMeta := do
  try
    let raw ← file (.readFile metaPath)
    asMeta raw
  catch _ =>
    throw (.plain ("Buffer store not found for agent: " ++ roleId))

def readBufferMetaOrUndefined (roleId : String) : BufferRoutine (Option BufferMeta) := do
  try
    let found ← readBufferMeta roleId
    pure (some found)
  catch _ =>
    pure none

/-- The counts are those of the scan; the cursor only goes forward. -/
def deriveBufferMeta (current : Option BufferMeta) (scan : BufferStoreScan) (cursorAtLeast : Nat) :
    BufferMeta where
  pendingCount := scan.pendingCount
  cursor := max ((current.map (·.cursor)).getD 0) (max cursorAtLeast scan.highestSeq)
  totalProcessed := scan.totalProcessed
  totalDeadLetters := scan.totalDeadLetters

def writeDerivedBufferMeta (roleId : String) (cursorAtLeast : Nat) : BufferRoutine Unit := do
  let current ← readBufferMetaOrUndefined roleId
  let scan ← scanStore
  let next := deriveBufferMeta current scan cursorAtLeast
  if current = some next then pure ()
  else writeTextAtomic metaPath (.bufferMeta next)

def healBufferMeta (roleId : String) (cursorAtLeast : Nat) : BufferRoutine Unit := do
  try
    enqueue .bufferMeta (writeDerivedBufferMeta roleId cursorAtLeast)
  catch _ =>
    pure ()

/-! ## Saving -/

structure SaveBufferResult where
  seq : Nat
  snapshot : BufferSnapshot
  agentContext : Option AgentContextSnapshot := none

def storedContextOf (seq : Nat) (context : AgentContextSnapshot) : AgentContextSnapshot :=
  { context with
    driverCalls := context.driverCalls.map fun call =>
      { call with driverReturnRef := reportFileName seq } }

def storedSnapshotOf (seq : Nat) (snapshot : BufferSnapshot)
    (agentContext : Option AgentContextSnapshot) : BufferSnapshot :=
  match agentContext with
  | some _ => { snapshot with contextSnapshotRef := some (toString seq) }
  | none => snapshot

/-- The context is written first; without a report to go with it it is removed again. -/
def writeSavedFiles (roleId : String) (seq : Nat) (snapshot : BufferSnapshot)
    (agentContext : Option AgentContextSnapshot) : BufferRoutine Unit := do
  match agentContext with
  | some context =>
      writeTextAtomic (contextPath .pending seq) (.context context)
      healBufferMeta roleId seq
  | none => pure ()
  try
    writeTextAtomic (reportPath .pending seq) (.report { snapshot })
  catch e =>
    if agentContext.isSome then
      try
        file (.unlink (contextPath .pending seq))
      catch _ =>
        pure ()
    throw e

def writeBufferSnapshot (roleId : String) (snapshot : BufferSnapshot)
    (agentContext : Option AgentContextSnapshot) : BufferRoutine SaveBufferResult := do
  let found ← readBufferMeta roleId
  let scan ← scanStore
  let seq := max found.cursor scan.highestSeq + 1
  allot seq
  let storedSnapshot := storedSnapshotOf seq snapshot agentContext
  let storedAgentContext := agentContext.map (storedContextOf seq)
  settling seq (writeSavedFiles roleId seq storedSnapshot storedAgentContext)
  healBufferMeta roleId seq
  pure { seq, snapshot := storedSnapshot, agentContext := storedAgentContext }

def saveBufferSnapshot (roleId : String) (snapshot : BufferSnapshot)
    (agentContext : Option AgentContextSnapshot) : BufferRoutine SaveBufferResult :=
  enqueue .save (writeBufferSnapshot roleId snapshot agentContext)

/-! ## Rating and moving -/

def updateBufferRating (seq : Nat) (rating : UserRating) : BufferRoutine Unit := do
  let raw ←
    try
      takeReport .pending seq
    catch _ =>
      throw (.plain ("Pending buffer not found: seq=" ++ toString seq))
  settling seq do
    let snapshot ← asReport raw
    writeTextAtomic (reportPath .pending seq)
      (.report { snapshot := { snapshot with userRating := some rating } })

inductive MarkTarget where
  | processed | deadLetter
deriving DecidableEq

def MarkTarget.location : MarkTarget → BufferLocation
  | .processed => .processed
  | .deadLetter => .deadLetter

def MarkTarget.status : MarkTarget → ExtractionStatus
  | .processed => .processed
  | .deadLetter => .deadLetter

/-- The report as `markBuffer` writes it. -/
def rewrittenReport (snapshot : BufferSnapshot) (target : MarkTarget) (reason : Option String)
    (now : Time) : StoredReport :=
  let marked := { snapshot with extractionStatus := target.status }
  if target = .deadLetter ∧ reason.isSome then
    { snapshot := marked, deadLetterReason := reason, deadLetterAt := some now }
  else { snapshot := marked }

def moveBuffer (source destination : BufferLocation) (seq : Nat) (snapshot : BufferSnapshot)
    (rewritten : StoredReport) : BufferRoutine Unit := do
  if snapshot.contextSnapshotRef.isSome then
    moveFileIdempotent (contextPath source seq) (contextPath destination seq)
  moveFile (reportPath source seq) (reportPath destination seq) (some (.report rewritten))

def markBuffer (roleId : String) (seq : Nat) (target : MarkTarget) (reason : Option String)
    (now : Time) : BufferRoutine Unit := do
  let raw ←
    try
      takeReport .pending seq
    catch _ =>
      throw (.plain ("Pending buffer not found: seq=" ++ toString seq))
  settling seq do
    let snapshot ← asReport raw
    moveBuffer .pending target.location seq snapshot (rewrittenReport snapshot target reason now)
  healBufferMeta roleId 0

def markBufferProcessed (roleId : String) (seq : Nat) (now : Time) : BufferRoutine Unit :=
  markBuffer roleId seq .processed none now

def markBufferDeadLetter (roleId : String) (seq : Nat) (reason : Option String) (now : Time) :
    BufferRoutine Unit :=
  markBuffer roleId seq .deadLetter reason now

def restoreDeadLetter (roleId : String) (seq : Nat) : BufferRoutine Unit := do
  let raw ←
    try
      takeReport .deadLetter seq
    catch _ =>
      throw (.plain ("Dead-letter buffer not found: seq=" ++ toString seq))
  settling seq do
    let snapshot ← asReport raw
    let restored := { snapshot with extractionStatus := .pending }
    moveBuffer .deadLetter .pending seq snapshot { snapshot := restored }
  healBufferMeta roleId 0

/-! ## Reading -/

def readSnapshotIfPresent (path : BufferPath) : BufferRoutine (Option BufferSnapshot) := do
  let unreadable (e : BufferError) : BufferError :=
    .plain ("Unreadable buffer report at " ++ path.text ++ ": " ++ e.message)
  let raw ←
    try
      let raw ← file (.readFile path)
      pure (some raw)
    catch e =>
      if e.isNoEntry then pure none else throw (unreadable e)
  match raw with
  | none => pure none
  | some raw =>
      try
        let snapshot ← asReport raw
        pure (some snapshot)
      catch e =>
        throw (unreadable e)

/-- The context that belongs to a report, or what is wrong with it. -/
inductive AgentContextRead where
  | absent
  | present (context : AgentContextSnapshot)
  | unreadable (message : String)

def readAgentContextIfPresent (snapshot : BufferSnapshot) (seq : Nat) (path : BufferPath) :
    BufferRoutine AgentContextRead := do
  match snapshot.contextSnapshotRef with
  | none => pure .absent
  | some declaredRef =>
      if declaredRef ≠ toString seq then
        pure (.unreadable ("Agent context declared by context_snapshot_ref=" ++ declaredRef
          ++ " does not belong to Buffer seq=" ++ toString seq ++ "; refusing to bind "
          ++ path.text ++ " to it."))
      else
        let raw ←
          try
            let raw ← file (.readFile path)
            pure (Except.ok raw)
          catch e =>
            pure (.error ("Agent context declared by context_snapshot_ref=" ++ declaredRef
              ++ " is missing or unreadable at " ++ path.text ++ ": " ++ e.message))
        match raw with
        | .error message => pure (.unreadable message)
        | .ok raw =>
            try
              let context ← asContext raw
              pure (.present context)
            catch e =>
              pure (.unreadable ("Unreadable agent context at " ++ path.text ++ ": " ++ e.message))

structure StoredBuffer where
  snapshot : BufferSnapshot
  agentContext : AgentContextRead
  location : BufferLocation

/-- Look for the report in one partition after the other. -/
def findStoredBuffer (seq : Nat) : List BufferLocation → BufferRoutine (Option StoredBuffer)
  | [] => pure none
  | location :: rest => do
      match ← readSnapshotIfPresent (reportPath location seq) with
      | none => findStoredBuffer seq rest
      | some snapshot =>
          let agentContext ←
            readAgentContextIfPresent snapshot seq (contextPath location seq)
          pure (some { snapshot, agentContext, location })

def getStoredBuffer (seq : Nat) : BufferRoutine (Option StoredBuffer) :=
  findStoredBuffer seq BufferLocation.all

/-! ## Archiving -/

inductive BufferArchiveOutcome where
  | archived
  | alreadyArchived
  | notPending (location : BufferLocation) (message : String)
  | missing (message : String)
  | failed (message : String)

def bufferRef (roleId : String) (seq : Nat) : String :=
  roleId ++ ":" ++ toString seq

/-- Move a context that was left behind, if there is one that can be read. -/
def repairFrom (seq : Nat) : List BufferLocation → BufferRoutine Bool
  | [] => pure false
  | location :: rest => do
      if ← fileExists (contextPath location seq) then
        moveFileIdempotent (contextPath location seq) (contextPath .processed seq)
        if ← isReadableAgentContext (contextPath .processed seq) then pure true
        else repairFrom seq rest
      else repairFrom seq rest

def repairStrandedContext (seq : Nat) : BufferRoutine Bool := do
  if ← isReadableAgentContext (contextPath .processed seq) then pure true
  else repairFrom seq [.pending, .deadLetter]

/-- The report is in processed, and its context is not to be read there. -/
def classifyStrandedContext (roleId : String) (seq : Nat) (declaredRef reason : String) :
    BufferRoutine BufferArchiveOutcome := do
  let repaired ←
    try
      repairStrandedContext seq
    catch _ =>
      pure false
  if repaired then pure .archived
  else
    pure (.failed ("Buffer " ++ bufferRef roleId seq ++ " has its report in processed, but the "
      ++ "AgentContextSnapshot declared by context_snapshot_ref=" ++ declaredRef
      ++ " is in no partition, so the archive is incomplete (" ++ reason ++ ")."))

def classifyProcessedArchive (roleId : String) (seq : Nat) (stored : StoredBuffer)
    (reason : String) : BufferRoutine BufferArchiveOutcome :=
  match stored.snapshot.contextSnapshotRef, stored.agentContext with
  | none, _ => pure .alreadyArchived
  | some _, .present _ => pure .alreadyArchived
  | some declaredRef, _ => classifyStrandedContext roleId seq declaredRef reason

/-- Where the Buffer is, after it was not archived; nothing is known if it cannot be read. -/
def classifyLocated (roleId : String) (seq : Nat) (reason : String) :
    Except BufferError (Option StoredBuffer) → BufferRoutine BufferArchiveOutcome
  | .error e =>
      pure (.failed ("Buffer " ++ bufferRef roleId seq ++ " could not be archived (" ++ reason
        ++ "); locating it failed as well (" ++ e.message ++ ")."))
  | .ok none =>
      pure (.missing ("Buffer " ++ bufferRef roleId seq
        ++ " is in no partition, so there was nothing to archive (" ++ reason ++ ")."))
  | .ok (some stored) =>
      match stored.location with
      | .processed => classifyProcessedArchive roleId seq stored reason
      | .deadLetter =>
          pure (.notPending .deadLetter ("Buffer " ++ bufferRef roleId seq
            ++ " is dead-lettered, not pending, so archiving does not apply to it ("
            ++ reason ++ ")."))
      | .pending =>
          pure (.failed ("Buffer " ++ bufferRef roleId seq
            ++ " is still pending after the archive attempt: " ++ reason))

def locateBuffer (seq : Nat) : BufferRoutine (Except BufferError (Option StoredBuffer)) := do
  try
    let stored ← getStoredBuffer seq
    pure (.ok stored)
  catch e =>
    pure (.error e)

def classifyArchiveFailure (roleId : String) (seq : Nat) :
    BufferError → BufferRoutine BufferArchiveOutcome
  | .partialMove message =>
      pure (.failed ("Buffer " ++ bufferRef roleId seq ++ " archive is partial: " ++ message))
  | e => do
      let located ← locateBuffer seq
      classifyLocated roleId seq e.message located

def archiveBuffer (roleId : String) (seq : Nat) (now : Time) : BufferRoutine BufferArchiveOutcome :=
  enqueue (.buffer seq) do
    try
      markBufferProcessed roleId seq now
      pure .archived
    catch e =>
      classifyArchiveFailure roleId seq e

end Newide.Memory
