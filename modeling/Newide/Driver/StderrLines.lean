import Newide.Core
import Newide.Foundation.Utf8

/-!
# Events on the standard error of a command driver

The `data` and `close` handlers for stderr and `consumeStderrLine` of
`src/driver/command-driver-transport.ts`.  Every chunk is decoded on its
own, so a character that ends in the next chunk is replaced.  The lines
and the events are otherwise those of the whole text.
-/

namespace Newide.Driver

open Lines Utf8

/-! ## The handlers -/

/-- Without `created_at` the time is that of reading. -/
structure DriverStreamEvent where
  schemaVersion : String := "driver-event.v1"
  eventType : String
  payload : Option Json
  taskId : String
  runId : String
  roleId : Option String := none
  sessionId : Option String := none
  sequence : Int
  createdAt : Option String := none

structure PromptIds where
  taskId : String
  runId : String

structure StderrState where
  stderrPending : List Char := []
  eventSequence : Int := 0
  stderrChunks : List (List Char) := []
  events : List DriverStreamEvent := []

def driverEventPrefix : List Char := "NEWIDE_DRIVER_EVENT ".toList

section
variable (parse : String → Option Json) (input : PromptIds)

def emitStderr (text : List Char) (state : StderrState) : StderrState :=
  { state with
    eventSequence := state.eventSequence + 1
    stderrChunks := state.stderrChunks ++ [text]
    events := state.events ++ [
      { eventType := "stderr", payload := some (.str (String.ofList text)), taskId := input.taskId
        runId := input.runId, sequence := state.eventSequence + 1 }] }

def textField (fields : Payload) (key : String) : Option String :=
  (fields.get? key).bind Json.string?

def normalized (line : List Char) : List Char :=
  if line.getLast? = some '\r' then line.dropLast else line

def readRecord (line : List Char) : Option (String × Payload) :=
  if driverEventPrefix.isPrefixOf (normalized line) then
    match parse (String.ofList ((normalized line).drop driverEventPrefix.length)) with
    | some (.obj fields) =>
        (textField fields "event_type").map fun eventType => (eventType, fields)
    | _ => none
  else none

def consumeStderrLine (line : List Char) (terminatedByNewline : Bool) (state : StderrState) :
    StderrState :=
  match readRecord parse line with
  | none => emitStderr input (if terminatedByNewline then line ++ ['\n'] else line) state
  | some (eventType, fields) =>
      let numbered := match fields.get? "sequence" with
        | some (.num sequence) => (sequence, state.eventSequence)
        | _ => (state.eventSequence + 1, state.eventSequence + 1)
      let event : DriverStreamEvent :=
        { schemaVersion := (textField fields "schema_version").getD "driver-event.v1"
          eventType
          payload := fields.get? "payload"
          taskId := (textField fields "task_id").getD input.taskId
          runId := (textField fields "run_id").getD input.runId
          roleId := textField fields "role_id"
          sessionId := textField fields "session_id"
          sequence := numbered.1
          createdAt := textField fields "created_at" }
      -- the counter follows the numbers that the driver gives
      { state with
        eventSequence := max numbered.2 event.sequence
        events := state.events ++ [event] }

/-- `stderr.on('data')` -/
def onData (state : StderrState) (chunk : List UInt8) : StderrState :=
  let (lines, rest) := splitLines '\n' (state.stderrPending ++ decode chunk)
  { lines.foldl (fun state line => consumeStderrLine parse input line true state) state with
    stderrPending := rest }

structure ExitStatus where
  code : Option Int
  signal : Option String

/-- `child.once('close')`: a last line without an end is read, and the end of the process told. -/
def onClose (exit : ExitStatus) (state : StderrState) : StderrState :=
  let state :=
    if state.stderrPending = [] then state
    else consumeStderrLine parse input state.stderrPending false state
  { state with
    eventSequence := state.eventSequence + 1
    events := state.events ++ [
      { eventType := "disconnect"
        payload := some (.obj [("code", exit.code.elim .null .num),
          ("signal", Json.nullable exit.signal)])
        taskId := input.taskId, runId := input.runId, sequence := state.eventSequence + 1 }] }

def run (exit : ExitStatus) (chunks : List (List UInt8)) : StderrState :=
  onClose parse input exit (chunks.foldl (onData parse input) {})

end

/-- `this.stderr` -/
def StderrState.stderr (state : StderrState) : List Char := state.stderrChunks.flatten

/-! ## What is told -/

structure Told where
  eventType : String
  payload : Option Json
  taskId : String
  runId : String
  roleId : Option String
  sessionId : Option String

def DriverStreamEvent.told (event : DriverStreamEvent) : Told :=
  { eventType := event.eventType, payload := event.payload, taskId := event.taskId
    runId := event.runId, roleId := event.roleId, sessionId := event.sessionId }

structure Delivery where
  events : List Told
  stderr : List Char

def StderrState.delivery (state : StderrState) : Delivery :=
  { events := state.events.map DriverStreamEvent.told, stderr := state.stderr }

section
variable (parse : String → Option Json) (input : PromptIds)

/-- A line with its end, where it has one. -/
def lineText (line : List Char × Bool) : List Char :=
  if line.2 then line.1 ++ ['\n'] else line.1

def tell (line : List Char × Bool) : Told :=
  match readRecord parse line.1 with
  | none =>
      { eventType := "stderr", payload := some (.str (String.ofList (lineText line)))
        taskId := input.taskId, runId := input.runId, roleId := none, sessionId := none }
  | some (eventType, fields) =>
      { eventType
        payload := fields.get? "payload"
        taskId := (textField fields "task_id").getD input.taskId
        runId := (textField fields "run_id").getD input.runId
        roleId := textField fields "role_id"
        sessionId := textField fields "session_id" }

def diagnosticOf (line : List Char × Bool) : List Char :=
  match readRecord parse line.1 with
  | none => lineText line
  | some _ => []

def disconnected (exit : ExitStatus) : Told :=
  { eventType := "disconnect"
    payload := some (.obj [("code", exit.code.elim .null .num),
      ("signal", Json.nullable exit.signal)])
    taskId := input.taskId, runId := input.runId, roleId := none, sessionId := none }

/-- The lines of a text, the last one unless it is empty. -/
def linesOf (split : Split (List Char)) : List (List Char × Bool) :=
  split.1.map (fun line => (line, true)) ++ if split.2 = [] then [] else [(split.2, false)]

def deliveryOf (exit : ExitStatus) (text : List Char) : Delivery :=
  let lines := linesOf (splitLines '\n' text)
  { events := lines.map (tell parse input) ++ [disconnected input exit]
    stderr := lines.flatMap (diagnosticOf parse) }

end

/-! ## What a run tells -/

variable {line line' : List Char}

section
variable {parse : String → Option Json} {input : PromptIds} {exit : ExitStatus}
  {state : StderrState} {text : List Char}

theorem delivery_consume (line : List Char) (terminated : Bool) (state : StderrState) :
    (consumeStderrLine parse input line terminated state).delivery =
      { events := state.delivery.events ++ [tell parse input (line, terminated)]
        stderr := state.delivery.stderr ++ diagnosticOf parse (line, terminated) } := by
  unfold consumeStderrLine tell diagnosticOf
  cases readRecord parse line with
  | none =>
      simp [emitStderr, StderrState.delivery, StderrState.stderr, DriverStreamEvent.told, lineText]
  | some record => simp [StderrState.delivery, StderrState.stderr, DriverStreamEvent.told]

theorem delivery_lines (lines : List (List Char)) (state : StderrState) :
    (lines.foldl (fun state line => consumeStderrLine parse input line true state) state).delivery =
      { events := state.delivery.events ++
          (lines.map fun line => (line, true)).map (tell parse input)
        stderr := state.delivery.stderr ++
          (lines.map fun line => (line, true)).flatMap (diagnosticOf parse) } := by
  induction lines generalizing state with
  | nil => simp
  | cons line lines ih =>
      rw [List.foldl_cons, ih, delivery_consume]
      simp [List.append_assoc]

/-- The state after a text: its lines are told, what is behind the last end is pending. -/
structure Reads (parse : String → Option Json) (input : PromptIds) (state : StderrState)
    (text : List Char) : Prop where
  pending : state.stderrPending = (splitLines '\n' text).2
  delivery : state.delivery =
    { events := ((splitLines '\n' text).1.map fun line => (line, true)).map (tell parse input)
      stderr := ((splitLines '\n' text).1.map fun line => (line, true)).flatMap
        (diagnosticOf parse) }

theorem Reads.onData (h : Reads parse input state text) (chunk : List UInt8) :
    Reads parse input (onData parse input state chunk) (text ++ decode chunk) := by
  have hsplit := @splitLines_append _ _ '\n' text (decode chunk)
  refine ⟨?_, ?_⟩
  · rw [hsplit, ← h.pending]
    rfl
  · have hlines := @delivery_lines parse input
      (splitLines '\n' (state.stderrPending ++ decode chunk)).1 state
    rw [hsplit, ← h.pending, List.map_append, List.map_append, List.flatMap_append]
    rw [h.delivery] at hlines
    exact hlines

theorem Reads.run (h : Reads parse input state text) (chunks : List (List UInt8)) :
    Reads parse input (chunks.foldl (Driver.onData parse input) state)
      (text ++ chunks.flatMap decode) := by
  induction chunks generalizing state text with
  | nil =>
      rw [List.flatMap_nil, List.append_nil]
      exact h
  | cons chunk chunks ih =>
      rw [List.foldl_cons, List.flatMap_cons, ← List.append_assoc]
      exact ih (h.onData chunk)

theorem delivery_onClose (state : StderrState) :
    (onClose parse input exit state).delivery =
      { events := state.delivery.events ++
          (if state.stderrPending = [] then [] else [(state.stderrPending, false)]).map
            (tell parse input) ++ [disconnected input exit]
        stderr := state.delivery.stderr ++
          (if state.stderrPending = [] then [] else [(state.stderrPending, false)]).flatMap
            (diagnosticOf parse) } := by
  have hend (state : StderrState) (event : DriverStreamEvent) (count : Int) :
      ({ state with eventSequence := count, events := state.events ++ [event] } :
        StderrState).delivery =
        { state.delivery with events := state.delivery.events ++ [event.told] } := by
    simp [StderrState.delivery, StderrState.stderr]
  unfold onClose
  rw [hend]
  by_cases h : state.stderrPending = []
  · simp [h, DriverStreamEvent.told, disconnected]
  · simp only [if_neg h]
    rw [delivery_consume]
    simp [DriverStreamEvent.told, disconnected]

theorem delivery_run (chunks : List (List UInt8)) :
    (run parse input exit chunks).delivery =
      deliveryOf parse input exit (chunks.flatMap decode) := by
  have hinitial : Reads parse input {} [] := ⟨rfl, rfl⟩
  obtain ⟨hpending, hdelivery⟩ := hinitial.run chunks
  rw [List.nil_append] at hpending hdelivery
  rw [run, delivery_onClose, hpending, hdelivery, deliveryOf, linesOf]
  simp only [List.map_append, List.flatMap_append]

/-! ## The lines of the chunks and of the whole -/

def piecesOf (chunks : List (List UInt8)) : List (List (List UInt8) × Bool) :=
  let split := pieceLines 0x0A chunks
  split.1.map (fun pieces => (pieces, true)) ++
    if split.2.flatten = [] then [] else [(split.2, false)]

theorem linesOf_map {read : List (List UInt8) → List Char}
    (hread : ∀ pieces, read pieces = [] ↔ pieces.flatten = []) (chunks : List (List UInt8)) :
    linesOf ((pieceLines 0x0A chunks).map read) =
      (piecesOf chunks).map fun line => (read line.1, line.2) := by
  rw [linesOf, piecesOf, Split.map]
  by_cases h : (pieceLines 0x0A chunks).2.flatten = []
  · simp [h, (hread _).mpr h]
  · simp [h, mt (hread _).mp h]

theorem linesOf_chunks (chunks : List (List UInt8)) :
    linesOf (splitLines '\n' (chunks.flatMap decode)) =
      (piecesOf chunks).map fun line => (line.1.flatMap decode, line.2) := by
  rw [splitLines_chunks]
  refine linesOf_map (fun pieces => ?_) chunks
  constructor
  · intro h
    have houtline := outline_pieces pieces
    rw [h] at houtline
    exact decode_eq_nil (outline_eq_nil houtline.symm)
  · intro h
    refine List.flatMap_eq_nil_iff.mpr fun piece hpiece => ?_
    rw [List.flatten_eq_nil_iff.mp h piece hpiece]
    rfl

theorem linesOf_whole (chunks : List (List UInt8)) :
    linesOf (splitLines '\n' (decode chunks.flatten)) =
      (piecesOf chunks).map fun line => (decode line.1.flatten, line.2) := by
  rw [splitLines_decode]
  refine linesOf_map (fun pieces => ?_) chunks
  exact ⟨decode_eq_nil, fun h => by rw [h]; rfl⟩

/-! ## When chunks are told as the whole -/

def namesEvent : Option Json → Bool
  | some (.obj fields) => (textField fields "event_type").isSome
  | _ => false

/-- A line is told as if it had come in one piece: a diagnostic line has no cut character, an
event read from the pieces is the same. -/
def ToldWhole (parse : String → Option Json) (input : PromptIds)
    (line : List (List UInt8) × Bool) : Prop :=
  match readRecord parse (decode line.1.flatten) with
  | none => Uncut line.1
  | some _ => tell parse input (line.1.flatMap decode, line.2) =
      tell parse input (decode line.1.flatten, line.2)

theorem readRecord_isSome (line : List Char) : (readRecord parse line).isSome =
    (driverEventPrefix.isPrefixOf (normalized line) &&
      namesEvent (parse (String.ofList ((normalized line).drop driverEventPrefix.length)))) := by
  unfold readRecord
  split
  · rename_i hreserved
    rw [hreserved, Bool.true_and]
    cases parse (String.ofList ((normalized line).drop driverEventPrefix.length)) with
    | none => rfl
    | some value =>
        cases value with
        | obj fields => simp [namesEvent]
        | _ => rfl
  · rename_i hreserved
    rw [Bool.eq_false_iff.mpr hreserved]
    rfl

theorem normalized_outline (h : outline line = outline line') :
    outline (normalized line) = outline (normalized line') := by
  have hended (line line' : List Char) (h : outline line = outline line')
      (hlast : line.getLast? = some '\r') :
      line'.getLast? = some '\r' ∧ outline line.dropLast = outline line'.dropLast := by
    have hline := List.dropLast_append_getLast? _ hlast
    rw [← hline, outline_concat _ (by decide)] at h
    obtain ⟨rest, rfl, hrest⟩ := eq_concat_of_outline h.symm
    rw [List.dropLast_concat, hrest]
    exact ⟨List.getLast?_concat, rfl⟩
  unfold normalized
  by_cases hlast : line.getLast? = some '\r'
  · obtain ⟨hlast', hrest⟩ := hended line line' h hlast
    rw [if_pos hlast, if_pos hlast']
    exact hrest
  · have hlast' : line'.getLast? ≠ some '\r' := fun hlast' =>
      hlast (hended line' line h.symm hlast').1
    rw [if_neg hlast, if_neg hlast']
    exact h

theorem reserved_outline (h : outline line = outline line')
    (hreserved : driverEventPrefix.isPrefixOf line) : driverEventPrefix.isPrefixOf line' ∧
      outline (line.drop driverEventPrefix.length) =
        outline (line'.drop driverEventPrefix.length) := by
  obtain ⟨rest, rfl⟩ := List.isPrefixOf_iff_prefix.mp hreserved
  have hall : (driverEventPrefix.all fun c => c.toNat < 0x80) = true := rfl
  have hascii : ∀ c ∈ driverEventPrefix, c.toNat < 0x80 := by simpa using hall
  rw [outline_append_ascii hascii] at h
  obtain ⟨rest', rfl, hrest⟩ := eq_append_of_outline h.symm
  have hreserved' : driverEventPrefix.isPrefixOf (driverEventPrefix ++ rest') :=
    List.isPrefixOf_iff_prefix.mpr (List.prefix_append _ _)
  rw [List.drop_left, List.drop_left]
  exact ⟨hreserved', hrest.symm⟩

variable (hparse : ∀ text text', outline text = outline text' →
  namesEvent (parse (String.ofList text)) = namesEvent (parse (String.ofList text')))

include hparse

theorem readRecord_outline (h : outline line = outline line') :
    (readRecord parse line).isSome = (readRecord parse line').isSome := by
  have hnormalized := normalized_outline h
  rw [readRecord_isSome, readRecord_isSome]
  by_cases hreserved : driverEventPrefix.isPrefixOf (normalized line)
  · obtain ⟨hreserved', hrest⟩ := reserved_outline hnormalized hreserved
    rw [hreserved, hreserved', hparse _ _ hrest]
  · have hreserved' : ¬ driverEventPrefix.isPrefixOf (normalized line') := fun hreserved' =>
      hreserved (reserved_outline hnormalized.symm hreserved').1
    rw [Bool.eq_false_iff.mpr hreserved, Bool.eq_false_iff.mpr hreserved']
    rfl

theorem diagnosticOf_congr {line line' : List Char × Bool}
    (hkind : outline line.1 = outline line'.1)
    (h : tell parse input line = tell parse input line') :
    diagnosticOf parse line = diagnosticOf parse line' := by
  have hrecords := readRecord_outline hparse hkind
  unfold tell at h
  unfold diagnosticOf
  cases hrecord : readRecord parse line.1 with
  | none =>
      rw [hrecord] at hrecords
      have hrecord' : readRecord parse line'.1 = none :=
        Option.isNone_iff_eq_none.mp (Option.isSome_eq_false_iff.mp hrecords.symm)
      rw [hrecord, hrecord'] at h
      rw [hrecord']
      simpa [String.ofList_inj] using h
  | some record =>
      rw [hrecord] at hrecords
      have hrecord' : ∃ record', readRecord parse line'.1 = some record' :=
        Option.isSome_iff_exists.mp hrecords.symm
      obtain ⟨record', hrecord'⟩ := hrecord'
      rw [hrecord']

theorem toldWhole_iff (line : List (List UInt8) × Bool) :
    ToldWhole parse input line ↔ tell parse input (line.1.flatMap decode, line.2) =
      tell parse input (decode line.1.flatten, line.2) := by
  have hkind := readRecord_outline hparse (outline_pieces line.1)
  unfold ToldWhole
  cases hwhole : readRecord parse (decode line.1.flatten) with
  | none =>
      have hpieces : readRecord parse (line.1.flatMap decode) = none := by
        rw [hwhole] at hkind
        exact Option.isNone_iff_eq_none.mp (Option.isSome_eq_false_iff.mp hkind)
      have htext : line.1.flatMap decode = decode line.1.flatten ↔
          lineText (line.1.flatMap decode, line.2) = lineText (decode line.1.flatten, line.2) := by
        unfold lineText
        split
        · exact (List.append_left_inj _).symm
        · exact Iff.rfl
      dsimp only
      rw [← decode_pieces_iff, htext]
      simp [tell, hpieces, hwhole, String.ofList_inj]
  | some record => exact Iff.rfl

theorem told_whole_iff (chunks : List (List UInt8)) :
    (run parse input exit chunks).delivery =
        deliveryOf parse input exit (decode chunks.flatten) ↔
      ∀ line ∈ piecesOf chunks, ToldWhole parse input line := by
  have hevents : (∀ line ∈ piecesOf chunks, ToldWhole parse input line) ↔
      (piecesOf chunks).map (fun line => tell parse input (line.1.flatMap decode, line.2)) =
        (piecesOf chunks).map (fun line => tell parse input (decode line.1.flatten, line.2)) := by
    rw [List.map_inj_left]
    exact forall₂_congr fun line _ => toldWhole_iff hparse line
  rw [delivery_run, deliveryOf, deliveryOf, linesOf_chunks, linesOf_whole, hevents,
    Delivery.mk.injEq]
  rw [List.map_map, List.map_map, List.append_cancel_right_eq, List.flatMap_map, List.flatMap_map]
  constructor
  · exact fun h => h.1
  · intro h
    refine ⟨h, List.flatMap_congr fun line hline => ?_⟩
    exact diagnosticOf_congr hparse (outline_pieces line.1) (List.map_inj_left.mp h line hline)

/-- Two splits of one text are told as its lines if and only if in both every diagnostic line has
no cut character and every event line tells the same event as in one piece. -/
theorem stderr_framing_iff (chunks chunks' : List (List UInt8))
    (hbytes : chunks.flatten = chunks'.flatten) :
    ((run parse input exit chunks).delivery =
          deliveryOf parse input exit (decode chunks.flatten) ∧
        (run parse input exit chunks').delivery =
          deliveryOf parse input exit (decode chunks.flatten)) ↔
      (∀ line ∈ piecesOf chunks, ToldWhole parse input line) ∧
        ∀ line ∈ piecesOf chunks', ToldWhole parse input line := by
  have hfirst := @told_whole_iff parse input exit hparse chunks
  have hsecond := @told_whole_iff parse input exit hparse chunks'
  rw [← hbytes] at hsecond
  rw [hfirst, hsecond]

end

/-! ## A cut character -/

def startedText : String := "\x7b\"event_type\":\"driver.turn_started\"\x7d"

/-- `JSON.parse` where one text is valid. -/
def parseStarted (text : String) : Option Json :=
  if text = startedText then
    some (.obj [("event_type", .str "driver.turn_started")])
  else none

def startedLine : List UInt8 :=
  (driverEventPrefix ++ startedText.toList ++ ['\n']).map fun c => UInt8.ofNat c.toNat

def taskIds : PromptIds := ⟨"task-1", "run-1"⟩

theorem stderr_framing_started :
    ((run parseStarted taskIds ⟨some 0, none⟩ [startedLine ++ [0xC3], [0xA9, 0x0A]]).delivery =
          deliveryOf parseStarted taskIds ⟨some 0, none⟩
            (decode [startedLine ++ [0xC3], [0xA9, 0x0A]].flatten) ∧
        (run parseStarted taskIds ⟨some 0, none⟩ [startedLine, [0xC3, 0xA9, 0x0A]]).delivery =
          deliveryOf parseStarted taskIds ⟨some 0, none⟩
            (decode [startedLine ++ [0xC3], [0xA9, 0x0A]].flatten)) ↔
      (∀ line ∈ piecesOf [startedLine ++ [0xC3], [0xA9, 0x0A]],
          ToldWhole parseStarted taskIds line) ∧
        ∀ line ∈ piecesOf [startedLine, [0xC3, 0xA9, 0x0A]],
          ToldWhole parseStarted taskIds line := by
  have hall : (startedText.toList.all fun c => c.toNat < 0x80) = true := rfl
  have hascii : ∀ c ∈ startedText.toList, c.toNat < 0x80 := by simpa using hall
  have hread (text text' : List Char) (h : outline text = outline text')
      (htext : String.ofList text = startedText) :
      String.ofList text' = String.ofList text := by
    have hlist : text = startedText.toList := by
      rw [← htext, String.toList_ofList]
    rw [hlist, ← List.append_nil (String.toList _), outline_append_ascii hascii] at h
    obtain ⟨rest, hrest, hnil⟩ := eq_append_of_outline h.symm
    rw [hrest, outline_eq_nil hnil, hlist, List.append_nil]
  refine stderr_framing_iff (fun text text' h => ?_) _ _ (by simp)
  unfold parseStarted
  by_cases htext : String.ofList text = startedText
  · rw [hread text text' h htext]
  · have htext' : String.ofList text' ≠ startedText :=
      fun htext' => htext ((hread text' text h.symm htext').trans htext')
    rw [if_neg htext, if_neg htext']

/-- A diagnostic line with a character of two bytes, cut between them. -/
theorem cut_character_replaced :
    [[0xC3, 0xA9, 0x0A]].flatten = ([[0xC3], [0xA9, 0x0A]] : List (List UInt8)).flatten ∧
      (run parseStarted taskIds ⟨some 0, none⟩ [[0xC3, 0xA9, 0x0A]]).delivery.stderr =
        ['é', '\n'] ∧
      (run parseStarted taskIds ⟨some 0, none⟩ [[0xC3], [0xA9, 0x0A]]).delivery.stderr =
        [replacement, replacement, '\n'] ∧
      ¬ (run parseStarted taskIds ⟨some 0, none⟩ [[0xC3, 0xA9, 0x0A]]).delivery.stderr =
        (run parseStarted taskIds ⟨some 0, none⟩ [[0xC3], [0xA9, 0x0A]]).delivery.stderr :=
  ⟨rfl, rfl, rfl, by decide⟩

end Newide.Driver
