import Newide.Foundation.Tables
import Newide.Memory.AgentStores
import Mathlib.Data.List.Infix
import Mathlib.Data.List.Nodup
import Mathlib.Data.List.Range

/-!
# Extracting a Buffer

`processPendingBuffer` and `persistExtractedExperiences` of
`src/memory/services/memory-cycle.ts` on the in-memory repository.  Any
number of runs work on any Buffers; each makes the steps between its
awaits, whatever the Buffer repository, the extractor, the embedding
provider and the promotion answer it.  The journal of the calls is left
out, and the promotion answers without touching the Experiences, as the one
its caller passes does.
-/

namespace Newide.Memory

open Tables

/-! ## Stable ids -/

/-- The seed of the id of the `index`-th Experience of a Buffer. -/
def experienceSeed (roleId : String) (bufferSeq index : Nat) : String :=
  "newide:experience:" ++ roleId ++ "\x00" ++ toString bufferSeq ++ "\x00" ++ toString index

theorem separator_not_mem_digits (n : Nat) : '\x00' ∉ (toString n).toList := fun h =>
  absurd (isDigit_of_mem h) (by decide)

theorem separated_toList (lead seq index : String) :
    (lead ++ "\x00" ++ seq ++ "\x00" ++ index).toList =
      (lead.toList ++ '\x00' :: seq.toList) ++ '\x00' :: index.toList := by
  have hseparator : "\x00".toList = ['\x00'] := by decide
  rw [String.toList_append, String.toList_append, String.toList_append, String.toList_append,
    hseparator, List.append_assoc, List.append_assoc, List.append_assoc, List.append_assoc]
  rfl

theorem experienceSeed_toList (roleId : String) (seq index : Nat) :
    (experienceSeed roleId seq index).toList =
      (("newide:experience:" ++ roleId).toList ++ '\x00' :: (toString seq).toList) ++
        '\x00' :: (toString index).toList :=
  separated_toList _ _ _

theorem experienceSeed_injective {roleId roleId' : String} {seq seq' index index' : Nat}
    (h : experienceSeed roleId seq index = experienceSeed roleId' seq' index') :
    roleId = roleId' ∧ seq = seq' ∧ index = index' := by
  have hlist := congrArg String.toList h
  rw [experienceSeed_toList, experienceSeed_toList] at hlist
  obtain ⟨hfront, hindex⟩ := append_separator_inj hlist (separator_not_mem_digits index)
    (separator_not_mem_digits index')
  obtain ⟨hlead, hseq⟩ := append_separator_inj hfront (separator_not_mem_digits seq)
    (separator_not_mem_digits seq')
  rw [String.toList_append, String.toList_append] at hlead
  exact ⟨String.toList_inj.mp (List.append_cancel_left hlead), digits_injective hseq,
    digits_injective hindex⟩

structure ExtractionSetup where
  deterministicUuid : String → String
  dimensions : Nat

namespace ExtractionSetup

variable (setup : ExtractionSetup)

def stableExperienceId (roleId : String) (bufferSeq index : Nat) : String :=
  setup.deterministicUuid (experienceSeed roleId bufferSeq index)

/-- Another Buffer or another place has another id. -/
def StableIdsInjective : Prop :=
  ∀ roleId roleId' bufferSeq bufferSeq' index index',
    setup.stableExperienceId roleId bufferSeq index =
        setup.stableExperienceId roleId' bufferSeq' index' →
      roleId = roleId' ∧ bufferSeq = bufferSeq' ∧ index = index'

/-! ## Runs of `processPendingBuffer` -/

structure ExtractionOutput where
  experiences : List CandidateExperience
  skillsPromoted : Nat := 0
  warnings : Option (List String) := none

/-- What is read of a pending Buffer before it is extracted. -/
structure PendingBufferRead where
  agentContextStatus : String
  agentContextError : Option String := none

structure ProcessPendingResult where
  experiences : List StoredExperience
  skillsPromoted : Nat
  warnings : Option (List String)

inductive Phase where
  | reading
  | extracting
  /-- Between two Experiences, of which some are persisted and some of them created. -/
  | saving (persisted : List StoredExperience) (created : Nat)
  /-- In `saveExperienceIfAbsent`, at the await of the embedding. -/
  | embedding (persisted : List StoredExperience) (created : Nat) (candidate : StoredExperience)
  | promoting (result : ProcessPendingResult)
  | marking (result : ProcessPendingResult)
  | returned (result : ProcessPendingResult)
  | failed (message : String)

structure Run where
  roleId : String
  seq : Nat
  extraction : ExtractionOutput := { experiences := [] }
  phase : Phase := .reading

structure State where
  repo : InMemoryRepository
  runs : List Run := []

/-- An agent is created, a run begins, or an await of a run ends. -/
inductive Label where
  | ensureAgent (roleId : String)
  | begin (roleId : String) (seq : Nat)
  | read (run : Nat) (answer : Except String (Option PendingBufferRead))
  | extract (run : Nat) (answer : Except String ExtractionOutput)
  | save (run : Nat)
  | embed (run : Nat) (answer : Except String Embedding)
  | promote (run : Nat) (answer : Except String Bool)
  | mark (run : Nat) (answer : Except String Unit)

def assertContextUsable (roleId : String) (seq : Nat) (pending : PendingBufferRead) :
    Except String Unit :=
  if pending.agentContextStatus = "unreadable" then
    .error (pending.agentContextError.getD ("Agent context for Buffer " ++ roleId ++ ":" ++
      toString seq ++ " could not be read; refusing to extract from a partial input."))
  else .ok ()

/-- The start of `processPendingBuffer`, once the Buffer is read. -/
def afterRead (run : Run) : Except String (Option PendingBufferRead) → Run
  | .error message => { run with phase := .failed message }
  | .ok none =>
      { run with phase := .failed ("Pending buffer not found: seq=" ++ toString run.seq) }
  | .ok (some pending) =>
      match assertContextUsable run.roleId run.seq pending with
      | .error message => { run with phase := .failed message }
      | .ok () => { run with phase := .extracting }

def candidate (run : Run) (index : Nat) (experience : CandidateExperience) : StoredExperience :=
  { experience with
    id := setup.stableExperienceId run.roleId run.seq index
    agentId := run.roleId }

/-- The result `persistExtractedExperiences` gives, with the warning about what was there. -/
def persistedResult (run : Run) (persisted : List StoredExperience) (created : Nat) :
    ProcessPendingResult where
  experiences := persisted
  skillsPromoted := run.extraction.skillsPromoted
  warnings :=
    if 0 < run.extraction.experiences.length - created then
      some (run.extraction.warnings.getD [] ++
        [toString (run.extraction.experiences.length - created) ++
          " extracted experience(s) already existed for Buffer " ++ run.roleId ++ ":" ++
          toString run.seq ++ " and were not written again."])
    else run.extraction.warnings

/-- The next turn of the loop: `saveExperienceIfAbsent` up to its await. -/
def save (repo : InMemoryRepository) (run : Run) (persisted : List StoredExperience)
    (created : Nat) : Run :=
  match run.extraction.experiences[persisted.length]? with
  | none => { run with phase := .promoting (persistedResult run persisted created) }
  | some experience =>
      let candidate := setup.candidate run persisted.length experience
      match repo.requireStore run.roleId with
      | .error message => { run with phase := .failed message }
      | .ok store =>
          match store.experience? candidate.id with
          | some existing => { run with phase := .saving (persisted ++ [existing]) created }
          | none => { run with phase := .embedding persisted created candidate }

/-- `saveExperienceIfAbsent` after its await: look again, and write. -/
def saveEmbedded (repo : InMemoryRepository) (run : Run) (persisted : List StoredExperience)
    (created : Nat) (candidate : StoredExperience) (answer : Except String Embedding) :
    InMemoryRepository × Run :=
  match withDescriptionEmbedding setup.dimensions candidate.descriptionEmbedding answer with
  | .error message => (repo, { run with phase := .failed message })
  | .ok embedding =>
      let stored := { candidate with descriptionEmbedding := embedding }
      match repo.store? run.roleId with
      | none => (repo, run)
      | some store =>
          match store.experience? stored.id with
          | some raced => (repo, { run with phase := .saving (persisted ++ [raced]) created })
          | none => (repo.setStore run.roleId (store.pushExperience stored),
              { run with phase := .saving (persisted ++ [stored]) (created + 1) })

/-- What a run does when one of its awaits ends; an answer to another await does nothing. -/
def proceed (repo : InMemoryRepository) (run : Run) : Label → InMemoryRepository × Run
  | .read _ answer =>
      match run.phase with
      | .reading => (repo, afterRead run answer)
      | _ => (repo, run)
  | .extract _ answer =>
      match run.phase, answer with
      | .extracting, .ok extraction => (repo, { run with extraction, phase := .saving [] 0 })
      | .extracting, .error message => (repo, { run with phase := .failed message })
      | _, _ => (repo, run)
  | .save _ =>
      match run.phase with
      | .saving persisted created => (repo, setup.save repo run persisted created)
      | _ => (repo, run)
  | .embed _ answer =>
      match run.phase with
      | .embedding persisted created candidate =>
          setup.saveEmbedded repo run persisted created candidate answer
      | _ => (repo, run)
  | .promote _ answer =>
      match run.phase, answer with
      | .promoting result, .ok promoted => (repo, { run with
          phase := .marking (if promoted then { result with skillsPromoted := 1 } else result) })
      | .promoting _, .error message => (repo, { run with phase := .failed message })
      | _, _ => (repo, run)
  | .mark _ answer =>
      match run.phase, answer with
      | .marking result, .ok () => (repo, { run with phase := .returned result })
      | .marking _, .error message => (repo, { run with phase := .failed message })
      | _, _ => (repo, run)
  | .ensureAgent _ | .begin _ _ => (repo, run)

def Label.run? : Label → Option Nat
  | .ensureAgent _ | .begin _ _ => none
  | .read run _ | .extract run _ | .save run | .embed run _ | .promote run _ | .mark run _ =>
      some run

def next (s : State) (label : Label) : State :=
  match label with
  | .ensureAgent roleId => { s with repo := s.repo.ensureAgent roleId }
  | .begin roleId seq => { s with runs := s.runs ++ [{ roleId, seq }] }
  | label =>
      match label.run?.bind fun i => s.runs[i]?.map (i, ·) with
      | none => s
      | some (i, run) =>
          let proceeded := setup.proceed s.repo run label
          { repo := proceeded.1, runs := s.runs.set i proceeded.2 }

end ExtractionSetup

end Newide.Memory
