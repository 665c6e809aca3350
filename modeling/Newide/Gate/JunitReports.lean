import Newide.Gate.JunitText

/-!
# JUnit reports

What `parseJunit` finds in the report of a list of test cases.  An element
that closes itself is read as the opening of what follows it, up to the
next closing tag, and `name` is also found inside of `classname`.
-/

namespace Newide.Gate.Junit

open Hook

/-! ## Reports -/

inductive Outcome where
  | passed
  | failed
  | errored
deriving Repr, DecidableEq

structure TestCase where
  name : List Char
  className : List Char
  outcome : Outcome
  /-- The attribute `name` is written before `classname`. -/
  nameFirst : Bool
deriving Repr, DecidableEq

def writtenChar (c : Char) : List Char :=
  if c = '<' then "&lt;".toList
  else if c = '>' then "&gt;".toList
  else if c = '&' then "&amp;".toList
  else if c = '"' then "&quot;".toList
  else [c]

def written (value : List Char) : List Char := value.flatMap writtenChar

def writtenAttribute (key value : List Char) : List Char :=
  ' ' :: key ++ '=' :: '"' :: (written value ++ ['"'])

namespace TestCase

def attributes (case : TestCase) : List Char :=
  if case.nameFirst then
    writtenAttribute "name".toList case.name ++ writtenAttribute "classname".toList case.className
  else writtenAttribute "classname".toList case.className ++ writtenAttribute "name".toList case.name

def inner (case : TestCase) : List Char :=
  match case.outcome with
  | .passed => []
  | .failed => "<failure/>".toList
  | .errored => "<error/>".toList

def openTag (case : TestCase) : List Char := '<' :: "testcase".toList ++ case.attributes

/-- The element of a case; that of a passing one closes itself. -/
def render (case : TestCase) : List Char :=
  match case.outcome with
  | .passed => case.openTag ++ "/>".toList
  | _ => case.openTag ++ '>' :: case.inner ++ "</testcase>".toList

def isFailing (case : TestCase) : Bool := decide (case.outcome ≠ .passed)

end TestCase

def count (outcome : Outcome) (cases : List TestCase) : Nat :=
  (cases.filter fun case => case.outcome = outcome).length

def suiteAttributes (cases : List TestCase) : List Char :=
  " tests=\"".toList ++ (toString cases.length).toList ++
    "\" failures=\"".toList ++ (toString (count .failed cases)).toList ++
    "\" errors=\"".toList ++ (toString (count .errored cases)).toList ++ ['"']

def casesText (cases : List TestCase) : List Char :=
  cases.flatMap TestCase.render ++ "</testsuite>".toList

def report (cases : List TestCase) : List Char :=
  '<' :: "testsuite".toList ++ suiteAttributes cases ++ '>' :: casesText cases

def failureOf (className name : List Char) : Finding where
  severity := .string "error"
  message := .string (String.ofList (className ++ '.' :: name ++ " failed".toList))
  file := some (.string (String.ofList (className.map fun c => if c = '.' then '/' else c)))

/-! ## What the attributes of a case are read as -/

def readName (case : TestCase) : List Char :=
  if case.nameFirst then written case.name else written case.className

def readClass (case : TestCase) : List Char :=
  if case.nameFirst && endsInAttribute "classname" (written case.name) then " classname=".toList
  else written case.className

variable {case head : TestCase} {cases : List TestCase} {text : List Char} {c : Char}

theorem writtenChar_chars (d : Char) : ∀ c ∈ writtenChar d, c ≠ '<' ∧ c ≠ '>' ∧ c ≠ '"' := by
  have hlt : ∀ c ∈ "&lt;".toList, c ≠ '<' ∧ c ≠ '>' ∧ c ≠ '"' := by simp
  have hgt : ∀ c ∈ "&gt;".toList, c ≠ '<' ∧ c ≠ '>' ∧ c ≠ '"' := by simp
  have hamp : ∀ c ∈ "&amp;".toList, c ≠ '<' ∧ c ≠ '>' ∧ c ≠ '"' := by simp
  have hquot : ∀ c ∈ "&quot;".toList, c ≠ '<' ∧ c ≠ '>' ∧ c ≠ '"' := by simp
  unfold writtenChar
  by_cases hless : d = '<'
  · rw [if_pos hless]
    exact hlt
  rw [if_neg hless]
  by_cases hgreater : d = '>'
  · rw [if_pos hgreater]
    exact hgt
  rw [if_neg hgreater]
  by_cases hand : d = '&'
  · rw [if_pos hand]
    exact hamp
  rw [if_neg hand]
  by_cases hquote : d = '"'
  · rw [if_pos hquote]
    exact hquot
  rw [if_neg hquote]
  intro c hc
  rw [List.mem_singleton.mp hc]
  exact ⟨hless, hgreater, hquote⟩

theorem written_chars (value : List Char) :
    ∀ c ∈ written value, c ≠ '<' ∧ c ≠ '>' ∧ c ≠ '"' := by
  intro c hc
  obtain ⟨d, _, hd⟩ := List.mem_flatMap.mp hc
  exact writtenChar_chars d c hd

theorem quote_not_written (value : List Char) : '"' ∉ written value :=
  fun h => (written_chars value _ h).2.2 rfl

theorem quotedAfter_here (key rest : List Char) :
    (do
      let rest ← afterLiteral key (key ++ '=' :: '"' :: rest)
      match rest.dropWhile isTrimmed with
      | '=' :: rest =>
          match rest.dropWhile isTrimmed with
          | '"' :: rest => some rest
          | _ => none
      | _ => none) = some rest := by
  rw [afterLiteral_append]
  rfl

theorem readAttribute_written (key : String) (value rest : List Char) :
    readAttribute key (key.toList ++ '=' :: '"' :: (written value ++ '"' :: rest)) =
      some (written value) :=
  readAttribute_of_quoted (quote_not_written value) (quotedAfter_here key.toList _)

theorem writtenAttribute_append (key value rest : List Char) :
    writtenAttribute key value ++ rest = ' ' :: (key ++ '=' :: '"' :: (written value ++ '"' :: rest)) := by
  unfold writtenAttribute
  simp

theorem extractStrAttr_name (case : TestCase) (tail : List Char) :
    extractStrAttr (case.attributes ++ tail) "name" = readName case := by
  rw [extractStrAttr_eq]
  unfold TestCase.attributes readName
  cases hfirst : case.nameFirst with
  | true =>
      rw [if_pos rfl, if_pos rfl, List.append_assoc, writtenAttribute_append]
      rw [searchText_cons_none rfl, searchText_here (readAttribute_written "name" case.name _)]
      rfl
  | false =>
      have hno : ¬ false = true := by decide
      rw [if_neg hno, if_neg hno, List.append_assoc, writtenAttribute_append]
      have hfound := searchText_here (readAttribute_written "name" case.className
        (writtenAttribute "name".toList case.name ++ tail))
      change (searchText (readAttribute "name") ("name".toList ++ _)).getD [] = _
      rw [hfound]
      rfl

/-- The first match of `classname` is the class, but for names that end like its beginning. -/
theorem extractStrAttr_classname (case : TestCase) (tail : List Char) :
    extractStrAttr (case.attributes ++ tail) "classname" = readClass case := by
  rw [extractStrAttr_eq]
  unfold TestCase.attributes readClass
  cases hfirst : case.nameFirst with
  | false =>
      have hno : ¬ false = true := by decide
      rw [if_neg hno, List.append_assoc, writtenAttribute_append]
      rw [searchText_cons_none rfl,
        searchText_here (readAttribute_written "classname" case.className _)]
      rfl
  | true =>
      rw [if_pos rfl, List.append_assoc, writtenAttribute_append]
      have hvalue := @searchText_value (written case.name) "classname" " classname=".toList
        (by decide) (quote_not_written _) (by decide) (written case.className ++ '"' :: tail)
      have hfound := searchText_here (readAttribute_written "classname" case.className tail)
      have hname : "name".toList = ['n', 'a', 'm', 'e'] := rfl
      have hclass : ' ' :: ("classname".toList ++ '=' :: '"' :: (written case.className ++ '"' :: tail)) =
          " classname=".toList ++ '"' :: (written case.className ++ '"' :: tail) := rfl
      rw [writtenAttribute_append, hclass, hname, List.cons_append, List.cons_append,
        List.cons_append, List.cons_append, List.nil_append]
      -- nothing of this attribute begins before its value
      rw [searchText_cons_none rfl, searchText_cons_none rfl, searchText_cons_none rfl,
        searchText_cons_none rfl, searchText_cons_none rfl, searchText_cons_none rfl,
        searchText_cons_none rfl, hvalue, Bool.true_and]
      by_cases hends : endsInAttribute "classname" (written case.name) = true
      · rw [if_pos hends, if_pos hends]
        rfl
      · rw [if_neg hends, if_neg hends, ← hclass, searchText_cons_none rfl,
          searchText_cons_none rfl, hfound]
        rfl

/-! ## The finding of an element -/

theorem attributes_no_tag (case : TestCase) :
    '<' ∉ case.attributes ∧ '>' ∉ case.attributes := by
  have hattribute : ∀ key value : List Char, (∀ c ∈ key, c ≠ '<' ∧ c ≠ '>') →
      ∀ c ∈ writtenAttribute key value, c ≠ '<' ∧ c ≠ '>' := by
    intro key value hkey c hc
    unfold writtenAttribute at hc
    rw [List.cons_append, List.mem_cons, List.mem_append, List.mem_cons, List.mem_cons,
      List.mem_append, List.mem_singleton] at hc
    rcases hc with rfl | hc | rfl | rfl | hc | rfl
    · decide
    · exact hkey c hc
    · decide
    · decide
    · exact ⟨(written_chars value c hc).1, (written_chars value c hc).2.1⟩
    · decide
  have hall : ∀ c ∈ case.attributes, c ≠ '<' ∧ c ≠ '>' := by
    intro c hc
    have hname := hattribute "name".toList case.name (by simp)
    have hclass := hattribute "classname".toList case.className (by simp)
    unfold TestCase.attributes at hc
    split at hc
    · exact (List.mem_append.mp hc).elim (hname c) (hclass c)
    · exact (List.mem_append.mp hc).elim (hclass c) (hname c)
  exact ⟨fun h => (hall _ h).1 rfl, fun h => (hall _ h).2 rfl⟩

theorem openTag_calm (case : TestCase) : Calm case.openTag := by
  have hno : '<' ∉ "testcase".toList ++ case.attributes := by
    intro h
    rcases List.mem_append.mp h with h | h
    · revert h
      decide
    · exact (attributes_no_tag case).1 h
  exact ⟨fun _ => by decide, Calm.of_no_tag hno⟩

theorem inner_calm (case : TestCase) : Calm case.inner := by
  have hfailure : Calm "<failure/>".toList := ⟨fun _ => by decide, Calm.of_no_tag (by decide)⟩
  have herror : Calm "<error/>".toList := ⟨fun _ => by decide, Calm.of_no_tag (by decide)⟩
  unfold TestCase.inner
  cases case.outcome with
  | passed => trivial
  | failed => exact hfailure
  | errored => exact herror

theorem render_calm (h : case.outcome = .passed) : Calm case.render := by
  unfold TestCase.render
  rw [h]
  exact (openTag_calm case).append (Calm.of_no_tag (by decide))

theorem renders_calm (h : ∀ case ∈ cases, case.outcome = .passed) :
    Calm (cases.flatMap TestCase.render) := by
  induction cases with
  | nil => trivial
  | cons case cases ih =>
      rw [List.flatMap_cons]
      exact (render_calm (h case List.mem_cons_self)).append
        (ih fun other hmem => h other (List.mem_cons_of_mem case hmem))

theorem bodyText_of_calm (name : String) (h : Calm text) : bodyText name text = none := by
  have hnone : searchText (element name false) text = none := by
    refine searchText_eq_none fun before after htext => element_none ?_
    have hall : splitLiteral ("</" ++ name ++ ">").toList text = none := by
      have hclose : ("</" ++ name ++ ">").toList = '<' :: '/' :: (name ++ ">").toList := by
        rw [String.append_assoc, String.toList_append]
        rfl
      rw [hclose]
      exact splitLiteral_of_calm h
    rw [htext] at hall
    exact splitLiteral_none_of_suffix hall
  unfold bodyText
  rw [hnone]

variable {name : String} {first : Char}

theorem opens_of_suffix {before after : List Char} (h : atBoundary after = true) :
    opens name (before ++ ('<' :: name.toList ++ after)) = true := by
  unfold opens
  refine searchText_isSome ?_
  rw [afterLiteral_append]
  change (if atBoundary after = true then some () else none).isSome = true
  rw [if_pos h]
  rfl

theorem testcaseFinding_eq (head : TestCase) (tail before : List Char) (hfailing : case.outcome ≠ .passed)
    (hcalm : Calm before) :
    testcaseFinding (head.attributes ++ tail) (before ++ case.inner) =
      some (failureOf (readClass head) (readName head)) := by
  have hopens : (opens "failure" (before ++ case.inner) ||
      opens "error" (before ++ case.inner)) = true := by
    unfold TestCase.inner
    cases houtcome : case.outcome with
    | passed => exact absurd houtcome hfailing
    | failed =>
        have hfailure := @opens_of_suffix "failure" before "/>".toList rfl
        exact Bool.or_eq_true_iff.mpr (.inl hfailure)
    | errored =>
        have herror := @opens_of_suffix "error" before "/>".toList rfl
        exact Bool.or_eq_true_iff.mpr (.inr herror)
  have hbody := hcalm.append (inner_calm case)
  unfold testcaseFinding
  dsimp only
  rw [if_pos hopens, bodyText_of_calm "failure" hbody, bodyText_of_calm "error" hbody,
    extractStrAttr_name, extractStrAttr_classname]
  rfl

/-! ## The findings of a report -/

/-- For each failing case in order, the case whose opening tag it is read with: the first of the
passing ones that stand directly before it, or else its own. -/
def heads : Option TestCase → List TestCase → List (TestCase × TestCase)
  | _, [] => []
  | pending, case :: cases =>
      if case.outcome = .passed then heads (pending.or (some case)) cases
      else (pending.getD case, case) :: heads none cases

def findingsIn (text : List Char) : List Finding :=
  (allIn (readElement "testcase") text).filterMap fun found => testcaseFinding found.1 found.2

def findingOf (head : TestCase) : Finding := failureOf (readClass head) (readName head)

theorem heads_failing (pending : Option TestCase) (cases : List TestCase) :
    (heads pending cases).map Prod.snd = cases.filter TestCase.isFailing := by
  induction cases generalizing pending with
  | nil => rfl
  | cons case cases ih =>
      unfold heads
      by_cases hpassed : case.outcome = .passed
      · have hnot : ¬ case.isFailing = true := fun h => of_decide_eq_true h hpassed
        rw [if_pos hpassed, ih, List.filter_cons_of_neg hnot]
      · have hfailing : case.isFailing = true := decide_eq_true hpassed
        rw [if_neg hpassed, List.map_cons, ih, List.filter_cons_of_pos hfailing]

theorem atBoundary_attributes (case : TestCase) (tail : List Char) :
    atBoundary (case.attributes ++ tail) = true := by
  unfold TestCase.attributes
  cases case.nameFirst <;> rfl

theorem readElement_here {attrs body : List Char} (hattrs : '>' ∉ attrs)
    (hboundary : atBoundary (attrs ++ ['>']) = true) (hcalm : Calm body) (rest : List Char) :
    readElement "testcase" ('<' :: "testcase".toList ++ attrs ++
      '>' :: (body ++ ("</testcase>".toList ++ rest))) = some ((attrs, body), rest) := by
  have hclose : "</testcase>".toList = '<' :: '/' :: "testcase>".toList := rfl
  have hsplit : splitLiteral ("</" ++ "testcase" ++ ">").toList
      (body ++ ("</testcase>".toList ++ rest)) = some (body, rest) := by
    change splitLiteral ('<' :: '/' :: "testcase>".toList) _ = _
    rw [splitLiteral_calm hcalm, hclose, splitLiteral_here, Option.map_some, List.append_nil]
  unfold readElement element
  rw [openingTag_here hattrs hboundary]
  dsimp only
  rw [hsplit]
  rfl

theorem findingsIn_failing (hfailing : case.outcome ≠ .passed) (rest : List Char) :
    findingsIn (case.render ++ rest) = findingOf case :: findingsIn rest := by
  have hrender : case.render ++ rest = '<' :: "testcase".toList ++ case.attributes ++
      '>' :: (case.inner ++ ("</testcase>".toList ++ rest)) := by
    unfold TestCase.render TestCase.openTag
    cases houtcome : case.outcome with
    | passed => exact absurd houtcome hfailing
    | failed => simp
    | errored => simp
  have hread := readElement_here (attributes_no_tag case).2 (atBoundary_attributes case _)
    (inner_calm case) rest
  have hfinding := testcaseFinding_eq case [] [] hfailing trivial
  rw [List.append_nil, List.nil_append] at hfinding
  unfold findingsIn
  rw [hrender, allIn_of_match readElement_shortens hread, List.filterMap_cons, hfinding]
  rfl

theorem findingsIn_passed {between : List TestCase} (hhead : head.outcome = .passed)
    (hbetween : ∀ case ∈ between, case.outcome = .passed) (hfailing : case.outcome ≠ .passed)
    (rest : List Char) :
    findingsIn (head.render ++ (between.flatMap TestCase.render ++ (case.render ++ rest))) =
      findingOf head :: findingsIn rest := by
  have hattrs : '>' ∉ head.attributes ++ ['/'] := by
    intro h
    rcases List.mem_append.mp h with h | h
    · exact (attributes_no_tag head).2 h
    · revert h
      decide
  have hboundary : atBoundary (head.attributes ++ ['/'] ++ ['>']) = true := by
    rw [List.append_assoc]
    exact atBoundary_attributes head _
  have hopened : Calm (case.openTag ++ ['>']) :=
    (openTag_calm case).append (Calm.of_no_tag (by decide))
  have hcalm : Calm (between.flatMap TestCase.render ++ (case.openTag ++ ['>'])) :=
    (renders_calm hbetween).append hopened
  have htext : head.render ++ (between.flatMap TestCase.render ++ (case.render ++ rest)) =
      '<' :: "testcase".toList ++ (head.attributes ++ ['/']) ++
        '>' :: (between.flatMap TestCase.render ++ (case.openTag ++ ['>']) ++ case.inner ++
          ("</testcase>".toList ++ rest)) := by
    unfold TestCase.render
    rw [hhead]
    cases houtcome : case.outcome with
    | passed => exact absurd houtcome hfailing
    | failed => simp [TestCase.openTag]
    | errored => simp [TestCase.openTag]
  have hread := readElement_here hattrs hboundary (hcalm.append (inner_calm case)) rest
  have hfinding := testcaseFinding_eq head ['/'] _ hfailing hcalm
  unfold findingsIn
  rw [htext, allIn_of_match readElement_shortens hread, List.filterMap_cons, hfinding]
  rfl

theorem casesText_cons (case : TestCase) (cases : List TestCase) :
    casesText (case :: cases) = case.render ++ casesText cases := by
  unfold casesText
  rw [List.flatMap_cons, List.append_assoc]

theorem splitLiteral_end (h : Calm text) :
    splitLiteral ("</" ++ "testcase" ++ ">").toList (text ++ "</testsuite>".toList) = none := by
  change splitLiteral ('<' :: '/' :: "testcase>".toList) _ = none
  rw [splitLiteral_calm h]
  rfl

theorem findingsIn_cases (cases : List TestCase) :
    findingsIn (casesText cases) = (heads none cases).map (fun pair => findingOf pair.1) ∧
      ∀ (head : TestCase) (between : List TestCase), head.outcome = .passed →
        (∀ case ∈ between, case.outcome = .passed) →
        findingsIn (head.render ++ (between.flatMap TestCase.render ++ casesText cases)) =
          (heads (some head) cases).map fun pair => findingOf pair.1 := by
  induction cases with
  | nil =>
      refine ⟨?_, fun head between hhead hbetween => ?_⟩
      · have hnone := allIn_eq_nil (@splitLiteral_end [] trivial)
        unfold findingsIn casesText
        rw [List.flatMap_nil, hnone]
        rfl
      · have hcalm := (render_calm hhead).append (renders_calm hbetween)
        have hnone := allIn_eq_nil (splitLiteral_end hcalm)
        unfold findingsIn casesText
        rw [List.flatMap_nil, List.nil_append, ← List.append_assoc, hnone]
        rfl
  | cons case cases ih =>
      obtain ⟨hnone, hsome⟩ := ih
      refine ⟨?_, fun head between hhead hbetween => ?_⟩
      · unfold heads
        rw [casesText_cons]
        by_cases hpassed : case.outcome = .passed
        · rw [if_pos hpassed]
          exact hsome case [] hpassed fun _ h => (by cases h)
        · rw [if_neg hpassed, findingsIn_failing hpassed, hnone]
          rfl
      · unfold heads
        rw [casesText_cons]
        by_cases hpassed : case.outcome = .passed
        · have hmore := hsome head (between ++ [case]) hhead fun other hmem => by
            rcases List.mem_append.mp hmem with hmem | hmem
            · exact hbetween other hmem
            · rw [List.mem_singleton.mp hmem]
              exact hpassed
          rw [if_pos hpassed]
          rw [List.flatMap_append, List.flatMap_singleton, List.append_assoc] at hmore
          exact hmore
        · rw [if_neg hpassed, findingsIn_passed hhead hbetween hpassed, hnone]
          rfl

/-! ## The summary of a report -/

theorem digits_range (n : Nat) : ∀ c ∈ (toString n).toList, 48 ≤ c.toNat ∧ c.toNat ≤ 57 := by
  intro c hc
  rw [Nat.toString_eq_repr, Nat.toList_repr] at hc
  have hdigit := Nat.isDigit_of_mem_toDigits (by decide) (by decide) hc
  unfold Char.isDigit at hdigit
  obtain ⟨hlow, hhigh⟩ := Bool.and_eq_true_iff.mp hdigit
  have hlow := of_decide_eq_true hlow
  have hhigh := of_decide_eq_true hhigh
  rw [ge_iff_le, UInt32.le_iff_toNat_le] at hlow
  rw [UInt32.le_iff_toNat_le] at hhigh
  exact ⟨hlow, hhigh⟩

theorem suiteAttributes_no_tag (cases : List TestCase) :
    ∀ c ∈ suiteAttributes cases, c ≠ '<' ∧ c ≠ '>' := by
  have hdigits : ∀ (n : Nat), ∀ c ∈ (toString n).toList, c ≠ '<' ∧ c ≠ '>' := by
    intro n c hc
    have hrange := digits_range n c hc
    constructor <;> rintro rfl <;> revert hrange <;> decide
  have htests : ∀ c ∈ " tests=\"".toList, c ≠ '<' ∧ c ≠ '>' := by simp
  have hfailures : ∀ c ∈ "\" failures=\"".toList, c ≠ '<' ∧ c ≠ '>' := by simp
  have herrors : ∀ c ∈ "\" errors=\"".toList, c ≠ '<' ∧ c ≠ '>' := by simp
  have hquote : ∀ c ∈ ['"'], c ≠ '<' ∧ c ≠ '>' := by simp
  intro c hc
  unfold suiteAttributes at hc
  rw [List.mem_append, List.mem_append, List.mem_append, List.mem_append, List.mem_append,
    List.mem_append] at hc
  rcases hc with (((((hc | hc) | hc) | hc) | hc) | hc) | hc
  · exact htests c hc
  · exact hdigits _ c hc
  · exact hfailures c hc
  · exact hdigits _ c hc
  · exact herrors c hc
  · exact hdigits _ c hc
  · exact hquote c hc

theorem searchText_digits {α : Type} {read : List Char → Option α} (n : Nat) (rest : List Char)
    (h : ∀ (c : Char) text, 48 ≤ c.toNat → c.toNat ≤ 57 → read (c :: text) = none) :
    searchText read ((toString n).toList ++ rest) = searchText read rest := by
  refine searchText_skip fun before after hpart hafter => ?_
  cases after with
  | nil => exact absurd rfl hafter
  | cons c after =>
      have hrange := digits_range n c (by rw [hpart]; simp)
      exact h c _ hrange.1 hrange.2

/-- What `extractIntAttr` looks for at one place. -/
def readCount (name : String) (text : List Char) : Option Nat := do
  let rest ← quotedAfter name text
  let digits := rest.takeWhile Char.isDigit
  if digits ≠ [] ∧ (rest.drop digits.length).head? = some '"' then
    some (digits.foldl (fun n c => 10 * n + (c.toNat - 48)) 0)
  else none

theorem extractIntAttr_eq (attrs : List Char) (name : String) :
    extractIntAttr attrs name = (searchText (readCount name) attrs).getD 0 := rfl

theorem readCount_of_literal (h : afterLiteral name.toList text = none) :
    readCount name text = none := by
  unfold readCount quotedAfter
  rw [h]
  rfl

theorem afterLiteral_digit {d : Char} (hfirst : 97 ≤ first.toLower.toNat) (hlow : 48 ≤ d.toNat)
    (hhigh : d.toNat ≤ 57) (literal text : List Char) :
    afterLiteral (first :: literal) (d :: text) = none := by
  refine afterLiteral_cons_none fun hlower => ?_
  rw [hlower] at hfirst
  rcases toLower_cases d with hsame | hrange
  · rw [hsame] at hfirst
    omega
  · unfold Char.toLower at hrange
    split at hrange
    · rename_i hupper
      have hA := hupper.1
      rw [ge_iff_le, UInt32.le_iff_toNat_le] at hA
      have hval : d.toNat = d.val.toNat := rfl
      have hAval : 'A'.val.toNat = 65 := rfl
      omega
    · omega

theorem passed_of_filter (hcases : cases.filter TestCase.isFailing = []) :
    ∀ case ∈ cases, case.outcome = .passed := by
  intro case hmem
  have hnot := List.filter_eq_nil_iff.mp hcases case hmem
  exact Decidable.of_not_not fun h => hnot (decide_eq_true h)

theorem count_eq_zero (hpassed : ∀ case ∈ cases, case.outcome = .passed) {outcome : Outcome}
    (h : outcome ≠ .passed) : count outcome cases = 0 := by
  unfold count
  rw [List.length_eq_zero_iff, List.filter_eq_nil_iff]
  intro case hmem heq
  exact h ((of_decide_eq_true heq).symm.trans (hpassed case hmem))

theorem searchText_suite {literal : List Char} (hname : name.toList = first :: literal)
    (hfirst : 97 ≤ first.toLower.toNat)
    (hskip : ∀ rest, searchText (readCount name) (" tests=\"".toList ++ rest) =
      searchText (readCount name) rest) (n : Nat) (rest : List Char) :
    searchText (readCount name) (" tests=\"".toList ++ ((toString n).toList ++ rest)) =
      searchText (readCount name) rest := by
  rw [hskip]
  refine searchText_digits n rest fun c text hlow hhigh => readCount_of_literal ?_
  rw [hname]
  exact afterLiteral_digit hfirst hlow hhigh literal text

theorem suite_counts (hpassed : ∀ case ∈ cases, case.outcome = .passed) :
    extractIntAttr (suiteAttributes cases) "failures" = 0 ∧
      extractIntAttr (suiteAttributes cases) "errors" = 0 := by
  have htests : " tests=\"".toList = [' ', 't', 'e', 's', 't', 's', '=', '"'] := rfl
  have hattrs : suiteAttributes cases = " tests=\"".toList ++ ((toString cases.length).toList ++
      "\" failures=\"0\" errors=\"0\"".toList) := by
    have hzero : (toString 0).toList = ['0'] := rfl
    unfold suiteAttributes
    rw [count_eq_zero hpassed (by decide), count_eq_zero hpassed (by decide), hzero]
    simp only [List.append_assoc]
    rfl
  have hfailures : ∀ rest, searchText (readCount "failures") (" tests=\"".toList ++ rest) =
      searchText (readCount "failures") rest := by
    intro rest
    rw [htests]
    simp only [List.cons_append, List.nil_append]
    rw [searchText_cons_none rfl, searchText_cons_none rfl, searchText_cons_none rfl,
      searchText_cons_none rfl, searchText_cons_none rfl, searchText_cons_none rfl,
      searchText_cons_none rfl, searchText_cons_none rfl]
  have herrors : ∀ rest, searchText (readCount "errors") (" tests=\"".toList ++ rest) =
      searchText (readCount "errors") rest := by
    intro rest
    rw [htests]
    simp only [List.cons_append, List.nil_append]
    rw [searchText_cons_none rfl, searchText_cons_none rfl, searchText_cons_none rfl,
      searchText_cons_none rfl, searchText_cons_none rfl, searchText_cons_none rfl,
      searchText_cons_none rfl, searchText_cons_none rfl]
  constructor
  · rw [extractIntAttr_eq, hattrs, searchText_suite rfl (by decide) hfailures]
    decide
  · rw [extractIntAttr_eq, hattrs, searchText_suite rfl (by decide) herrors]
    decide

/-! ## The report -/

theorem allIn_skip_no_tag {β : Type} {read : List Char → Option (β × List Char)}
    {part : List Char} (hread : ∀ c text, c ≠ '<' → read (c :: text) = none) (hpart : '<' ∉ part)
    (rest : List Char) : allIn read (part ++ rest) = allIn read rest := by
  refine allIn_skip fun before after hsplit hafter => ?_
  cases after with
  | nil => exact absurd rfl hafter
  | cons c after =>
      refine hread c _ fun hc => hpart ?_
      rw [hsplit, hc]
      simp

theorem findingsIn_report (cases : List TestCase) :
    findingsIn (report cases) = findingsIn (casesText cases) := by
  have hno : '<' ∉ "testsuite".toList ++ (suiteAttributes cases ++ ['>']) := by
    intro h
    rcases List.mem_append.mp h with h | h
    · revert h
      decide
    · rcases List.mem_append.mp h with h | h
      · exact (suiteAttributes_no_tag cases _ h).1 rfl
      · revert h
        decide
  have hreport : report cases = '<' :: ("testsuite".toList ++ (suiteAttributes cases ++ ['>']) ++
      casesText cases) := by
    unfold report
    simp
  have hfirst : readElement "testcase" ('<' :: ("testsuite".toList ++
      (suiteAttributes cases ++ ['>']) ++ casesText cases)) = none := rfl
  unfold findingsIn
  rw [hreport, allIn_of_none hfirst,
    allIn_skip_no_tag (fun c text hc => readElement_of_ne hc text) hno]

theorem suites_of_cases (hpassed : ∀ case ∈ cases, case.outcome = .passed) :
    allIn (openingTag "testsuite" true) (casesText cases) = [] := by
  induction cases with
  | nil => decide
  | cons case cases ih =>
      have hno : '<' ∉ "testcase".toList ++ (case.attributes ++ "/>".toList) := by
        intro h
        rcases List.mem_append.mp h with h | h
        · revert h
          decide
        · rcases List.mem_append.mp h with h | h
          · exact (attributes_no_tag case).1 h
          · revert h
            decide
      have htext : casesText (case :: cases) =
          '<' :: ("testcase".toList ++ (case.attributes ++ "/>".toList) ++ casesText cases) := by
        rw [casesText_cons]
        unfold TestCase.render TestCase.openTag
        rw [hpassed case List.mem_cons_self]
        simp
      have hfirst : openingTag "testsuite" true ('<' :: ("testcase".toList ++
          (case.attributes ++ "/>".toList) ++ casesText cases)) = none := rfl
      rw [htext, allIn_of_none hfirst,
        allIn_skip_no_tag (fun c text hc => openingTag_of_ne hc text) hno]
      exact ih fun other hmem => hpassed other (List.mem_cons_of_mem case hmem)

theorem suites_of_report (hpassed : ∀ case ∈ cases, case.outcome = .passed) :
    allIn (openingTag "testsuite" true) (report cases) = [suiteAttributes cases] := by
  have hno : '>' ∉ suiteAttributes cases := fun h => (suiteAttributes_no_tag cases _ h).2 rfl
  have hread : openingTag "testsuite" true (report cases) =
      some (suiteAttributes cases, casesText cases) := openingTag_here hno rfl _
  rw [allIn_of_match openingTag_shortens hread, suites_of_cases hpassed]

/-- What is found in a report: a finding for each failing case, with what is read off the opening
tag of its head. -/
theorem parseJunit_report (cases : List TestCase) :
    (parseJunit (String.ofList (report cases))).findings =
      (heads none cases).map fun pair => findingOf pair.1 := by
  have hfindings : (elements "testcase" (report cases).length (report cases)).filterMap
      (fun testcase => testcaseFinding testcase.1 testcase.2) =
        (heads none cases).map fun pair => findingOf pair.1 := by
    rw [elements_eq_scan, ← (findingsIn_cases cases).1, ← findingsIn_report]
    rfl
  unfold parseJunit
  rw [String.toList_ofList]
  dsimp only
  rw [hfindings]
  refine if_neg fun hsummary => ?_
  obtain ⟨hnone, hcounts⟩ := hsummary
  have hfailing : cases.filter TestCase.isFailing = [] := by
    rw [← heads_failing none cases, List.map_eq_nil_iff.mp hnone]
    rfl
  have hpassed := passed_of_filter hfailing
  obtain ⟨hfailures, herrors⟩ := suite_counts hpassed
  have hsuites : openingTags "testsuite" (report cases).length (report cases) =
      [suiteAttributes cases] := by
    rw [openingTags_eq_scan]
    exact suites_of_report hpassed
  rw [hsuites, List.map_singleton, List.map_singleton, hfailures, herrors] at hcounts
  revert hcounts
  decide

/-- A report is parsed faithfully: one finding for each failing case, in order, that names its
class and its name. -/
def Faithful (ports : OutputPorts) (cases : List TestCase) : Prop :=
  (parseGateOutput ports (String.ofList (report cases)) .junit).findings =
    (cases.filter TestCase.isFailing).map fun case => failureOf case.className case.name

/-- Each failing case is named by what is read off the opening tag of its head. -/
def NamedByHeads (cases : List TestCase) : Prop :=
  ∀ pair ∈ heads none cases, readClass pair.1 = pair.2.className ∧ readName pair.1 = pair.2.name

theorem failureOf_inj {className name otherClass other : List Char}
    (h : failureOf className name = failureOf otherClass other) :
    className = otherClass ∧ name = other := by
  unfold failureOf at h
  obtain ⟨_, hmessage, hfile, _⟩ := Finding.mk.inj h
  have hlength := congrArg List.length
    (String.ofList_inj.mp (Yaml.string.inj (Option.some.inj hfile)))
  rw [List.length_map, List.length_map] at hlength
  have htexts := String.ofList_inj.mp (Yaml.string.inj hmessage)
  rw [List.append_assoc, List.append_assoc] at htexts
  obtain ⟨hclass, hrest⟩ := List.append_inj htexts hlength
  exact ⟨hclass, List.append_cancel_right (List.cons.inj hrest).2⟩

theorem faithful_iff (ports : OutputPorts) (cases : List TestCase) :
    Faithful ports cases ↔ NamedByHeads cases := by
  have hexpected : (cases.filter TestCase.isFailing).map
      (fun case => failureOf case.className case.name) =
        (heads none cases).map fun pair => failureOf pair.2.className pair.2.name := by
    rw [← heads_failing none cases, List.map_map]
    rfl
  unfold Faithful NamedByHeads parseGateOutput
  dsimp only
  rw [parseJunit_report, hexpected, List.map_inj_left]
  refine forall₂_congr fun pair _ => ⟨failureOf_inj, ?_⟩
  rintro ⟨hclass, hname⟩
  unfold findingOf
  rw [hclass, hname]

end Newide.Gate.Junit
