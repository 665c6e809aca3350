import Newide.Foundation.Globs
import Newide.Hook.ConditionRewriting

/-!
# Globs in hook conditions

The function `matches` that `src/hook/hook.ts` gives to conditions.  A glob
is written as a regular expression, whose `.` leaves out line terminators.
Strings are lists of UTF-16 code units here, one of which is what a `.` takes.
-/

namespace Newide.Hook.Condition

open Globs

abbrev CodeUnit := UInt16

namespace CodeUnit

def bar : CodeUnit := 124
def asterisk : CodeUnit := 42
def question : CodeUnit := 63
def dot : CodeUnit := 46
def backslash : CodeUnit := 92

end CodeUnit

open CodeUnit

/-- The class `[.+^${}()|[\]\\]`. -/
def isSpecial (c : CodeUnit) : Bool :=
  [46, 43, 94, 36, 123, 125, 40, 41, 124, 91, 93, 92].contains c

/-- What `.` leaves out. -/
def endsLine (c : CodeUnit) : Bool := [0x0a, 0x0d, 0x2028, 0x2029].contains c

/-- The regular expression for a glob, between `^` and `$`, as three replacements write it. -/
def regexText (glob : List CodeUnit) : List CodeUnit :=
  ((glob.flatMap fun c => if isSpecial c then [backslash, c] else [c]).flatMap fun c =>
    if c = asterisk then [dot, asterisk] else [c]).map fun c => if c = question then dot else c

/-- What such an expression means; any other syntax is left out. -/
def readRegex : List CodeUnit → Option (List (Item CodeUnit))
  | [] => some []
  | [c] =>
      if c = dot then some [.one]
      else if isSpecial c ∨ c = asterisk ∨ c = question then none
      else some [.self c]
  | c :: d :: text =>
      if c = backslash then
        if isSpecial d then (readRegex text).map (.self d :: ·) else none
      else if c = dot then
        if d = asterisk then (readRegex text).map (.many :: ·)
        else (readRegex (d :: text)).map (.one :: ·)
      else if isSpecial c ∨ c = asterisk ∨ c = question then none
      else (readRegex (d :: text)).map (.self c :: ·)

/-- `conditionParser.functions.matches` on strings. -/
def conditionMatches (str pattern : List CodeUnit) : Bool :=
  (pattern.splitOn bar).any fun alt =>
    match readRegex (regexText alt) with
    | some items => accepts (fun c => !endsLine c) items str
    | none => false

/-! ## What a glob means -/

def globItem (c : CodeUnit) : Item CodeUnit :=
  if c = asterisk then .many else if c = question then .one else .self c

/-- A string matches one of the globs of a pattern, where wildcards stand for allowed characters
only. -/
def MatchesGlob (allowed : CodeUnit → Prop) (str pattern : List CodeUnit) : Prop :=
  ∃ glob ∈ pattern.splitOn bar, Matches allowed (glob.map globItem) str

/-! ## Reading the expression back -/

/-- What one character of a glob is written as. -/
def written (c : CodeUnit) : List CodeUnit :=
  if c = asterisk then [dot, asterisk]
  else if c = question then [dot]
  else if isSpecial c then [backslash, c]
  else [c]

theorem regexText_cons (c : CodeUnit) (glob : List CodeUnit) :
    regexText (c :: glob) = written c ++ regexText glob := by
  unfold regexText written
  rw [List.flatMap_cons, List.flatMap_append, List.map_append]
  congr 1
  by_cases hstar : c = asterisk
  · subst hstar
    rfl
  · rw [if_neg hstar]
    by_cases hquestion : c = question
    · subst hquestion
      rfl
    · rw [if_neg hquestion]
      by_cases hspecial : isSpecial c = true
      · rw [if_pos hspecial]
        have hnostar : ¬ backslash = asterisk := by decide
        have hnoquestion : ¬ backslash = question := by decide
        simp [hstar, hquestion, hnostar, hnoquestion]
      · rw [if_neg hspecial]
        simp [hstar, hquestion]

theorem regexText_head (glob : List CodeUnit) : (regexText glob).head? ≠ some asterisk := by
  cases glob with
  | nil => exact fun h => (by cases h)
  | cons c glob =>
      rw [regexText_cons]
      unfold written
      by_cases hstar : c = asterisk
      · rw [if_pos hstar]
        exact fun h => absurd (Option.some.inj h) (by decide)
      · rw [if_neg hstar]
        by_cases hquestion : c = question
        · rw [if_pos hquestion]
          exact fun h => absurd (Option.some.inj h) (by decide)
        · rw [if_neg hquestion]
          split
          · exact fun h => absurd (Option.some.inj h) (by decide)
          · exact fun h => hstar (Option.some.inj h)

theorem readRegex_written {text : List CodeUnit} (htext : text.head? ≠ some asterisk)
    (c : CodeUnit) :
    readRegex (written c ++ text) = (readRegex text).map (globItem c :: ·) := by
  have hdot : dot ≠ backslash := by decide
  unfold written globItem
  by_cases hstar : c = asterisk
  · rw [if_pos hstar, if_pos hstar]
    change readRegex (dot :: asterisk :: text) = _
    rw [readRegex, if_neg hdot, if_pos rfl, if_pos rfl]
  · rw [if_neg hstar, if_neg hstar]
    by_cases hquestion : c = question
    · rw [if_pos hquestion, if_pos hquestion]
      cases text with
      | nil => rfl
      | cons d text =>
          have hd : d ≠ asterisk := fun h => htext (congrArg some h)
          change readRegex (dot :: d :: text) = _
          rw [readRegex, if_neg hdot, if_pos rfl, if_neg hd]
    · rw [if_neg hquestion, if_neg hquestion]
      by_cases hspecial : isSpecial c = true
      · rw [if_pos hspecial]
        change readRegex (backslash :: c :: text) = _
        rw [readRegex, if_pos rfl, if_pos hspecial]
      · have hc : ¬ (isSpecial c = true ∨ c = asterisk ∨ c = question) :=
          not_or.mpr ⟨hspecial, not_or.mpr ⟨hstar, hquestion⟩⟩
        have hnodot : c ≠ dot := by
          rintro rfl
          exact hspecial (by decide)
        have hnobackslash : c ≠ backslash := by
          rintro rfl
          exact hspecial (by decide)
        rw [if_neg hspecial]
        cases text with
        | nil =>
            simp only [readRegex, List.append_nil, if_neg hnodot, if_neg hc, Option.map_some]
        | cons d text =>
            change readRegex (c :: d :: text) = _
            rw [readRegex, if_neg hnobackslash, if_neg hnodot, if_neg hc]

theorem readRegex_regexText (glob : List CodeUnit) :
    readRegex (regexText glob) = some (glob.map globItem) := by
  induction glob with
  | nil => rfl
  | cons c glob ih =>
      rw [regexText_cons, readRegex_written (regexText_head glob), ih]
      rfl

theorem conditionMatches_iff (str pattern : List CodeUnit) :
    conditionMatches str pattern = true ↔
      MatchesGlob (fun c => endsLine c = false) str pattern := by
  unfold conditionMatches MatchesGlob
  rw [List.any_eq_true]
  refine exists_congr fun glob => and_congr_right fun _ => ?_
  rw [readRegex_regexText]
  dsimp only
  rw [accepts_iff]
  constructor
  · exact Matches.mono fun c hc => by simpa using hc
  · exact Matches.mono fun c hc => by simpa using hc

theorem MatchesGlob.any {allowed : CodeUnit → Prop} {str pattern : List CodeUnit}
    (h : MatchesGlob allowed str pattern) : MatchesGlob (fun _ => True) str pattern := by
  obtain ⟨glob, hmem, hmatches⟩ := h
  exact ⟨glob, hmem, hmatches.mono fun _ _ => trivial⟩

/-! ## Conditions as the documents have them -/

/-- Infix operators are rewritten outside of string literals only, and globs match what their
wildcards may stand for. -/
structure MeansTheSame (expression : List Char) (str pattern : List CodeUnit) : Prop where
  rewriting : preprocessExpression expression = rewriteOutside expression
  matching : conditionMatches str pattern = true ↔ MatchesGlob (fun _ => True) str pattern

/-- Conditions mean what the documents say exactly when the expression is regular and no line
terminator has to stand for a wildcard. -/
theorem condition_means_iff (expression : List Char) (str pattern : List CodeUnit) :
    MeansTheSame expression str pattern ↔
      Regular expression ∧ (MatchesGlob (fun _ => True) str pattern →
        MatchesGlob (fun c => endsLine c = false) str pattern) := by
  constructor
  · rintro ⟨hrewriting, hmatching⟩
    refine ⟨(preprocess_iff expression).mp hrewriting, fun h => ?_⟩
    exact (conditionMatches_iff str pattern).mp (hmatching.mpr h)
  · rintro ⟨hregular, hglob⟩
    refine ⟨(preprocess_iff expression).mpr hregular, ?_⟩
    rw [conditionMatches_iff]
    exact ⟨MatchesGlob.any, hglob⟩

/-- The text of a literal is rewritten. -/
theorem condition_rewrites_literal : ¬ ∀ (expression : List Char) (str pattern : List CodeUnit),
    MeansTheSame expression str pattern := by
  intro h
  have hsame := (h "note == \"a matches 'b'\"".toList [] []).rewriting
  revert hsame
  decide +kernel

end Newide.Hook.Condition
