import Mathlib.Data.List.TakeWhile
import Newide.Gate.OutputParser

/-!
# The text of hook conditions

What the regular expression of `preprocessExpression` in `src/hook/hook.ts`
reads: paths, infix operators and literals, read off directly, beside the
string literals of `stripStringLiterals`, which have escapes.
-/

namespace Newide.Hook.Condition

open Gate

/-! ## Reading infix operators -/

def isIdentStart (c : Char) : Bool := c.isAlpha || c = '_'

/-- `\w*(?:\.[a-zA-Z_]\w*)*`, what is left of a path after its first character, and the rest. -/
def pathTail : List Char → List Char × List Char
  | [] => ([], [])
  | [c] => if isWord c then ([c], []) else ([], [c])
  | c :: d :: text =>
      if isWord c then
        let tail := pathTail (d :: text)
        (c :: tail.1, tail.2)
      else if c = '.' && isIdentStart d then
        let tail := pathTail text
        (c :: d :: tail.1, tail.2)
      else ([], c :: d :: text)

def path : List Char → Option (List Char × List Char)
  | [] => none
  | c :: text =>
      if isIdentStart c then some (c :: (pathTail text).1, (pathTail text).2) else none

def afterSpaces : List Char → Option (List Char)
  | [] => none
  | c :: text => if isTrimmed c then some (text.dropWhile isTrimmed) else none

def operators : List (List Char) := ["matches".toList, "regex".toList]

def operator (text : List Char) : Option (List Char × List Char) :=
  operators.findSome? fun op =>
    if op.isPrefixOf text then some (op, text.drop op.length) else none

def spacedOperator (text : List Char) : Option (List Char × List Char) := do
  let text ← afterSpaces text
  let (op, text) ← operator text
  let rest ← afterSpaces text
  some (op, rest)

def operands (text : List Char) : Option (List Char × List Char × List Char) := do
  let (left, text) ← path text
  let (op, rest) ← spacedOperator text
  some (left, op, rest)

/-- `${op}(${left}, ${right})`. -/
def call (left op right : List Char) : List Char :=
  op ++ '(' :: left ++ ", ".toList ++ right ++ [')']

/-- The call for the infix that a text begins with, and what is after it, for a reader of
literals. -/
def infixAt (literal : List Char → Option (List Char × List Char)) (text : List Char) :
    Option (List Char × List Char) := do
  let (left, op, rest) ← operands text
  let (right, rest) ← literal rest
  some (call left op right, rest)

/-! ## Literals -/

def isQuote (c : Char) : Bool := c = '\'' || c = '"'

/-- `'[^']*'|"[^"]*"`, and the rest. -/
def quoted : List Char → Option (List Char × List Char)
  | [] => none
  | q :: text =>
      if isQuote q && decide (q ∈ text) then
        some (q :: text.takeWhile (fun c => c ≠ q) ++ [q], (text.dropWhile fun c => c ≠ q).tail)
      else none

def isLineTerminator (c : Char) : Bool := [0x0a, 0x0d, 0x2028, 0x2029].contains c.toNat

/-- A literal up to its closing quote, where `\\.` is an escaped character. -/
def closing (q : Char) : List Char → Option (List Char × List Char)
  | [] => none
  | [c] => if c = q then some ([q], []) else none
  | c :: d :: text =>
      if c = q then some ([q], d :: text)
      else if c = '\\' then
        if isLineTerminator d then none
        else (closing q text).map fun found => (c :: d :: found.1, found.2)
      else (closing q (d :: text)).map fun found => (c :: found.1, found.2)

def stringLiteral : List Char → Option (List Char × List Char)
  | [] => none
  | q :: text =>
      if isQuote q then (closing q text).map fun found => (q :: found.1, found.2) else none

/-! ## What the readers read -/

variable {text rest left op right : List Char} {c : Char}

def isPathChar (c : Char) : Bool := isWord c || c = '.'

theorem isWord_of_isIdentStart (h : isIdentStart c = true) : isWord c = true := by
  unfold isIdentStart at h
  unfold isWord Char.isAlphanum
  rcases Bool.or_eq_true_iff.mp h with halpha | hscore
  · rw [halpha]
    rfl
  · rw [hscore, Bool.or_true]

theorem pathTail_word (h : isWord c = true) (text : List Char) :
    pathTail (c :: text) = (c :: (pathTail text).1, (pathTail text).2) := by
  cases text with
  | nil =>
      unfold pathTail
      rw [if_pos h]
  | cons d text =>
      rw [pathTail, if_pos h]

theorem pathTail_dot {d : Char} (h : isIdentStart d = true) (text : List Char) :
    pathTail ('.' :: d :: text) = ('.' :: d :: (pathTail text).1, (pathTail text).2) := by
  have hdot : ¬ isWord '.' = true := by decide
  rw [pathTail, if_neg hdot, h]
  rfl

/-- From any place of it on, the rest of a path is read the same. -/
def ReadsSuffixes (text : List Char) : Prop :=
  ∀ before after, (pathTail text).1 = before ++ after →
    pathTail (after ++ (pathTail text).2) = (after, (pathTail text).2)

theorem ReadsSuffixes.of_stop (h : pathTail text = ([], text)) : ReadsSuffixes text := by
  intro before after hsplit
  rw [h] at hsplit ⊢
  obtain rfl : after = [] := (List.append_eq_nil_iff.mp hsplit.symm).2
  exact h

theorem ReadsSuffixes.word (hword : isWord c = true) (ih : ReadsSuffixes text) :
    ReadsSuffixes (c :: text) := by
  intro before after h
  rw [pathTail_word hword] at h ⊢
  cases before with
  | nil =>
      obtain rfl : c :: (pathTail text).1 = after := h
      have hrest := ih [] _ rfl
      rw [List.cons_append, pathTail_word hword, hrest]
  | cons b before => exact ih before after (List.cons.inj h).2

theorem readsSuffixes (text : List Char) : ReadsSuffixes text := by
  induction text using pathTail.induct with
  | case1 => exact .of_stop rfl
  | case2 c hword => exact .word hword (.of_stop rfl)
  | case3 c hword =>
      refine .of_stop ?_
      rw [pathTail, if_neg hword]
  | case4 c d text hword ih => exact .word hword ih
  | case5 c d text hword hdot ih =>
      obtain ⟨hc, hd⟩ := Bool.and_eq_true_iff.mp hdot
      obtain rfl := of_decide_eq_true hc
      intro before after h
      rw [pathTail_dot hd] at h ⊢
      have hrest := ih [] _ rfl
      have hword := isWord_of_isIdentStart hd
      cases before with
      | nil =>
          obtain rfl : '.' :: d :: (pathTail text).1 = after := h
          rw [List.cons_append, List.cons_append, pathTail_dot hd, hrest]
      | cons b before =>
          have hone := ih.word hword
          unfold ReadsSuffixes at hone
          rw [pathTail_word hword] at hone
          exact hone before after (List.cons.inj h).2
  | case6 c d text hword hdot =>
      refine .of_stop ?_
      rw [pathTail, if_neg hword, if_neg hdot]

theorem pathTail_append (text : List Char) : (pathTail text).1 ++ (pathTail text).2 = text := by
  induction text using pathTail.induct with
  | case1 => rfl
  | case2 c hword =>
      rw [pathTail_word hword]
      rfl
  | case3 c hword =>
      rw [pathTail, if_neg hword]
      rfl
  | case4 c d text hword ih =>
      rw [pathTail_word hword]
      exact congrArg (c :: ·) ih
  | case5 c d text hword hdot ih =>
      obtain ⟨hc, hd⟩ := Bool.and_eq_true_iff.mp hdot
      obtain rfl := of_decide_eq_true hc
      rw [pathTail_dot hd]
      exact congrArg (fun tail => '.' :: d :: tail) ih
  | case6 c d text hword hdot =>
      rw [pathTail, if_neg hword, if_neg hdot]
      rfl

theorem isPathChar_of_isWord (h : isWord c = true) : isPathChar c = true := by
  unfold isPathChar
  rw [h]
  rfl

theorem pathTail_chars (text : List Char) : ∀ c ∈ (pathTail text).1, isPathChar c = true := by
  induction text using pathTail.induct with
  | case1 => exact fun _ h => (by cases h)
  | case2 c hword =>
      rw [pathTail_word hword]
      intro e he
      rw [List.mem_singleton.mp he]
      exact isPathChar_of_isWord hword
  | case3 c hword =>
      rw [pathTail, if_neg hword]
      exact fun _ h => (by cases h)
  | case4 c d text hword ih =>
      rw [pathTail_word hword]
      intro e he
      rcases List.mem_cons.mp he with rfl | he
      · exact isPathChar_of_isWord hword
      · exact ih e he
  | case5 c d text hword hdot ih =>
      obtain ⟨hc, hd⟩ := Bool.and_eq_true_iff.mp hdot
      obtain rfl := of_decide_eq_true hc
      rw [pathTail_dot hd]
      intro e he
      rcases List.mem_cons.mp he with rfl | he
      · decide
      · rcases List.mem_cons.mp he with rfl | he
        · exact isPathChar_of_isWord (isWord_of_isIdentStart hd)
        · exact ih e he
  | case6 c d text hword hdot =>
      rw [pathTail, if_neg hword, if_neg hdot]
      exact fun _ h => (by cases h)

theorem path_cons (c : Char) (text : List Char) : path (c :: text) =
    if isIdentStart c then some (c :: (pathTail text).1, (pathTail text).2) else none := rfl

theorem path_eq_some (h : path text = some (left, rest)) :
    text = left ++ rest ∧ left ≠ [] ∧ (∀ c ∈ left, isPathChar c = true) ∧
      ∀ before after, left = before ++ after → after ≠ [] →
        path (after ++ rest) = some (after, rest) ∨ path (after ++ rest) = none := by
  cases text with
  | nil => cases h
  | cons c text =>
      rw [path_cons] at h
      by_cases hc : isIdentStart c = true
      · rw [if_pos hc] at h
        obtain ⟨rfl, rfl⟩ := Prod.mk.inj (Option.some.inj h)
        have hword := isWord_of_isIdentStart hc
        refine ⟨?_, List.cons_ne_nil _ _, ?_, fun before after hleft hafter => ?_⟩
        · exact (congrArg (c :: ·) (pathTail_append text)).symm
        · intro e he
          rcases List.mem_cons.mp he with rfl | he
          · exact isPathChar_of_isWord hword
          · exact pathTail_chars text e he
        · have hreads := (readsSuffixes text).word hword
          unfold ReadsSuffixes at hreads
          rw [pathTail_word hword] at hreads
          cases after with
          | nil => exact absurd rfl hafter
          | cons a after =>
              have hsuffix := hreads before (a :: after) hleft
              rw [List.cons_append, path_cons]
              by_cases ha : isIdentStart a = true
              · rw [List.cons_append, pathTail_word (isWord_of_isIdentStart ha)] at hsuffix
                obtain ⟨hpath, hrest⟩ := Prod.mk.inj hsuffix
                rw [if_pos ha, (List.cons.inj hpath).2, hrest]
                exact .inl rfl
              · rw [if_neg ha]
                exact .inr rfl
      · rw [if_neg hc] at h
        cases h

theorem afterSpaces_eq_some (h : afterSpaces text = some rest) :
    ∃ space spaces, text = space :: spaces ++ rest ∧ isTrimmed space = true ∧
      ∀ c ∈ spaces, isTrimmed c = true := by
  cases text with
  | nil => cases h
  | cons c text =>
      unfold afterSpaces at h
      dsimp only at h
      by_cases hc : isTrimmed c = true
      · rw [if_pos hc] at h
        obtain rfl := Option.some.inj h
        refine ⟨c, text.takeWhile isTrimmed, ?_, hc, fun d hd => List.mem_takeWhile_imp hd⟩
        rw [List.cons_append, List.takeWhile_append_dropWhile]
      · rw [if_neg hc] at h
        cases h

theorem operator_eq_some (h : operator text = some (op, rest)) :
    op ∈ operators ∧ text = op ++ rest := by
  unfold operator at h
  obtain ⟨found, hmem, hfound⟩ := List.exists_of_findSome?_eq_some h
  by_cases hpre : found.isPrefixOf text = true
  · rw [if_pos hpre] at hfound
    obtain ⟨rfl, rfl⟩ := Prod.mk.inj (Option.some.inj hfound)
    obtain ⟨tail, rfl⟩ := List.isPrefixOf_iff_prefix.mp hpre
    refine ⟨hmem, ?_⟩
    rw [List.drop_left]
  · rw [if_neg hpre] at hfound
    cases hfound

theorem not_isQuote_of_isPathChar (h : isPathChar c = true) : isQuote c = false := by
  refine Bool.eq_false_of_not_eq_true fun hquote => ?_
  rcases Bool.or_eq_true_iff.mp hquote with hc | hc
  · rw [of_decide_eq_true hc] at h
    revert h
    decide
  · rw [of_decide_eq_true hc] at h
    revert h
    decide

theorem not_isQuote_of_isTrimmed (h : isTrimmed c = true) : isQuote c = false := by
  refine Bool.eq_false_of_not_eq_true fun hquote => ?_
  rcases Bool.or_eq_true_iff.mp hquote with hc | hc
  · rw [of_decide_eq_true hc] at h
    revert h
    decide
  · rw [of_decide_eq_true hc] at h
    revert h
    decide

theorem operators_chars : ∀ op ∈ operators, ∀ c ∈ op, isPathChar c = true := by
  have hall : (operators.all fun op => op.all isPathChar) = true := by decide
  simpa using hall

theorem spacedOperator_eq_some (h : spacedOperator text = some (op, rest)) :
    op ∈ operators ∧ ∃ space between, text = space :: between ++ rest ∧ isTrimmed space = true ∧
      ∀ c ∈ space :: between, isQuote c = false := by
  unfold spacedOperator at h
  obtain ⟨atOperator, hfirst, h⟩ := Option.bind_eq_some_iff.mp h
  obtain ⟨⟨found, behind⟩, hoperator, h⟩ := Option.bind_eq_some_iff.mp h
  obtain ⟨atLiteral, hsecond, h⟩ := Option.bind_eq_some_iff.mp h
  obtain ⟨rfl, rfl⟩ := Prod.mk.inj (Option.some.inj h)
  obtain ⟨space, spaces, rfl, hspace, hspaces⟩ := afterSpaces_eq_some hfirst
  obtain ⟨hop, rfl⟩ := operator_eq_some hoperator
  obtain ⟨other, others, rfl, hother, hothers⟩ := afterSpaces_eq_some hsecond
  refine ⟨hop, space, spaces ++ found ++ other :: others, by simp, hspace, fun c hc => ?_⟩
  rw [List.mem_cons, List.mem_append, List.mem_append, List.mem_cons] at hc
  rcases hc with rfl | ((hc | hc) | rfl | hc)
  · exact not_isQuote_of_isTrimmed hspace
  · exact not_isQuote_of_isTrimmed (hspaces c hc)
  · exact not_isQuote_of_isPathChar (operators_chars found hop c hc)
  · exact not_isQuote_of_isTrimmed hother
  · exact not_isQuote_of_isTrimmed (hothers c hc)

theorem operands_eq_some (h : operands text = some (left, op, rest)) :
    ∃ behind, path text = some (left, behind) ∧ spacedOperator behind = some (op, rest) := by
  unfold operands at h
  obtain ⟨⟨found, behind⟩, hpath, h⟩ := Option.bind_eq_some_iff.mp h
  obtain ⟨⟨found', behind'⟩, hoperator, h⟩ := Option.bind_eq_some_iff.mp h
  obtain ⟨rfl, hsame⟩ := Prod.mk.inj (Option.some.inj h)
  obtain ⟨rfl, rfl⟩ := Prod.mk.inj hsame
  exact ⟨behind, hpath, hoperator⟩

variable {literal : List Char → Option (List Char × List Char)} {q : Char}

theorem infixAt_eq_some {out : List Char} (h : infixAt literal text = some (out, rest)) :
    ∃ left op atLiteral right, operands text = some (left, op, atLiteral) ∧
      literal atLiteral = some (right, rest) ∧ out = call left op right := by
  unfold infixAt at h
  obtain ⟨⟨left, op, atLiteral⟩, hoperands, h⟩ := Option.bind_eq_some_iff.mp h
  obtain ⟨⟨right, behind⟩, hliteral, h⟩ := Option.bind_eq_some_iff.mp h
  obtain ⟨rfl, rfl⟩ := Prod.mk.inj (Option.some.inj h)
  exact ⟨left, op, atLiteral, right, hoperands, hliteral, rfl⟩

theorem infixAt_of_operands (h : operands text = some (left, op, rest)) :
    infixAt literal text =
      (literal rest).map fun found => (call left op found.1, found.2) := by
  unfold infixAt
  rw [h]
  change ((literal rest).bind fun found => some (call left op found.1, found.2)) = _
  cases literal rest <;> rfl

/-! ## Where literals end -/

theorem quoted_cons (q : Char) (text : List Char) : quoted (q :: text) =
    if isQuote q && decide (q ∈ text) then
      some (q :: text.takeWhile (fun c => c ≠ q) ++ [q], (text.dropWhile fun c => c ≠ q).tail)
    else none := rfl

theorem quoted_spec {body behind : List Char} (hq : isQuote q = true) (hbody : q ∉ body) :
    quoted (q :: (body ++ q :: behind)) = some (q :: body ++ [q], behind) := by
  have hmem : q ∈ body ++ q :: behind := List.mem_append_right body List.mem_cons_self
  have hall : ∀ c ∈ body, decide (c ≠ q) = true := by
    intro c hc
    exact decide_eq_true fun heq => hbody (heq ▸ hc)
  have htake : (q :: behind).takeWhile (fun c => decide (c ≠ q)) = [] := by simp
  have hdrop : (q :: behind).dropWhile (fun c => decide (c ≠ q)) = q :: behind := by simp
  rw [quoted_cons, hq, decide_eq_true hmem, List.takeWhile_append_of_pos hall,
    List.dropWhile_append_of_pos hall, htake, hdrop, List.append_nil]
  rfl

theorem quoted_eq_some (h : quoted text = some (right, rest)) :
    ∃ q body, isQuote q = true ∧ q ∉ body ∧ right = q :: body ++ [q] ∧
      text = q :: (body ++ q :: rest) := by
  cases text with
  | nil => cases h
  | cons q text =>
      by_cases hq : (isQuote q && decide (q ∈ text)) = true
      · obtain ⟨hquote, hmem⟩ := Bool.and_eq_true_iff.mp hq
        obtain ⟨body, behind, rfl, hbody⟩ := List.eq_append_cons_of_mem (of_decide_eq_true hmem)
        rw [quoted_spec hquote hbody] at h
        obtain ⟨rfl, rfl⟩ := Prod.mk.inj (Option.some.inj h)
        exact ⟨q, body, hquote, hbody, rfl, rfl⟩
      · rw [quoted_cons, if_neg hq] at h
        cases h

theorem closing_eq_some {body : List Char} (h : closing q text = some (body, rest)) :
    text = body ++ rest ∧ ∃ inner, body = inner ++ [q] := by
  induction text using closing.induct q generalizing body rest with
  | case1 => cases h
  | case2 =>
      rw [closing, if_pos rfl] at h
      obtain ⟨rfl, rfl⟩ := Prod.mk.inj (Option.some.inj h)
      exact ⟨rfl, [], rfl⟩
  | case3 c hc =>
      rw [closing, if_neg hc] at h
      cases h
  | case4 d text =>
      rw [closing, if_pos rfl] at h
      obtain ⟨rfl, rfl⟩ := Prod.mk.inj (Option.some.inj h)
      exact ⟨rfl, [], rfl⟩
  | case5 d text hline hc =>
      rw [closing, if_neg hc, if_pos rfl, if_pos hline] at h
      cases h
  | case6 d text hline hc ih =>
      rw [closing, if_neg hc, if_pos rfl, if_neg hline] at h
      obtain ⟨⟨found, behind⟩, hfound, heq⟩ := Option.map_eq_some_iff.mp h
      obtain ⟨rfl, rfl⟩ := Prod.mk.inj heq
      obtain ⟨rfl, inner, rfl⟩ := ih hfound
      exact ⟨rfl, '\\' :: d :: inner, rfl⟩
  | case7 c d text hc hescape ih =>
      rw [closing, if_neg hc, if_neg hescape] at h
      obtain ⟨⟨found, behind⟩, hfound, heq⟩ := Option.map_eq_some_iff.mp h
      obtain ⟨rfl, rfl⟩ := Prod.mk.inj heq
      obtain ⟨htext, inner, rfl⟩ := ih hfound
      exact ⟨congrArg (c :: ·) htext, c :: inner, rfl⟩

theorem stringLiteral_eq_some (h : stringLiteral text = some (right, rest)) :
    text = right ++ rest ∧ ∃ q inner, isQuote q = true ∧ right = q :: inner ++ [q] := by
  cases text with
  | nil => cases h
  | cons q text =>
      unfold stringLiteral at h
      dsimp only at h
      by_cases hq : isQuote q = true
      · rw [if_pos hq] at h
        obtain ⟨⟨found, behind⟩, hfound, heq⟩ := Option.map_eq_some_iff.mp h
        obtain ⟨rfl, rfl⟩ := Prod.mk.inj heq
        obtain ⟨rfl, inner, rfl⟩ := closing_eq_some hfound
        exact ⟨rfl, q, inner, hq, rfl⟩
      · rw [if_neg hq] at h
        cases h

/-- A string literal begins with what the expression of the source takes for one. -/
theorem quoted_of_stringLiteral (h : stringLiteral text = some (right, rest)) :
    ∃ short more, quoted text = some (short, more ++ rest) ∧ right = short ++ more ∧
      (more = [] ∨ ∃ inner q, isQuote q = true ∧ more = inner ++ [q]) := by
  obtain ⟨rfl, q, inner, hq, rfl⟩ := stringLiteral_eq_some h
  obtain ⟨body, behind, hbody, hnot⟩ := List.eq_append_cons_of_mem
    (List.mem_append_right inner (List.mem_singleton_self q))
  refine ⟨q :: body ++ [q], behind, ?_, ?_, ?_⟩
  · have hspec := @quoted_spec q body (behind ++ rest) hq hnot
    rw [← hspec, List.cons_append, hbody]
    simp
  · rw [List.cons_append, hbody]
    simp
  · rcases List.eq_nil_or_concat' behind with rfl | ⟨start, last, rfl⟩
    · exact .inl rfl
    · have hends : inner ++ [q] = (body ++ q :: start) ++ [last] := by simp [hbody]
      rw [← List.cons.inj (List.append_inj' hends rfl).2 |>.1]
      exact .inr ⟨start, q, hq, rfl⟩

end Newide.Hook.Condition
