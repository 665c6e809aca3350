import Newide.Foundation.Replacement
import Newide.Hook.ConditionText

/-!
# The rewriting of hook conditions

`preprocessExpression` of `src/hook/hook.ts`, which writes the infix
operators `matches` and `regex` as calls, beside a rewriting that knows
where string literals begin and end.
-/

namespace Newide.Hook.Condition

open Gate Replacement

variable {text rest left op right : List Char} {c : Char}

/-! ## The two rewritings -/

variable {out behind other : List Char}

theorem infixAt_shorter {literal : List Char → Option (List Char × List Char)}
    (hliteral : ∀ {text right rest}, literal text = some (right, rest) → rest.length < text.length)
    (h : infixAt literal text = some (out, rest)) :
    rest.length < text.length := by
  obtain ⟨left, op, atLiteral, right, hoperands, hright, _⟩ := infixAt_eq_some h
  obtain ⟨behind, hpath, hoperator⟩ := operands_eq_some hoperands
  obtain ⟨rfl, _⟩ := path_eq_some hpath
  obtain ⟨_, space, between, rfl, _⟩ := spacedOperator_eq_some hoperator
  have hless := hliteral hright
  simp only [List.length_append]
  omega

theorem quoted_shorter (h : quoted text = some (right, rest)) : rest.length < text.length := by
  obtain ⟨q, body, _, _, _, rfl⟩ := quoted_eq_some h
  simp only [List.length_cons, List.length_append]
  omega

theorem stringLiteral_shorter (h : stringLiteral text = some (right, rest)) :
    rest.length < text.length := by
  obtain ⟨rfl, q, inner, _, rfl⟩ := stringLiteral_eq_some h
  simp only [List.length_cons, List.length_append]
  omega

def sourceMatcher : Matcher Char where
  read := infixAt quoted
  shorter h := infixAt_shorter quoted_shorter h

def preprocessExpression (expression : List Char) : List Char :=
  replaceAll sourceMatcher expression

/-- An infix, or else a string literal that stays what it is. -/
def readOutside (text : List Char) : Option (List Char × List Char) :=
  (infixAt stringLiteral text).or (stringLiteral text)

def outsideMatcher : Matcher Char where
  read := readOutside
  shorter h := by
    rcases Option.or_eq_some_iff.mp h with hcall | ⟨_, hliteral⟩
    · exact infixAt_shorter stringLiteral_shorter hcall
    · exact stringLiteral_shorter hliteral

def rewriteOutside (expression : List Char) : List Char := replaceAll outsideMatcher expression

/-! ## Where the rewritings agree -/

/-- No infix begins inside of a string literal, nor ends with a quote inside of one, as far as the
text is read from the left. -/
inductive Regular : List Char → Prop where
  | nil : Regular []
  | applied {text left op atLiteral right rest : List Char}
      (hoperands : operands text = some (left, op, atLiteral))
      (hliteral : stringLiteral atLiteral = some (right, rest))
      (hquoted : quoted atLiteral = some (right, rest)) (hrest : Regular rest) : Regular text
  | literal {text right rest : List Char} (hcall : infixAt stringLiteral text = none)
      (hliteral : stringLiteral text = some (right, rest))
      (hinside : ∀ before after, right = before ++ after → after ≠ [] →
        infixAt quoted (after ++ rest) = none) (hrest : Regular rest) : Regular text
  | other {c : Char} {text : List Char} (hcall : infixAt stringLiteral (c :: text) = none)
      (hliteral : stringLiteral (c :: text) = none) (hquoted : infixAt quoted (c :: text) = none)
      (hrest : Regular text) : Regular (c :: text)

theorem preprocess_of_regular {expression : List Char} (h : Regular expression) :
    preprocessExpression expression = rewriteOutside expression := by
  unfold preprocessExpression rewriteOutside
  induction h with
  | nil => rfl
  | @applied text left op atLiteral right rest hoperands hliteral hquoted _ ih =>
      have hsource : sourceMatcher.read text = some (call left op right, rest) := by
        have hread := @infixAt_of_operands _ _ _ _ quoted hoperands
        rw [hquoted] at hread
        exact hread
      have houtside : outsideMatcher.read text = some (call left op right, rest) := by
        have hread := @infixAt_of_operands _ _ _ _ stringLiteral hoperands
        rw [hliteral] at hread
        exact Option.or_eq_some_iff.mpr (.inl hread)
      rw [replaceAll_of_match hsource, replaceAll_of_match houtside, ih]
  | @literal text right rest hcall hliteral hinside _ ih =>
      have houtside : outsideMatcher.read text = some (right, rest) :=
        Option.or_eq_some_iff.mpr (.inr ⟨hcall, hliteral⟩)
      obtain ⟨rfl, _⟩ := stringLiteral_eq_some hliteral
      rw [replaceAll_of_match houtside, replaceAll_append hinside, ih]
  | @other c text hcall hliteral hquoted _ ih =>
      have houtside : outsideMatcher.read (c :: text) = none :=
        Option.or_eq_none_iff.mpr ⟨hcall, hliteral⟩
      rw [replaceAll_of_none houtside, replaceAll_of_none hquoted, ih]

theorem isPathChar_range (h : isPathChar c = true) : 46 ≤ c.toNat ∧ c.toNat ≤ 122 := by
  have hval : c.toNat = c.val.toNat := rfl
  delta isPathChar isWord Char.isAlphanum Char.isAlpha Char.isUpper Char.isLower Char.isDigit at h
  simp only [Bool.or_eq_true, Bool.and_eq_true, decide_eq_true_eq, ge_iff_le,
    UInt32.le_iff_toNat_le] at h
  rcases h with ((((h | h) | h) | rfl) | rfl)
  · have hA : ('A'.val.toNat = 65) := rfl
    have hZ : ('Z'.val.toNat = 90) := rfl
    omega
  · have ha : ('a'.val.toNat = 97) := rfl
    have hz : ('z'.val.toNat = 122) := rfl
    omega
  · have h0 : ('0'.val.toNat = 48) := rfl
    have h9 : ('9'.val.toNat = 57) := rfl
    omega
  · decide
  · decide

theorem not_isPathChar_of_isTrimmed (h : isTrimmed c = true) : isPathChar c = false := by
  refine Bool.eq_false_of_not_eq_true fun hpath => ?_
  have hrange := isPathChar_range hpath
  unfold isTrimmed at h
  rcases Bool.or_eq_true_iff.mp h with hlist | hspace
  · have hall : ∀ n ∈ [0x09, 0x0a, 0x0b, 0x0c, 0x0d, 0x20, 0xa0, 0x1680, 0x2028, 0x2029, 0x202f,
        0x205f, 0x3000, 0xfeff], n < 46 ∨ 122 < n := by decide
    have houtside := hall _ (List.elem_iff.mp hlist)
    omega
  · have hspaces := of_decide_eq_true hspace
    omega

theorem run_unique {a b : Char} {one behind' : List Char} (hone : ∀ c ∈ one, isPathChar c = true)
    (hother : ∀ c ∈ other, isPathChar c = true) (ha : isPathChar a = false)
    (hb : isPathChar b = false) (h : one ++ a :: behind = other ++ b :: behind') : a = b := by
  induction one generalizing other with
  | nil =>
      cases other with
      | nil => exact (List.cons.inj h).1
      | cons d other =>
          have hd := hother d List.mem_cons_self
          rw [← (List.cons.inj h).1, ha] at hd
          cases hd
  | cons c one ih =>
      cases other with
      | nil =>
          have hc := hone c List.mem_cons_self
          rw [(List.cons.inj h).1, hb] at hc
          cases hc
      | cons d other =>
          exact ih (fun e he => hone e (List.mem_cons_of_mem c he))
            (fun e he => hother e (List.mem_cons_of_mem d he)) (List.cons.inj h).2

theorem call_ne {behind' : List Char} {space : Char} (hleft : ∀ c ∈ left, isPathChar c = true)
    (hop : op ∈ operators) (hspace : isTrimmed space = true) :
    call other op right ++ behind ≠ left ++ space :: behind' := by
  intro h
  unfold call at h
  rw [List.append_assoc, List.cons_append] at h
  have hparen : '(' = space := run_unique (operators_chars op hop) hleft (by decide)
    (not_isPathChar_of_isTrimmed hspace) (by simpa using h)
  rw [← hparen] at hspace
  revert hspace
  decide

theorem rest_ne {more : List Char} (hmore : ∃ inner q, isQuote q = true ∧ more = inner ++ [q]) :
    ')' :: replaceAll sourceMatcher (more ++ rest) ≠ more ++ behind := by
  obtain ⟨inner, q, hq, rfl⟩ := hmore
  induction inner with
  | nil =>
      intro h
      obtain ⟨rfl, _⟩ := List.cons.inj h
      revert hq
      decide
  | cons c inner ih =>
      intro h
      obtain ⟨rfl, htail⟩ := List.cons.inj h
      have hnone : sourceMatcher.read (')' :: (inner ++ [q] ++ rest)) = none := rfl
      rw [List.cons_append, List.cons_append, replaceAll_of_none hnone] at htail
      exact ih htail

theorem operands_text (h : operands text = some (left, op, rest)) :
    (∀ c ∈ left, isPathChar c = true) ∧ op ∈ operators ∧
      ∃ space between, text = left ++ space :: between ++ rest ∧ isTrimmed space = true ∧
        ∀ c ∈ left ++ space :: between, isQuote c = false := by
  obtain ⟨behind, hpath, hoperator⟩ := operands_eq_some h
  obtain ⟨rfl, _, hchars, _⟩ := path_eq_some hpath
  obtain ⟨hop, space, between, rfl, hspace, hnoquote⟩ := spacedOperator_eq_some hoperator
  refine ⟨hchars, hop, space, between, (List.append_assoc _ _ _).symm, hspace, fun c hc => ?_⟩
  rcases List.mem_append.mp hc with hc | hc
  · exact not_isQuote_of_isPathChar (hchars c hc)
  · exact hnoquote c hc

/-- An infix that begins inside of a literal is not copied by the source. -/
theorem inside_ne {after : List Char} (hafter : ∃ inner q, isQuote q = true ∧
    after = inner ++ [q]) (h : infixAt quoted (after ++ rest) = some (out, other)) :
    replaceAll sourceMatcher (after ++ rest) ≠ after ++ behind := by
  intro heq
  obtain ⟨left, op, atLiteral, right, hoperands, _, rfl⟩ := infixAt_eq_some h
  obtain ⟨hchars, hop, space, between, htext, hspace, hnoquote⟩ := operands_text hoperands
  obtain ⟨inner, q, hq, rfl⟩ := hafter
  have hread : sourceMatcher.read (inner ++ [q] ++ rest) = some (call left op right, other) := h
  rw [replaceAll_of_match hread] at heq
  rcases List.append_eq_append_iff.mp htext with ⟨more, hlong, _⟩ | ⟨more, hshort, _⟩
  · -- the literal would end before its infix reaches a quote
    have hmem : q ∈ left ++ space :: between := by
      rw [hlong]
      simp
    rw [hnoquote q hmem] at hq
    cases hq
  · have hpath : call left op right ++ replaceAll sourceMatcher other =
        left ++ space :: (between ++ more ++ behind) := by
      rw [heq, hshort]
      simp
    exact call_ne hchars hop hspace hpath

theorem stringLiteral_of_not_quote (h : isQuote c = false) (text : List Char) :
    stringLiteral (c :: text) = none := by
  unfold stringLiteral
  dsimp only
  rw [h]
  rfl

theorem readOutside_space (h : isTrimmed c = true) (text : List Char) :
    readOutside (c :: text) = none := by
  have hstart : ¬ isIdentStart c = true := by
    intro hident
    have hpath := isPathChar_of_isWord (isWord_of_isIdentStart hident)
    rw [not_isPathChar_of_isTrimmed h] at hpath
    cases hpath
  have hnopath : path (c :: text) = none := by
    rw [path_cons, if_neg hstart]
  have hcall : infixAt stringLiteral (c :: text) = none := by
    unfold infixAt operands
    rw [hnopath]
    rfl
  exact Option.or_eq_none_iff.mpr
    ⟨hcall, stringLiteral_of_not_quote (not_isQuote_of_isTrimmed h) text⟩

theorem outside_copies (h : operands text = some (left, op, rest))
    (hliteral : stringLiteral rest = none) :
    ∃ space behind, isTrimmed space = true ∧ rewriteOutside text = left ++ space :: behind := by
  obtain ⟨atSpace, hpath, hoperator⟩ := operands_eq_some h
  obtain ⟨rfl, _, hchars, hsuffix⟩ := path_eq_some hpath
  have hnone : ∀ before after, left = before ++ after → after ≠ [] →
      outsideMatcher.read (after ++ atSpace) = none := by
    intro before after hleft hafter
    refine Option.or_eq_none_iff.mpr ⟨?_, ?_⟩
    · rcases hsuffix before after hleft hafter with hread | hread
      · have hoperands : operands (after ++ atSpace) = some (after, op, rest) := by
          unfold operands
          rw [hread]
          change (spacedOperator atSpace).bind _ = _
          rw [hoperator]
          rfl
        rw [infixAt_of_operands hoperands, hliteral]
        rfl
      · unfold infixAt operands
        rw [hread]
        rfl
    · cases after with
      | nil => exact absurd rfl hafter
      | cons c after =>
          refine stringLiteral_of_not_quote (not_isQuote_of_isPathChar (hchars c ?_)) _
          rw [hleft]
          simp
  obtain ⟨_, space, between, rfl, hspace, _⟩ := spacedOperator_eq_some hoperator
  refine ⟨space, rewriteOutside (between ++ rest), hspace, ?_⟩
  have hread : outsideMatcher.read (space :: (between ++ rest)) = none := readOutside_space hspace _
  unfold rewriteOutside
  rw [replaceAll_append hnone, List.cons_append, replaceAll_of_none hread]

/-- The rewritings agree behind an infix only if its literal ends where the source takes it to. -/
theorem regular_at_infix (hcall : infixAt stringLiteral text = some (out, rest))
    (heq : preprocessExpression text = rewriteOutside text)
    (ih : preprocessExpression rest = rewriteOutside rest → Regular rest) : Regular text := by
  have houtside : outsideMatcher.read text = some (out, rest) :=
    Option.or_eq_some_iff.mpr (.inl hcall)
  obtain ⟨left, op, atLiteral, right, hoperands, hliteral, rfl⟩ := infixAt_eq_some hcall
  obtain ⟨short, more, hquoted, rfl, hmore⟩ := quoted_of_stringLiteral hliteral
  have hsource : sourceMatcher.read text = some (call left op short, more ++ rest) := by
    have hread := @infixAt_of_operands _ _ _ _ quoted hoperands
    rw [hquoted] at hread
    exact hread
  unfold preprocessExpression rewriteOutside at heq
  rw [replaceAll_of_match hsource, replaceAll_of_match houtside] at heq
  have hrest : ')' :: replaceAll sourceMatcher (more ++ rest) =
      more ++ ')' :: replaceAll outsideMatcher rest := by
    unfold call at heq
    simpa using heq
  rcases hmore with rfl | hmore
  · rw [List.append_nil] at hliteral
    exact .applied hoperands hliteral hquoted (ih (List.cons.inj hrest).2)
  · exact absurd hrest (rest_ne hmore)

theorem regular_at_literal (hcall : infixAt stringLiteral text = none)
    (hliteral : stringLiteral text = some (right, rest))
    (heq : preprocessExpression text = rewriteOutside text)
    (ih : preprocessExpression rest = rewriteOutside rest → Regular rest) : Regular text := by
  have houtside : outsideMatcher.read text = some (right, rest) :=
    Option.or_eq_some_iff.mpr (.inr ⟨hcall, hliteral⟩)
  obtain ⟨rfl, q, inner, hq, hright⟩ := stringLiteral_eq_some hliteral
  unfold preprocessExpression rewriteOutside at heq
  rw [replaceAll_of_match houtside] at heq
  rcases first_match sourceMatcher right rest with
    hinside | ⟨before, after, ⟨out, other⟩, hsplit, hafter, hmatch, hcopied⟩
  · rw [replaceAll_append hinside] at heq
    exact .literal hcall hliteral hinside (ih (List.append_cancel_left heq))
  · rw [hcopied, hsplit, List.append_assoc] at heq
    have hquote : ∃ inner q, isQuote q = true ∧ after = inner ++ [q] := by
      rcases List.eq_nil_or_concat' after with rfl | ⟨start, last, rfl⟩
      · exact absurd rfl hafter
      · have hends : (q :: inner) ++ [q] = (before ++ start) ++ [last] := by
          rw [← hright, hsplit, List.append_assoc]
        rw [← (List.cons.inj (List.append_inj' hends rfl).2).1]
        exact ⟨start, q, hq, rfl⟩
    exact absurd (List.append_cancel_left heq) (inside_ne hquote hmatch)

/-- And elsewhere only if the source takes nothing for an infix either. -/
theorem regular_at_other (hcall : infixAt stringLiteral (c :: text) = none)
    (hliteral : stringLiteral (c :: text) = none)
    (heq : preprocessExpression (c :: text) = rewriteOutside (c :: text))
    (ih : preprocessExpression text = rewriteOutside text → Regular text) :
    Regular (c :: text) := by
  cases hquoted : infixAt quoted (c :: text) with
  | none =>
      have hsource : sourceMatcher.read (c :: text) = none := hquoted
      have houtside : outsideMatcher.read (c :: text) = none :=
        Option.or_eq_none_iff.mpr ⟨hcall, hliteral⟩
      unfold preprocessExpression rewriteOutside at heq
      rw [replaceAll_of_none hsource, replaceAll_of_none houtside] at heq
      exact .other hcall hliteral hquoted (ih (List.cons.inj heq).2)
  | some found =>
      obtain ⟨out, rest⟩ := found
      have hsource : sourceMatcher.read (c :: text) = some (out, rest) := hquoted
      obtain ⟨left, op, atLiteral, right, hoperands, _, rfl⟩ := infixAt_eq_some hquoted
      have hnoliteral : stringLiteral atLiteral = none := by
        rw [infixAt_of_operands hoperands] at hcall
        exact Option.map_eq_none_iff.mp hcall
      obtain ⟨hchars, hop, _⟩ := operands_text hoperands
      obtain ⟨space, behind, hspace, hcopied⟩ := outside_copies hoperands hnoliteral
      rw [hcopied] at heq
      unfold preprocessExpression at heq
      rw [replaceAll_of_match hsource] at heq
      exact absurd heq (call_ne hchars hop hspace)

theorem regular_of_preprocess (n : Nat) : ∀ text : List Char, text.length ≤ n →
    preprocessExpression text = rewriteOutside text → Regular text := by
  induction n with
  | zero =>
      intro text hle _
      rw [List.eq_nil_of_length_eq_zero (Nat.le_zero.mp hle)]
      exact .nil
  | succ n ih =>
      intro text hle heq
      cases hcall : infixAt stringLiteral text with
      | some found =>
          have hshorter := infixAt_shorter stringLiteral_shorter hcall
          exact regular_at_infix hcall heq (ih _ (by omega))
      | none =>
          cases hliteral : stringLiteral text with
          | some found =>
              have hshorter := stringLiteral_shorter hliteral
              exact regular_at_literal hcall hliteral heq (ih _ (by omega))
          | none =>
              cases text with
              | nil => exact .nil
              | cons c text =>
                  exact regular_at_other hcall hliteral heq (ih text (Nat.le_of_succ_le_succ hle))

/-- The source rewrites what stands outside of string literals, and nothing else, exactly in
regular texts. -/
theorem preprocess_iff (expression : List Char) :
    preprocessExpression expression = rewriteOutside expression ↔ Regular expression :=
  ⟨regular_of_preprocess _ expression (Nat.le_refl _), preprocess_of_regular⟩

end Newide.Hook.Condition
