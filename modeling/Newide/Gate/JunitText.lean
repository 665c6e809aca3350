import Mathlib.Data.List.TakeWhile
import Newide.Gate.OutputParser

/-!
# Reading JUnit texts

Lemmas about the readers of `parseJunit`: where literals, tags, elements and
attributes are found in a text, and where they are not.
-/

namespace Newide.Gate.Junit

open Hook

variable {text rest part literal : List Char} {c d : Char}

/-! ## Literals in a text -/

theorem toLower_cases (d : Char) :
    d.toLower = d ∨ 97 ≤ d.toLower.toNat ∧ d.toLower.toNat ≤ 122 := by
  unfold Char.toLower
  split
  case isFalse => exact .inl rfl
  case isTrue h =>
    obtain ⟨hlow, hhigh⟩ := h
    rw [ge_iff_le, UInt32.le_iff_toNat_le] at hlow
    rw [UInt32.le_iff_toNat_le] at hhigh
    have hA : 'A'.val.toNat = 65 := rfl
    have hZ : 'Z'.val.toNat = 90 := rfl
    have hsum : (d.val + ('a'.val - 'A'.val)).toNat = d.val.toNat + 32 := by
      rw [UInt32.toNat_add]
      have hshift : ('a'.val - 'A'.val).toNat = 32 := rfl
      omega
    refine .inr ?_
    change 97 ≤ (d.val + ('a'.val - 'A'.val)).toNat ∧ (d.val + ('a'.val - 'A'.val)).toNat ≤ 122
    omega

theorem eq_of_toLower (hc : c.toNat < 97 ∨ 122 < c.toNat) (h : d.toLower = c) : d = c := by
  rcases toLower_cases d with hsame | hrange
  · exact hsame.symm.trans h
  · rw [h] at hrange
    omega

theorem afterLiteral_append (literal rest : List Char) :
    afterLiteral literal (literal ++ rest) = some rest := by
  induction literal with
  | nil => cases rest <;> rfl
  | cons c literal ih =>
      rw [List.cons_append, afterLiteral, if_pos rfl]
      exact ih

theorem afterLiteral_cons_none (h : c.toLower ≠ d.toLower) :
    afterLiteral (c :: literal) (d :: text) = none := by
  rw [afterLiteral, if_neg h]

theorem afterLiteral_of_ne (h : d ≠ '<') : afterLiteral ('<' :: literal) (d :: text) = none :=
  afterLiteral_cons_none fun hlower => h (eq_of_toLower (by decide) hlower.symm)

/-- Every tag that opens in the text goes on in it, and closes no element. -/
def Calm : List Char → Prop
  | [] => True
  | [c] => c ≠ '<'
  | c :: d :: text => (c = '<' → d ≠ '/') ∧ Calm (d :: text)

theorem Calm.append (h : Calm part) (hrest : Calm rest) : Calm (part ++ rest) := by
  induction part with
  | nil => exact hrest
  | cons c part ih =>
      cases part with
      | nil =>
          cases rest with
          | nil => exact h
          | cons d rest => exact ⟨fun hc => absurd hc h, hrest⟩
      | cons d part => exact ⟨h.1, ih h.2⟩

theorem Calm.of_no_tag (h : '<' ∉ text) : Calm text := by
  induction text with
  | nil => trivial
  | cons c text ih =>
      have hc : c ≠ '<' := fun heq => h (heq ▸ List.mem_cons_self)
      have htext := ih fun hmem => h (List.mem_cons_of_mem c hmem)
      cases text with
      | nil => exact hc
      | cons d text => exact ⟨fun heq => absurd heq hc, htext⟩

theorem splitLiteral_cons_none (h : afterLiteral literal (c :: text) = none) :
    splitLiteral literal (c :: text) =
      (splitLiteral literal text).map fun split => (c :: split.1, split.2) := by
  rw [splitLiteral, h]

theorem splitLiteral_calm (h : Calm part) (rest : List Char) :
    splitLiteral ('<' :: '/' :: literal) (part ++ rest) =
      (splitLiteral ('<' :: '/' :: literal) rest).map fun split => (part ++ split.1, split.2) := by
  induction part with
  | nil =>
      have hid : (fun split : List Char × List Char => ([] ++ split.1, split.2)) = id := rfl
      rw [hid, Option.map_id]
      rfl
  | cons c part ih =>
      have hnone : afterLiteral ('<' :: '/' :: literal) (c :: (part ++ rest)) = none := by
        by_cases hc : c = '<'
        · subst hc
          cases part with
          | nil => exact absurd rfl h
          | cons d part =>
              have hd : d ≠ '/' := h.1 rfl
              rw [List.cons_append, afterLiteral, if_pos rfl]
              exact afterLiteral_cons_none fun hlower =>
                hd (eq_of_toLower (by decide) hlower.symm)
        · exact afterLiteral_of_ne hc
      have htail : Calm part := by
        cases part with
        | nil => trivial
        | cons d part => exact h.2
      rw [List.cons_append, splitLiteral_cons_none hnone, ih htail, Option.map_map]
      rfl

theorem splitLiteral_of_calm (h : Calm text) : splitLiteral ('<' :: '/' :: literal) text = none := by
  have hsplit := @splitLiteral_calm text literal h []
  rw [List.append_nil] at hsplit
  rw [hsplit]
  rfl

theorem splitLiteral_here (literal rest : List Char) :
    splitLiteral ('<' :: literal) ('<' :: literal ++ rest) = some ([], rest) := by
  rw [List.cons_append, splitLiteral, ← List.cons_append, afterLiteral_append]

variable {before value : List Char} {key : String}

theorem splitLiteral_none_of_suffix (h : splitLiteral literal (before ++ text) = none) :
    splitLiteral literal text = none := by
  induction before with
  | nil => exact h
  | cons c before ih =>
      refine ih ?_
      rw [List.cons_append, splitLiteral] at h
      split at h
      · cases h
      · exact Option.map_eq_none_iff.mp h

/-! ## Elements -/

variable {name : String} {bounded : Bool} {attrs body : List Char}

theorem openingTag_here (hattrs : '>' ∉ attrs) (hboundary : atBoundary (attrs ++ ['>']) = true)
    (rest : List Char) :
    openingTag name bounded ('<' :: name.toList ++ attrs ++ '>' :: rest) = some (attrs, rest) := by
  have hall : ∀ c ∈ attrs, decide (c ≠ '>') = true := by
    intro c hc
    exact decide_eq_true fun heq => hattrs (heq ▸ hc)
  have htake : ('>' :: rest).takeWhile (fun c => decide (c ≠ '>')) = [] := by simp
  have hdrop : ('>' :: rest).dropWhile (fun c => decide (c ≠ '>')) = '>' :: rest := by simp
  have hat : atBoundary (attrs ++ '>' :: rest) = true := by
    cases attrs <;> exact hboundary
  unfold openingTag
  rw [List.append_assoc, afterLiteral_append]
  dsimp only
  rw [hat, List.dropWhile_append_of_pos hall, hdrop, List.takeWhile_append_of_pos hall, htake,
    List.append_nil]
  cases bounded <;> rfl

theorem afterLiteral_suffix (h : afterLiteral literal text = some rest) : rest <:+ text := by
  induction literal generalizing text with
  | nil =>
      have hsame : some text = some rest := by
        cases text <;> exact h
      rw [Option.some.inj hsame]
  | cons c literal ih =>
      cases text with
      | nil => cases h
      | cons d text =>
          rw [afterLiteral] at h
          split at h
          · exact (ih h).trans (List.suffix_cons d text)
          · cases h

theorem openingTag_suffix (h : openingTag name bounded text = some (attrs, rest)) :
    ∃ first, first :: rest <:+ text := by
  unfold openingTag at h
  split at h
  · cases h
  · rename_i behind hliteral
    split at h
    · cases h
    · split at h
      · rename_i first after hdrop
        obtain ⟨_, rfl⟩ := Prod.mk.inj (Option.some.inj h)
        have hbehind := List.dropWhile_suffix (l := behind) fun c => decide (c ≠ '>')
        rw [hdrop] at hbehind
        exact ⟨first, hbehind.trans (afterLiteral_suffix hliteral)⟩
      · cases h

theorem element_none (h : splitLiteral ("</" ++ name ++ ">").toList text = none) :
    element name bounded text = none := by
  unfold element
  cases htag : openingTag name bounded text with
  | none => rfl
  | some found =>
      obtain ⟨attrs, after⟩ := found
      obtain ⟨first, hsuffix⟩ := openingTag_suffix htag
      obtain ⟨before, rfl⟩ := (List.suffix_cons first after).trans hsuffix
      dsimp only
      rw [splitLiteral_none_of_suffix h]
      rfl

theorem splitLiteral_suffix {after : List Char}
    (h : splitLiteral literal text = some (before, after)) : after <:+ text := by
  induction text generalizing before with
  | nil =>
      rw [splitLiteral] at h
      split at h
      · obtain ⟨_, rfl⟩ := Prod.mk.inj (Option.some.inj h)
        exact List.suffix_refl []
      · cases h
  | cons c text ih =>
      rw [splitLiteral] at h
      split at h
      · rename_i hliteral
        obtain ⟨_, rfl⟩ := Prod.mk.inj (Option.some.inj h)
        exact afterLiteral_suffix hliteral
      · obtain ⟨⟨found, behind⟩, hfound, heq⟩ := Option.map_eq_some_iff.mp h
        obtain ⟨_, rfl⟩ := Prod.mk.inj heq
        exact (ih hfound).trans (List.suffix_cons c text)

theorem element_shorter (h : element name bounded text = some (attrs, body, rest)) :
    rest.length < text.length := by
  unfold element at h
  split at h
  · cases h
  · rename_i tag after htag
    obtain ⟨⟨found, behind⟩, hsplit, heq⟩ := Option.map_eq_some_iff.mp h
    obtain ⟨_, hpair⟩ := Prod.mk.inj heq
    obtain ⟨_, rfl⟩ := Prod.mk.inj hpair
    have hafter := (splitLiteral_suffix hsplit).length_le
    dsimp only
    obtain ⟨first, htext⟩ := openingTag_suffix htag
    have hlength := htext.length_le
    rw [List.length_cons] at hlength
    omega

/-! ## All matches of a reader -/

def scan {β : Type} (read : List Char → Option (β × List Char)) : Nat → List Char → List β
  | 0, _ => []
  | _ + 1, [] => []
  | fuel + 1, c :: text =>
      match read (c :: text) with
      | some (found, rest) => found :: scan read fuel rest
      | none => scan read fuel text

def allIn {β : Type} (read : List Char → Option (β × List Char)) (text : List Char) : List β :=
  scan read text.length text

section

variable {β : Type} {read : List Char → Option (β × List Char)} {found : β}

theorem scan_cons (fuel : Nat) : scan read (fuel + 1) (c :: text) =
    match read (c :: text) with
    | some (found, rest) => found :: scan read fuel rest
    | none => scan read fuel text := rfl

theorem allIn_of_none (h : read (c :: text) = none) : allIn read (c :: text) = allIn read text := by
  unfold allIn
  rw [List.length_cons, scan_cons, h]

theorem allIn_skip
    (h : ∀ before after, part = before ++ after → after ≠ [] → read (after ++ rest) = none) :
    allIn read (part ++ rest) = allIn read rest := by
  induction part with
  | nil => rfl
  | cons c part ih =>
      have hnone := h [] (c :: part) rfl (List.cons_ne_nil c part)
      rw [List.cons_append] at hnone ⊢
      rw [allIn_of_none hnone]
      exact ih fun before after hpart => h (c :: before) after (congrArg (c :: ·) hpart)

/-- Nothing is passed over twice. -/
def Shortens {β : Type} (read : List Char → Option (β × List Char)) : Prop :=
  ∀ {text found rest}, read text = some (found, rest) → rest.length < text.length

theorem scan_congr (hread : Shortens read) {fuel more : Nat} (hfuel : text.length ≤ fuel)
    (hmore : text.length ≤ more) : scan read fuel text = scan read more text := by
  induction fuel generalizing more text with
  | zero =>
      rw [List.eq_nil_of_length_eq_zero (Nat.le_zero.mp hfuel)]
      cases more <;> rfl
  | succ fuel ih =>
      cases text with
      | nil => cases more <;> rfl
      | cons c text =>
          rw [List.length_cons] at hfuel hmore
          obtain ⟨more, rfl⟩ : ∃ n, more = n + 1 := ⟨more - 1, by omega⟩
          rw [scan_cons, scan_cons]
          cases hmatch : read (c :: text) with
          | none => exact ih (by omega) (by omega)
          | some pair =>
              obtain ⟨found, rest⟩ := pair
              have hshorter := hread hmatch
              rw [List.length_cons] at hshorter
              dsimp only
              rw [@ih rest more (by omega) (by omega)]

theorem allIn_of_match (hread : Shortens read) (h : read text = some (found, rest)) :
    allIn read text = found :: allIn read rest := by
  have hshorter := hread h
  cases text with
  | nil => cases hshorter
  | cons c text =>
      unfold allIn
      rw [List.length_cons, scan_cons, h]
      dsimp only
      rw [scan_congr hread (Nat.le_of_lt_succ hshorter) (Nat.le_refl _)]

end

def readElement (name : String) (text : List Char) :
    Option ((List Char × List Char) × List Char) :=
  (element name true text).map fun found => ((found.1, found.2.1), found.2.2)

theorem elements_eq_scan (name : String) (fuel : Nat) (text : List Char) :
    elements name fuel text = scan (readElement name) fuel text := by
  induction fuel generalizing text with
  | zero => rfl
  | succ fuel ih =>
      cases text with
      | nil => rfl
      | cons c text =>
          rw [elements, scan_cons, readElement]
          cases element name true (c :: text) with
          | none => exact ih text
          | some found => exact congrArg _ (ih found.2.2)

theorem openingTags_eq_scan (name : String) (fuel : Nat) (text : List Char) :
    openingTags name fuel text = scan (openingTag name true) fuel text := by
  induction fuel generalizing text with
  | zero => rfl
  | succ fuel ih =>
      cases text with
      | nil => rfl
      | cons c text =>
          rw [openingTags, scan_cons]
          cases openingTag name true (c :: text) with
          | none => exact ih text
          | some found => exact congrArg _ (ih found.2)

theorem openingTag_shortens : Shortens (openingTag name bounded) := by
  intro text attrs rest h
  obtain ⟨first, hsuffix⟩ := openingTag_suffix h
  have hlength := hsuffix.length_le
  rw [List.length_cons] at hlength
  exact hlength

theorem readElement_shortens : Shortens (readElement name) := by
  intro text found rest h
  obtain ⟨⟨attrs, body, behind⟩, helement, heq⟩ := Option.map_eq_some_iff.mp h
  obtain ⟨_, rfl⟩ := Prod.mk.inj heq
  exact element_shorter helement

theorem allIn_eq_nil (h : splitLiteral ("</" ++ name ++ ">").toList text = none) :
    allIn (readElement name) text = [] := by
  induction text with
  | nil => rfl
  | cons c text ih =>
      have hnone : readElement name (c :: text) = none := by
        unfold readElement
        rw [element_none h]
        rfl
      rw [allIn_of_none hnone]
      exact ih (@splitLiteral_none_of_suffix text _ [c] h)

theorem openingTag_of_ne (h : c ≠ '<') (text : List Char) :
    openingTag name bounded (c :: text) = none := by
  unfold openingTag
  rw [afterLiteral_of_ne h]

theorem readElement_of_ne (h : c ≠ '<') (text : List Char) :
    readElement name (c :: text) = none := by
  unfold readElement element
  rw [openingTag_of_ne h]
  rfl

/-! ## Attributes -/

variable {α : Type} {read : List Char → Option α}

theorem searchText_cons_none (h : read (c :: text) = none) :
    searchText read (c :: text) = searchText read text := by
  rw [searchText, h]

theorem searchText_here {a : α} (h : read text = some a) : searchText read text = some a := by
  cases text with
  | nil => exact h
  | cons c text => rw [searchText, h]

theorem searchText_skip
    (h : ∀ before after, part = before ++ after → after ≠ [] → read (after ++ rest) = none) :
    searchText read (part ++ rest) = searchText read rest := by
  induction part with
  | nil => rfl
  | cons c part ih =>
      have hnone := h [] (c :: part) rfl (List.cons_ne_nil c part)
      rw [List.cons_append] at hnone ⊢
      rw [searchText_cons_none hnone]
      exact ih fun before after hpart => h (c :: before) after (congrArg (c :: ·) hpart)

theorem searchText_eq_none (h : ∀ before after, text = before ++ after → read after = none) :
    searchText read text = none := by
  induction text with
  | nil => exact h [] [] rfl
  | cons c text ih =>
      rw [searchText_cons_none (h [] (c :: text) rfl)]
      exact ih fun before after htext => h (c :: before) after (congrArg (c :: ·) htext)

theorem searchText_isSome {after : List Char} (h : (read after).isSome = true) :
    (searchText read (before ++ after)).isSome = true := by
  induction before with
  | nil =>
      obtain ⟨a, ha⟩ := Option.isSome_iff_exists.mp h
      rw [List.nil_append, searchText_here ha]
      rfl
  | cons c before ih =>
      rw [List.cons_append, searchText]
      split
      · rfl
      · exact ih

theorem afterLiteral_value (hliteral : '"' ∉ literal) (hvalue : '"' ∉ value) :
    (∀ rest, afterLiteral literal (value ++ '"' :: rest) = none) ∨
      ∃ behind, '"' ∉ behind ∧
        ∀ rest, afterLiteral literal (value ++ '"' :: rest) = some (behind ++ '"' :: rest) := by
  induction literal generalizing value with
  | nil => exact .inr ⟨value, hvalue, fun rest => by cases value <;> rfl⟩
  | cons c literal ih =>
      cases value with
      | nil =>
          refine .inl fun rest => afterLiteral_cons_none fun hlower => hliteral ?_
          rw [eq_of_toLower (by decide) hlower]
          exact List.mem_cons_self
      | cons d value =>
          have htail := @ih value (fun hmem => hliteral (List.mem_cons_of_mem c hmem))
            fun hmem => hvalue (List.mem_cons_of_mem d hmem)
          by_cases hlower : c.toLower = d.toLower
          · have hstep : ∀ rest, afterLiteral (c :: literal) (d :: value ++ '"' :: rest) =
                afterLiteral literal (value ++ '"' :: rest) := by
              intro rest
              rw [List.cons_append, afterLiteral, if_pos hlower]
            rcases htail with hnone | ⟨behind, hbehind, hsome⟩
            · exact .inl fun rest => (hstep rest).trans (hnone rest)
            · exact .inr ⟨behind, hbehind, fun rest => (hstep rest).trans (hsome rest)⟩
          · exact .inl fun rest => afterLiteral_cons_none hlower

theorem dropWhile_value (hvalue : '"' ∉ value) :
    ∃ behind, '"' ∉ behind ∧
      ∀ rest, (value ++ '"' :: rest).dropWhile isTrimmed = behind ++ '"' :: rest := by
  induction value with
  | nil => exact ⟨[], hvalue, fun rest => rfl⟩
  | cons c value ih =>
      by_cases hc : isTrimmed c = true
      · obtain ⟨behind, hbehind, hdrop⟩ := ih fun hmem => hvalue (List.mem_cons_of_mem c hmem)
        refine ⟨behind, hbehind, fun rest => ?_⟩
        rw [List.cons_append, List.dropWhile_cons_of_pos hc]
        exact hdrop rest
      · refine ⟨c :: value, hvalue, fun rest => ?_⟩
        rw [List.cons_append, List.dropWhile_cons_of_neg hc]

def openedBy : List Char → Option (List Char)
  | '=' :: rest =>
      match rest.dropWhile isTrimmed with
      | '"' :: rest => some rest
      | _ => none
  | _ => none

theorem quotedAfter_value (hkey : '"' ∉ key.toList) (hvalue : '"' ∉ value) :
    (∀ rest, quotedAfter key (value ++ '"' :: rest) = none) ∨
      ∀ rest, quotedAfter key (value ++ '"' :: rest) = some rest := by
  rcases afterLiteral_value hkey hvalue with hnone | ⟨behind, hbehind, hsome⟩
  · refine .inl fun rest => ?_
    unfold quotedAfter
    rw [hnone rest]
    rfl
  · obtain ⟨equals, hequals, hdrop⟩ := dropWhile_value hbehind
    have hread : ∀ rest, quotedAfter key (value ++ '"' :: rest) =
        openedBy (equals ++ '"' :: rest) := by
      intro rest
      unfold quotedAfter
      rw [hsome rest, ← hdrop rest]
      rfl
    cases equals with
    | nil => exact .inl fun rest => (hread rest).trans rfl
    | cons c equals =>
        by_cases hc : c = '='
        · subst hc
          have hquote : '"' ∉ equals := fun hmem => hequals (List.mem_cons_of_mem '=' hmem)
          obtain ⟨last, hlast, hdropped⟩ := dropWhile_value hquote
          cases last with
          | nil =>
              refine .inr fun rest => (hread rest).trans ?_
              rw [List.cons_append, openedBy, hdropped rest]
              rfl
          | cons d last =>
              refine .inl fun rest => (hread rest).trans ?_
              have hd : d ≠ '"' := fun heq => hlast (heq ▸ List.mem_cons_self)
              rw [List.cons_append, openedBy, hdropped rest]
              split
              · rename_i heq
                exact absurd (List.cons.inj heq).1 hd
              · rfl
        · refine .inl fun rest => (hread rest).trans ?_
          unfold openedBy
          split
          · rename_i heq
            exact absurd (List.cons.inj heq).1 hc
          · rfl

def endsInAttribute (key : String) : List Char → Bool
  | [] => false
  | c :: value =>
      (quotedAfter key (c :: value ++ ['"'])).isSome || endsInAttribute key value

/-- What `extractStrAttr` looks for at one place. -/
def readAttribute (key : String) (text : List Char) : Option (List Char) := do
  let rest ← quotedAfter key text
  if '"' ∈ rest then some (rest.takeWhile fun c => c ≠ '"') else none

theorem extractStrAttr_eq (attrs : List Char) (key : String) :
    extractStrAttr attrs key = (searchText (readAttribute key) attrs).getD [] := rfl

theorem readAttribute_of_quoted (hvalue : '"' ∉ value)
    (h : quotedAfter key text = some (value ++ '"' :: rest)) :
    readAttribute key text = some value := by
  have hall : ∀ c ∈ value, decide (c ≠ '"') = true := by
    intro c hc
    exact decide_eq_true fun heq => hvalue (heq ▸ hc)
  have htake : ('"' :: rest).takeWhile (fun c => decide (c ≠ '"')) = [] := by simp
  unfold readAttribute
  rw [h]
  change (if '"' ∈ value ++ '"' :: rest then
    some ((value ++ '"' :: rest).takeWhile fun c => decide (c ≠ '"')) else none) = _
  rw [if_pos (List.mem_append_right value List.mem_cons_self),
    List.takeWhile_append_of_pos hall, htake, List.append_nil]

theorem readAttribute_none (h : quotedAfter key text = none) :
    readAttribute key text = none := by
  unfold readAttribute
  rw [h]
  rfl

theorem searchText_value {next : List Char} (hkey : '"' ∉ key.toList) (hvalue : '"' ∉ value)
    (hnext : '"' ∉ next) (rest : List Char) :
    searchText (readAttribute key) (value ++ '"' :: (next ++ '"' :: rest)) =
      if endsInAttribute key value then some next
      else searchText (readAttribute key) ('"' :: (next ++ '"' :: rest)) := by
  induction value with
  | nil => rfl
  | cons c value ih =>
      have htail : '"' ∉ value := fun hmem => hvalue (List.mem_cons_of_mem c hmem)
      rw [List.cons_append, endsInAttribute]
      rcases quotedAfter_value hkey hvalue with hnone | hsome
      · have hend := hnone []
        have hhere := hnone (next ++ '"' :: rest)
        have hpassed : searchText (readAttribute key) (c :: (value ++ '"' :: (next ++ '"' :: rest))) =
            searchText (readAttribute key) (value ++ '"' :: (next ++ '"' :: rest)) :=
          searchText_cons_none (readAttribute_none hhere)
        rw [hend, hpassed, ih htail]
        rfl
      · have hend := hsome []
        have hhere := hsome (next ++ '"' :: rest)
        have hfound : searchText (readAttribute key) (c :: (value ++ '"' :: (next ++ '"' :: rest))) =
            some next := searchText_here (readAttribute_of_quoted hnext hhere)
        rw [hend, hfound]
        rfl

end Newide.Gate.Junit
