import Newide.Foundation.Lines

/-!
# Decoding UTF-8 in chunks

The decoder of the encoding standard, byte by byte: what is not UTF-8
becomes U+FFFD, once for each longest start of a character.  Chunks that
are decoded each on its own give the text of the whole exactly when none
ends inside a character.  Otherwise they give more characters, and differ
in runs of characters outside ASCII only.
-/

namespace Utf8

open Lines

/-! ## The decoder -/

/-- With this many bytes after it, a code point can only become that of a character outside
ASCII. -/
def Scalars : Nat → Nat → Prop
  | 0, codePoint => 0x80 ≤ codePoint ∧ codePoint.isValidChar
  | later + 1, codePoint =>
      ∀ b, 0x80 ≤ b → b ≤ 0xBF → Scalars later (codePoint * 64 + (b - 0x80))

/-- A character that is not complete: the range of its next byte, and how many come after it. -/
structure Pending where
  later : Nat
  lower : Nat
  upper : Nat
  codePoint : Nat
  tail : 0x80 ≤ lower ∧ upper ≤ 0xBF
  scalars : ∀ b, lower ≤ b → b ≤ upper → Scalars later (codePoint * 64 + (b - 0x80))

def replacement : Char := '\uFFFD'

def start (b : Nat) : List Char × Option Pending :=
  if b ≤ 0x7F then ([Char.ofNat b], none)
  else if h : 0xC2 ≤ b ∧ b ≤ 0xDF then
    ([], some
      { later := 0, lower := 0x80, upper := 0xBF, codePoint := b - 0xC0
        tail := ⟨Nat.le_refl _, Nat.le_refl _⟩
        scalars := fun c hlower hupper => by
          unfold Scalars Nat.isValidChar
          omega })
  else if h : 0xE0 ≤ b ∧ b ≤ 0xEF then
    ([], some
      { later := 1, lower := if b = 0xE0 then 0xA0 else 0x80
        upper := if b = 0xED then 0x9F else 0xBF, codePoint := b - 0xE0
        tail := by split <;> split <;> omega
        scalars := fun c hlower hupper => by
          unfold Scalars Scalars Nat.isValidChar
          intro d hd hd'
          split at hlower <;> split at hupper <;> omega })
  else if h : 0xF0 ≤ b ∧ b ≤ 0xF4 then
    ([], some
      { later := 2, lower := if b = 0xF0 then 0x90 else 0x80
        upper := if b = 0xF4 then 0x8F else 0xBF, codePoint := b - 0xF0
        tail := by split <;> split <;> omega
        scalars := fun c hlower hupper => by
          unfold Scalars Scalars Scalars Nat.isValidChar
          intro d hd hd' e he he'
          split at hlower <;> split at hupper <;> omega })
  else ([replacement], none)

/-- A byte in the range of the next one. -/
def Pending.next (p : Pending) (b : Nat) (h : p.lower ≤ b ∧ b ≤ p.upper) :
    List Char × Option Pending :=
  match hlater : p.later with
  | 0 => ([Char.ofNat (p.codePoint * 64 + (b - 0x80))], none)
  | later + 1 =>
      ([], some
        { later := later, lower := 0x80, upper := 0xBF
          codePoint := p.codePoint * 64 + (b - 0x80)
          tail := ⟨Nat.le_refl _, Nat.le_refl _⟩
          scalars := by
            have hscalars := p.scalars b h.1 h.2
            rw [hlater] at hscalars
            exact hscalars })

/-- A byte out of range ends the character and is read again. -/
def step : Option Pending → UInt8 → List Char × Option Pending
  | none, b => start b.toNat
  | some p, b =>
      if h : p.lower ≤ b.toNat ∧ b.toNat ≤ p.upper then p.next b.toNat h
      else (replacement :: (start b.toNat).1, (start b.toNat).2)

def flush : Option Pending → List Char
  | none => []
  | some _ => [replacement]

def decodeFrom : Option Pending → List UInt8 → List Char
  | state, [] => flush state
  | state, b :: bytes => (step state b).1 ++ decodeFrom (step state b).2 bytes

def decode (bytes : List UInt8) : List Char := decodeFrom none bytes

/-- Where the decoder stands after these bytes. -/
def after : Option Pending → List UInt8 → Option Pending
  | state, [] => state
  | state, b :: bytes => after (step state b).2 bytes

/-- The bytes go on with the character that is not complete. -/
def Continues : Option Pending → List UInt8 → Prop
  | some p, b :: _ => p.lower ≤ b.toNat ∧ b.toNat ≤ p.upper
  | _, _ => False

instance : (state : Option Pending) → (bytes : List UInt8) → Decidable (Continues state bytes)
  | some p, b :: _ => inferInstanceAs (Decidable (p.lower ≤ b.toNat ∧ b.toNat ≤ p.upper))
  | some _, [] => inferInstanceAs (Decidable False)
  | none, _ => inferInstanceAs (Decidable False)

/-- Between these bytes and those a character is cut. -/
def Cut (bytes more : List UInt8) : Prop := Continues (after none bytes) more

instance (bytes more : List UInt8) : Decidable (Cut bytes more) :=
  inferInstanceAs (Decidable (Continues (after none bytes) more))

/-! ## One byte -/

variable {state : Option Pending} {p : Pending} {b : UInt8} {bytes more : List UInt8} {n : Nat}

theorem toNat_ofNat (h : n.isValidChar) : (Char.ofNat n).toNat = n := by
  have hchar : Char.ofNat n = Char.ofNatAux n h := dif_pos h
  rw [hchar]
  rfl

theorem start_ascii (h : n ≤ 0x7F) : start n = ([Char.ofNat n], none) := if_pos h

theorem start_tail (h : 0x80 ≤ n) (h' : n ≤ 0xBF) : start n = ([replacement], none) := by
  unfold start
  rw [if_neg (by omega), dif_neg (by omega), dif_neg (by omega), dif_neg (by omega)]

theorem start_cases (n : Nat) : (n ≤ 0x7F ∧ start n = ([Char.ofNat n], none)) ∨
    start n = ([replacement], none) ∨ ∃ p, start n = ([], some p) := by
  unfold start
  split
  · rename_i h
    exact .inl ⟨h, rfl⟩
  · split
    · exact .inr (.inr ⟨_, rfl⟩)
    · split
      · exact .inr (.inr ⟨_, rfl⟩)
      · split
        · exact .inr (.inr ⟨_, rfl⟩)
        · exact .inr (.inl rfl)

theorem next_cases (h : p.lower ≤ n ∧ n ≤ p.upper) :
    (∃ c : Char, 0x80 ≤ c.toNat ∧ p.next n h = ([c], none)) ∨ ∃ p', p.next n h = ([], some p') := by
  unfold Pending.next
  split
  · rename_i hlater
    have hscalars := p.scalars n h.1 h.2
    rw [hlater] at hscalars
    obtain ⟨hwide, hvalid⟩ := hscalars
    refine .inl ⟨_, ?_, rfl⟩
    rw [toNat_ofNat hvalid]
    exact hwide
  · exact .inr ⟨_, rfl⟩

theorem step_continues (h : p.lower ≤ b.toNat ∧ b.toNat ≤ p.upper) :
    step (some p) b = p.next b.toNat h := dif_pos h

theorem step_ends (h : ¬ (p.lower ≤ b.toNat ∧ b.toNat ≤ p.upper)) :
    step (some p) b = (replacement :: (step none b).1, (step none b).2) := dif_neg h

theorem decode_tail (h : p.lower ≤ b.toNat ∧ b.toNat ≤ p.upper) :
    decode (b :: bytes) = replacement :: decode bytes := by
  have hstart := start_tail (Nat.le_trans p.tail.1 h.1) (Nat.le_trans h.2 p.tail.2)
  rw [decode, decodeFrom, step, hstart]
  rfl

/-! ## Chunks -/

theorem decodeFrom_ends (h : ¬ Continues state bytes) :
    decodeFrom state bytes = flush state ++ decode bytes := by
  cases state with
  | none => rfl
  | some p =>
      cases bytes with
      | nil => rfl
      | cons b bytes =>
          rw [decodeFrom, step_ends h]
          rfl

theorem decodeFrom_emitted : ∃ emitted : List Char,
    decodeFrom state bytes = emitted ++ flush (after state bytes) ∧
      decodeFrom state (bytes ++ more) = emitted ++ decodeFrom (after state bytes) more := by
  induction bytes generalizing state with
  | nil => exact ⟨[], rfl, rfl⟩
  | cons b bytes ih =>
      obtain ⟨emitted, hend, hmore⟩ := @ih (step state b).2
      refine ⟨(step state b).1 ++ emitted, ?_, ?_⟩
      · rw [decodeFrom, hend, after, List.append_assoc]
      · rw [List.cons_append, decodeFrom, hmore, after, List.append_assoc]

theorem decode_append (h : ¬ Cut bytes more) :
    decode (bytes ++ more) = decode bytes ++ decode more := by
  obtain ⟨emitted, hend, hmore⟩ := @decodeFrom_emitted none bytes more
  rw [decode, decode, hend, hmore, decodeFrom_ends h, List.append_assoc]

theorem length_continued (h : p.lower ≤ b.toNat ∧ b.toNat ≤ p.upper)
    (hrest : ∀ p', (decodeFrom (some p') bytes).length ≤ 1 + (decode bytes).length) :
    (decodeFrom (some p) (b :: bytes)).length < 1 + (decode (b :: bytes)).length := by
  rw [decode_tail h, decodeFrom, step_continues h]
  rcases next_cases h with ⟨c, _, hnext⟩ | ⟨p', hnext⟩
  · rw [hnext]
    simp [decode]
  · have hrest := hrest p'
    rw [hnext]
    simp only [List.length_cons, List.nil_append]
    omega

theorem length_decodeFrom_le :
    (decodeFrom state bytes).length ≤ (flush state).length + (decode bytes).length := by
  induction bytes generalizing state with
  | nil => exact Nat.le_add_right _ _
  | cons b bytes ih =>
      by_cases h : Continues state (b :: bytes)
      · cases state with
        | none => cases h
        | some p => exact Nat.le_of_lt (length_continued h fun p' => ih)
      · exact Nat.le_of_eq (by rw [decodeFrom_ends h, List.length_append])

theorem length_decodeFrom_lt (h : Continues state bytes) :
    (decodeFrom state bytes).length < (flush state).length + (decode bytes).length := by
  cases state with
  | none => cases h
  | some p =>
      cases bytes with
      | nil => cases h
      | cons b bytes => exact length_continued h fun p' => length_decodeFrom_le

theorem length_decode_cut (h : Cut bytes more) :
    (decode (bytes ++ more)).length < (decode bytes).length + (decode more).length := by
  obtain ⟨emitted, hend, hmore⟩ := @decodeFrom_emitted none bytes more
  have hlt := length_decodeFrom_lt h
  rw [decode, decode, hend, hmore, List.length_append, List.length_append]
  omega

theorem length_decode_append_le :
    (decode (bytes ++ more)).length ≤ (decode bytes).length + (decode more).length := by
  by_cases h : Cut bytes more
  · exact Nat.le_of_lt (length_decode_cut h)
  · exact Nat.le_of_eq (by rw [decode_append h, List.length_append])

/-- No character is cut between two pieces. -/
def Uncut : List (List UInt8) → Prop
  | [] => True
  | piece :: pieces => ¬ Cut piece pieces.flatten ∧ Uncut pieces

theorem length_pieces_le (pieces : List (List UInt8)) :
    (decode pieces.flatten).length ≤ (pieces.flatMap decode).length := by
  induction pieces with
  | nil => exact Nat.le_refl _
  | cons piece pieces ih =>
      have hle := @length_decode_append_le piece pieces.flatten
      rw [List.flatten_cons, List.flatMap_cons, List.length_append]
      omega

theorem decode_pieces_iff (pieces : List (List UInt8)) :
    pieces.flatMap decode = decode pieces.flatten ↔ Uncut pieces := by
  induction pieces with
  | nil => exact ⟨fun _ => trivial, fun _ => rfl⟩
  | cons piece pieces ih =>
      rw [List.flatMap_cons, List.flatten_cons]
      by_cases hcut : Cut piece pieces.flatten
      · refine ⟨fun h => ?_, fun h => absurd hcut h.1⟩
        have hlength := congrArg List.length h
        have hlt := length_decode_cut hcut
        have hle := length_pieces_le pieces
        rw [List.length_append] at hlength
        omega
      · rw [decode_append hcut, List.append_cancel_left_eq, ih]
        exact ⟨fun h => ⟨hcut, h⟩, fun h => h.2⟩

/-! ## Bytes of ASCII -/

theorem not_continues_ascii (h : b.toNat < 0x80) : ¬ Continues state (b :: more) := by
  cases state with
  | none => exact id
  | some p => exact fun hrange => absurd (Nat.le_trans p.tail.1 hrange.1) (Nat.not_le.mpr h)

theorem decode_ascii (h : b.toNat < 0x80) :
    decode (bytes ++ b :: more) = decode bytes ++ Char.ofNat b.toNat :: decode more := by
  rw [decode_append (not_continues_ascii h), List.append_cancel_left_eq, decode, decodeFrom, step,
    start_ascii (Nat.le_of_lt_succ h)]
  rfl

variable {c : Char} {text : List Char} {marks : List (Option Char)}

theorem toNat_start (hc : c.toNat < 0x80) (h : c ∈ (start n).1) : c.toNat = n := by
  rcases start_cases n with ⟨hascii, hstart⟩ | hstart | ⟨p, hstart⟩
  · rw [hstart] at h
    rw [List.mem_singleton.mp h]
    exact toNat_ofNat (.inl (by omega))
  · rw [hstart] at h
    rw [List.mem_singleton.mp h] at hc
    exact absurd hc (by decide)
  · rw [hstart] at h
    cases h

theorem ascii_of_mem (hc : c.toNat < 0x80) (h : c ∈ decodeFrom state bytes) :
    ∃ b ∈ bytes, b.toNat = c.toNat := by
  induction bytes generalizing state with
  | nil =>
      cases state with
      | none => cases h
      | some p =>
          rw [List.mem_singleton.mp h] at hc
          exact absurd hc (by decide)
  | cons b bytes ih =>
      rcases List.mem_append.mp h with h | h
      · refine ⟨b, List.mem_cons_self, ?_⟩
        cases state with
        | none => exact (toNat_start hc h).symm
        | some p =>
            by_cases hrange : p.lower ≤ b.toNat ∧ b.toNat ≤ p.upper
            · rw [step_continues hrange] at h
              rcases next_cases hrange with ⟨d, hwide, hnext⟩ | ⟨p', hnext⟩
              · rw [hnext] at h
                rw [List.mem_singleton.mp h] at hc
                exact absurd hwide (Nat.not_le.mpr hc)
              · rw [hnext] at h
                cases h
            · rw [step_ends hrange] at h
              rcases List.mem_cons.mp h with rfl | h
              · exact absurd hc (by decide)
              · exact (toNat_start hc h).symm
      · obtain ⟨d, hd, hbyte⟩ := ih h
        exact ⟨d, List.mem_cons_of_mem _ hd, hbyte⟩

/-! ## Outlines -/

def mark : List (Option Char) → List (Option Char)
  | none :: outline => none :: outline
  | outline => none :: outline

/-- A text with every run of characters outside ASCII shrunk to one mark. -/
def outline : List Char → List (Option Char)
  | [] => []
  | c :: text => if c.toNat < 0x80 then some c :: outline text else mark (outline text)

theorem mark_mark (marks : List (Option Char)) : mark (mark marks) = mark marks := by
  cases marks with
  | nil => rfl
  | cons first marks => cases first <;> rfl

theorem outline_ascii (h : c.toNat < 0x80) :
    outline (c :: text) = some c :: outline text := if_pos h

theorem outline_wide (h : 0x80 ≤ c.toNat) :
    outline (c :: text) = mark (outline text) := if_neg (Nat.not_lt.mpr h)

theorem outline_replacement :
    outline (replacement :: text) = mark (outline text) := outline_wide (by decide)

theorem outline_eq_nil (h : outline text = []) : text = [] := by
  cases text with
  | nil => rfl
  | cons c text =>
      rw [outline] at h
      split at h
      · cases h
      · cases hrest : outline text with
        | nil =>
            rw [hrest] at h
            cases h
        | cons first marks =>
            rw [hrest] at h
            cases first <;> cases h

theorem outline_append_congr {text' : List Char} (first : List Char)
    (h : outline text = outline text') : outline (first ++ text) = outline (first ++ text') := by
  induction first with
  | nil => exact h
  | cons c first ih => rw [List.cons_append, List.cons_append, outline, outline, ih]

theorem outline_append_ascii {first : List Char} (h : ∀ c ∈ first, c.toNat < 0x80) :
    outline (first ++ text) = first.map some ++ outline text := by
  induction first with
  | nil => rfl
  | cons c first ih =>
      obtain ⟨hc, hfirst⟩ := List.forall_mem_cons.mp h
      rw [List.cons_append, outline_ascii hc, ih hfirst]
      rfl

theorem eq_append_of_outline {first : List Char} (h : outline text = first.map some ++ marks) :
    ∃ rest, text = first ++ rest ∧ outline rest = marks := by
  induction first generalizing text with
  | nil => exact ⟨text, rfl, h⟩
  | cons c first ih =>
      cases text with
      | nil => cases h
      | cons d text =>
          rw [outline] at h
          split at h
          · obtain ⟨hfirst, hrest⟩ := List.cons.inj h
            obtain ⟨rest, rfl, hmarks⟩ := ih hrest
            rw [Option.some.inj hfirst]
            exact ⟨rest, rfl, hmarks⟩
          · cases hmarks : outline text with
            | nil =>
                rw [hmarks] at h
                cases h
            | cons mark marks =>
                rw [hmarks] at h
                cases mark <;> cases h

theorem outline_concat (text : List Char) (h : c.toNat < 0x80) :
    outline (text ++ [c]) = outline text ++ [some c] := by
  induction text with
  | nil => exact outline_ascii h
  | cons d text ih =>
      rw [List.cons_append, outline, outline, ih]
      split
      · rfl
      · cases outline text with
        | nil => rfl
        | cons first marks => cases first <;> rfl

theorem eq_concat_of_outline (h : outline text = marks ++ [some c]) :
    ∃ rest, text = rest ++ [c] ∧ outline rest = marks := by
  induction text generalizing marks with
  | nil => exact absurd h.symm (by simp [outline])
  | cons d text ih =>
      by_cases hd : d.toNat < 0x80
      · rw [outline_ascii hd] at h
        cases marks with
        | nil =>
            obtain ⟨hfirst, hrest⟩ := List.cons.inj h
            rw [outline_eq_nil hrest, Option.some.inj hfirst]
            exact ⟨[], rfl, rfl⟩
        | cons mark marks =>
            obtain ⟨rfl, hrest⟩ := List.cons.inj h
            obtain ⟨rest, rfl, hmarks⟩ := ih hrest
            exact ⟨d :: rest, rfl, by rw [outline_ascii hd, hmarks]⟩
      · have hwide := Nat.not_lt.mp hd
        rw [outline_wide hwide] at h
        -- the mark of this character is its own, or that of the run behind it
        have hcases : outline text = marks ++ [some c] ∧ mark marks = marks ∨
            ∃ marks', marks = none :: marks' ∧ outline text = marks' ++ [some c] ∧
              mark marks' = none :: marks' := by
          cases htext : outline text with
          | nil =>
              rw [htext] at h
              cases marks with
              | nil => cases h
              | cons mark marks => cases marks <;> cases h
          | cons first more =>
              rw [htext] at h
              cases first with
              | none =>
                  refine .inl ⟨h, ?_⟩
                  cases marks with
                  | nil => cases h
                  | cons mark marks =>
                      rw [← (List.cons.inj h).1]
                      rfl
              | some e =>
                  cases marks with
                  | nil => cases h
                  | cons mark marks =>
                      obtain ⟨rfl, hmore⟩ := List.cons.inj h
                      refine .inr ⟨marks, rfl, hmore, ?_⟩
                      cases marks with
                      | nil => rfl
                      | cons mark marks =>
                          rw [← (List.cons.inj hmore).1]
                          rfl
        rcases hcases with ⟨hrest, hmark⟩ | ⟨marks', rfl, hrest, hmark⟩
        · obtain ⟨rest, rfl, hmarks⟩ := ih hrest
          exact ⟨d :: rest, rfl, by rw [outline_wide hwide, hmarks, hmark]⟩
        · obtain ⟨rest, rfl, hmarks⟩ := ih hrest
          exact ⟨d :: rest, rfl, by rw [outline_wide hwide, hmarks, hmark]⟩

theorem outline_decodeFrom :
    outline (decodeFrom state bytes) = outline (flush state ++ decode bytes) := by
  induction bytes generalizing state with
  | nil =>
      cases state with
      | none => rfl
      | some p => rfl
  | cons b bytes ih =>
      by_cases h : Continues state (b :: bytes)
      · cases state with
        | none => cases h
        | some p =>
            rw [decode_tail h, decodeFrom, step_continues h]
            change _ = outline (replacement :: replacement :: decode bytes)
            rw [outline_replacement, outline_replacement, mark_mark]
            rcases next_cases h with ⟨c, hwide, hnext⟩ | ⟨p', hnext⟩
            · rw [hnext]
              exact outline_wide hwide
            · rw [hnext]
              exact ih.trans outline_replacement
      · rw [decodeFrom_ends h]

theorem decode_eq_nil (h : decode bytes = []) : bytes = [] := by
  cases bytes with
  | nil => rfl
  | cons b bytes =>
      rw [decode, decodeFrom, step] at h
      rcases start_cases b.toNat with ⟨_, hstart⟩ | hstart | ⟨p, hstart⟩
      · rw [hstart] at h
        cases h
      · rw [hstart] at h
        cases h
      · have houtline := @outline_decodeFrom (some p) bytes
        rw [hstart] at h
        rw [show decodeFrom (some p) bytes = [] from h] at houtline
        cases outline_eq_nil houtline.symm

theorem outline_decode_append :
    outline (decode (bytes ++ more)) = outline (decode bytes ++ decode more) := by
  obtain ⟨emitted, hend, hmore⟩ := @decodeFrom_emitted none bytes more
  rw [decode, decode, hend, hmore, List.append_assoc]
  exact outline_append_congr emitted outline_decodeFrom

theorem outline_pieces (pieces : List (List UInt8)) :
    outline (pieces.flatMap decode) = outline (decode pieces.flatten) := by
  induction pieces with
  | nil => rfl
  | cons piece pieces ih =>
      rw [List.flatMap_cons, List.flatten_cons, outline_decode_append]
      exact outline_append_congr _ ih

/-! ## Lines -/

theorem decode_joinLines (split : Split (List UInt8)) :
    decode (joinLines 0x0A split) = joinLines '\n' (split.map decode) := by
  obtain ⟨lines, rest⟩ := split
  induction lines with
  | nil => rfl
  | cons line lines ih =>
      have hbytes : joinLines 0x0A (line :: lines, rest) =
          line ++ 0x0A :: joinLines 0x0A (lines, rest) := by
        simp [joinLines]
      have htext : joinLines '\n' (Split.map decode (line :: lines, rest)) =
          decode line ++ '\n' :: joinLines '\n' (Split.map decode (lines, rest)) := by
        simp [joinLines, Split.map]
      have hascii : (0x0A : UInt8).toNat < 0x80 := by decide
      rw [hbytes, htext, decode_ascii hascii, ih]
      rfl

theorem newline_not_mem {piece : List UInt8} (h : 0x0A ∉ piece) : '\n' ∉ decode piece := by
  intro hmem
  obtain ⟨b, hb, hbyte⟩ := ascii_of_mem (by decide) hmem
  have hbyte : b.toNat = (0x0A : UInt8).toNat := hbyte
  exact h (UInt8.toNat_inj.mp hbyte ▸ hb)

theorem splitLines_decode (chunks : List (List UInt8)) :
    splitLines '\n' (decode chunks.flatten) =
      (pieceLines 0x0A chunks).map fun pieces => decode pieces.flatten := by
  have hparted := @parted_pieceLines _ _ 0x0A chunks
  have hlines : Parted '\n' ((pieceLines 0x0A chunks).map fun pieces => decode pieces.flatten) :=
    ⟨fun line hline => by
      obtain ⟨pieces, hpieces, rfl⟩ := List.mem_map.mp hline
      exact newline_not_mem (hparted.lines _ (List.mem_map_of_mem hpieces)),
      newline_not_mem hparted.rest⟩
  rw [← split_join hlines, @flatten_pieceLines _ _ 0x0A chunks, decode_joinLines]
  simp only [Split.map, List.map_map]
  rfl

theorem splitLines_chunks (chunks : List (List UInt8)) :
    splitLines '\n' (chunks.flatMap decode) =
      (pieceLines 0x0A chunks).map fun pieces => pieces.flatMap decode := by
  have hparted := @parted_pieceLines _ _ 0x0A chunks
  have hline (pieces : List (List UInt8)) (h : 0x0A ∉ pieces.flatten) :
      '\n' ∉ pieces.flatMap decode := by
    intro hmem
    obtain ⟨piece, hpiece, hmem⟩ := List.mem_flatMap.mp hmem
    exact newline_not_mem (fun hin => h (List.mem_flatten.mpr ⟨piece, hpiece, hin⟩)) hmem
  have hlines : Parted '\n' ((pieceLines 0x0A chunks).map fun pieces => pieces.flatMap decode) :=
    ⟨fun line hmem => by
      obtain ⟨pieces, hpieces, rfl⟩ := List.mem_map.mp hmem
      exact hline _ (hparted.lines _ (List.mem_map_of_mem hpieces)),
      hline _ hparted.rest⟩
  rw [← split_join hlines]
  congr 1
  refine flatMap_pieceLines (fun chunk => ?_) chunks
  rw [← decode_joinLines, join_split]

end Utf8
