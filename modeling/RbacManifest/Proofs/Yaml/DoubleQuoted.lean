import Mathlib.Algebra.Group.Nat.Defs
import RbacManifest.Proofs.Yaml.Character
import RbacManifest.Yaml.DoubleQuoted
import RbacManifest.Yaml.Escaped

/-!
# Reading what is written between double quotes

Every text is read back from between double quotes, wherever its lines are broken:
`DoubleQuoted.read_write`. A line may be broken only in front of a column that is not too far to the
right, because otherwise a second break follows the backslash of the first one.
-/

namespace RbacManifest

namespace Yaml

namespace DoubleQuoted

variable {position : Position} {gap : Gap} {c : Char} {text rest tail : List Char}

@[simp]
theorem prepend_ok {chars : List Char} {cells : List Cell} :
    prepend chars (.ok (text, cells)) = .ok (chars ++ text, cells) := rfl

@[simp]
theorem prepend_nil {result : Except Fault (List Char × List Cell)} :
    prepend [] result = result := by
  cases result <;> rfl

@[simp]
theorem prepend_prepend {first second : List Char}
    {result : Except Fault (List Char × List Cell)} :
    prepend first (prepend second result) = prepend (first ++ second) result := by
  cases result <;> simp [prepend]

/-! ## Steps of the reader -/

theorem read_space :
    read (.text gap) (position.cells (' ' :: rest)) =
      read (.text (gap.addBlank ' ')) ((position.next ' ').cells rest) := by
  rw [Position.cells_cons, read.eq_def]
  simp [endMark]

theorem read_spaces {first : Option Char} {reversed : List Char} (count : Nat) :
    read (.text (.lines first reversed)) (position.cells (List.replicate count ' ' ++ rest)) =
      read (.text (.lines first reversed))
        ((position.behind (List.replicate count ' ')).cells rest) := by
  induction count generalizing position with
  | zero => rfl
  | succ count ih =>
      rw [List.replicate_succ, List.cons_append, read_space]
      exact ih

theorem read_close :
    read (.text gap) (position.cells ('"' :: tail)) =
      .ok (gap.text, (position.next '"').cells tail) := by
  rw [Position.cells_cons, read.eq_def]
  simp [endMark, show isBreak '"' = false by decide]

theorem read_backslash :
    read (.text gap) (position.cells ('\\' :: rest)) =
      prepend gap.text (read .escape ((position.next '\\').cells rest)) := by
  rw [Position.cells_cons, read.eq_def]
  simp [endMark, show isBreak '\\' = false by decide]

theorem read_letter {meaning : Char} (isLetter : letters.lookup c = some meaning)
    (notPlaces : places? c = none) (notBreak : isBreak c = false) :
    read .escape (position.cells (c :: rest)) =
      prepend [meaning] (read (.text Gap.empty) ((position.next c).cells rest)) := by
  rw [Position.cells_cons, read.eq_def]
  simp [notPlaces, notBreak, isLetter]

theorem read_places {places : Nat} (hasPlaces : places? c = some (places + 1)) :
    read .escape (position.cells (c :: rest)) =
      read (.number places 0) ((position.next c).cells rest) := by
  rw [Position.cells_cons, read.eq_def]
  simp [hasPlaces]

theorem read_escaped_newLine {indent : Nat} (indented : 0 < indent) :
    read .escape (position.cells (Folded.newLine indent ++ rest)) =
      read (.text (.lines none [])) ((position.behind (Folded.newLine indent)).cells rest) := by
  rcases Nat.exists_eq_succ_of_ne_zero (Nat.ne_of_gt indented) with ⟨count, rfl⟩
  have notMark : Cell.isDocumentMark
      ((position.next '\n').cells (List.replicate count.succ ' ' ++ rest)) = false :=
    isDocumentMark_cells (by simp [List.replicate_succ]) (by simp [List.replicate_succ])
  rw [Folded.newLine, List.cons_append, Position.cells_cons, read.eq_def]
  simp only [show places? '\n' = none by decide, show isBreak '\n' = true by decide, if_true,
    notMark, Bool.false_eq_true, if_false]
  exact read_spaces _

theorem ne_of_isLiteral {other : Char} (literal : Escaped.isLiteral c = true)
    (notLiteral : Escaped.isLiteral other = false) : c ≠ other := by
  rintro rfl
  simp [literal] at notLiteral

theorem not_isBreak_of_isLiteral (literal : Escaped.isLiteral c = true) : isBreak c = false := by
  have notFeed : c ≠ '\n' := ne_of_isLiteral literal (by decide)
  simp only [Escaped.isLiteral, Bool.and_eq_true, Bool.or_eq_true, decide_eq_true_eq,
    Bool.not_eq_true', Bool.or_eq_false_iff, decide_eq_false_iff_not] at literal
  simp only [isBreak, notFeed, false_or, decide_eq_false_iff_not]
  omega

theorem read_literal (literal : Escaped.isLiteral c = true) (notSpace : c ≠ ' ') :
    read (.text gap) (position.cells (c :: rest)) =
      prepend (gap.text ++ [c]) (read (.text Gap.empty) ((position.next c).cells rest)) := by
  have notBreak := not_isBreak_of_isLiteral literal
  have notEnd : c ≠ endMark := ne_of_isLiteral literal (by decide)
  have notTab : c ≠ '\t' := ne_of_isLiteral literal (by decide)
  have notQuote : c ≠ '"' := ne_of_isLiteral literal (by decide)
  have notBackslash : c ≠ '\\' := ne_of_isLiteral literal (by decide)
  rw [Position.cells_cons, read.eq_def]
  simp [notEnd, notSpace, notTab, notBreak, notQuote, notBackslash]

/-! ## Numbers of characters -/

theorem hexValue?_upperHexDigit (digit : Fin 16) :
    Text.hexValue? (Text.upperHexDigit digit) = some digit.val := by
  revert digit
  decide

theorem read_digit {places value digit : Nat} (isDigit : digit < 16) :
    read (.number (places + 1) value) (position.cells (Text.upperHexDigit digit :: rest)) =
      read (.number places (value * 16 + digit))
        ((position.next (Text.upperHexDigit digit)).cells rest) := by
  have digit_value := hexValue?_upperHexDigit ⟨digit, isDigit⟩
  rw [Position.cells_cons, read.eq_def]
  simp only [digit_value]

theorem character_toNat (c : Char) : character c.toNat = .ok c := by
  have valid : c.toNat.isValidChar := c.valid
  have isCodePoint : ¬codePoints ≤ c.toNat := by
    rw [Nat.isValidChar] at valid
    simp only [codePoints]
    omega
  rw [character, if_neg isCodePoint, if_pos valid, Char.ofNat_toNat]

theorem read_lastDigit {value digit : Nat} (isDigit : digit < 16)
    (code : value * 16 + digit = c.toNat) :
    read (.number 0 value) (position.cells (Text.upperHexDigit digit :: rest)) =
      prepend [c] (read (.text Gap.empty)
        ((position.next (Text.upperHexDigit digit)).cells rest)) := by
  have digit_value := hexValue?_upperHexDigit ⟨digit, isDigit⟩
  rw [Position.cells_cons, read.eq_def]
  simp only [digit_value, code, character_toNat]

theorem read_hex {count places value number : Nat} (fits : number < 16 ^ count) :
    read (.number (count + places) value)
        (position.cells (Text.hex Text.upperHexDigit count number ++ rest)) =
      read (.number places (value * 16 ^ count + number))
        ((position.behind (Text.hex Text.upperHexDigit count number)).cells rest) := by
  induction count generalizing places number rest with
  | zero =>
      have number_eq : number = 0 := by simpa using fits
      simp [Text.hex, number_eq]
  | succ count ih =>
      have higher_fits : number / 16 < 16 ^ count := by
        rw [Nat.div_lt_iff_lt_mul (by decide)]
        rwa [Nat.pow_succ] at fits
      have value_eq : (value * 16 ^ count + number / 16) * 16 + number % 16 =
          value * 16 ^ (count + 1) + number := by
        rw [Nat.pow_succ, ← Nat.mul_assoc, Nat.add_mul]
        omega
      rw [Text.hex, List.append_assoc, List.singleton_append,
        show count + 1 + places = count + (places + 1) by omega, ih higher_fits,
        read_digit (Nat.mod_lt _ (by decide)), value_eq]
      simp

theorem read_code {count : Nat} (fits : c.toNat < 16 ^ (count + 1)) :
    read (.number count 0)
        (position.cells (Text.hex Text.upperHexDigit (count + 1) c.toNat ++ rest)) =
      prepend [c] (read (.text Gap.empty)
        ((position.behind (Text.hex Text.upperHexDigit (count + 1) c.toNat)).cells rest)) := by
  have higher_fits : c.toNat / 16 < 16 ^ count := by
    rw [Nat.div_lt_iff_lt_mul (by decide)]
    rwa [Nat.pow_succ] at fits
  have higher : read (.number (count + 0) 0) (position.cells
      (Text.hex Text.upperHexDigit count (c.toNat / 16) ++
        (Text.upperHexDigit (c.toNat % 16) :: rest))) = _ := read_hex higher_fits
  have code : 0 * 16 ^ count + c.toNat / 16 = c.toNat / 16 := by omega
  have last_code : c.toNat / 16 * 16 + c.toNat % 16 = c.toNat := by omega
  rw [Nat.add_zero, code] at higher
  rw [Text.hex, List.append_assoc, List.singleton_append, higher,
    read_lastDigit (Nat.mod_lt _ (by decide)) last_code]
  simp

/-! ## Escapes -/

theorem letters_read : ∀ entry ∈ Escaped.letters,
    letters.lookup entry.2 = some entry.1 ∧ places? entry.2 = none ∧ isBreak entry.2 = false := by
  decide

/-- The escape of a character is read as the character. -/
theorem read_escape (c : Char) :
    read (.text gap) (position.cells (Escaped.escape c ++ rest)) =
      prepend (gap.text ++ [c]) (read (.text Gap.empty)
        ((position.behind (Escaped.escape c)).cells rest)) := by
  have code_lt : c.toNat < 0x110000 := by
    have isScalar : c.toNat < 0xD800 ∨ 0xDFFF < c.toNat ∧ c.toNat < 0x110000 := c.valid
    omega
  rw [Escaped.escape]
  split
  · next letter found =>
    rcases List.lookup_eq_some_iff.mp found with ⟨before, behind, letters_eq, _⟩
    have isMember : (c, letter) ∈ Escaped.letters := by simp [letters_eq]
    rcases letters_read (c, letter) isMember with ⟨isLetter, notPlaces, notBreak⟩
    rw [List.cons_append, List.singleton_append, read_backslash,
      read_letter isLetter notPlaces notBreak]
    simp
  split
  · next short =>
    rw [List.cons_append, List.cons_append, read_backslash,
      read_places (show places? 'x' = some (1 + 1) from rfl), read_code (by omega)]
    simp
  split
  · next short =>
    rw [List.cons_append, List.cons_append, read_backslash,
      read_places (show places? 'u' = some (3 + 1) from rfl), read_code (by omega)]
    simp
  · next long =>
    rw [List.cons_append, List.cons_append, read_backslash,
      read_places (show places? 'U' = some (7 + 1) from rfl), read_code (by omega)]
    simp

/-! ## Whole values -/

/-- Whether the reader may stand in front of a text: behind a gap within a line, at the start of a
line that does not start with a space of the text, or behind the backslash in front of such a
space. -/
def Ready (text : List Char) : Mode → Prop
  | .text (.blanks _) => True
  | .text (.lines first reversed) => first = none ∧ reversed = [] ∧ text.head? ≠ some ' '
  | .escape => text.head? = some ' '
  | .number _ _ => False

/-- What the reader has seen and not yet given. -/
def seen : Mode → List Char
  | .text gap => gap.text
  | _ => []

/-- How the reader stands behind a line end in a value. -/
def behindContinuation (text : List Char) : Mode :=
  if Folded.startsWith (· = ' ') text then .escape else .text (.lines none [])

theorem ready_behindContinuation : Ready text (behindContinuation text) := by
  rw [behindContinuation]
  cases text with
  | nil => simp [Folded.startsWith, Ready]
  | cons c rest => by_cases isSpace : c = ' ' <;> simp [Folded.startsWith, Ready, isSpace]

theorem seen_behindContinuation : seen (behindContinuation text) = [] := by
  rw [behindContinuation]
  split <;> rfl

theorem read_continuation {indent : Nat} (indented : 0 < indent) :
    read (.text gap) (position.cells (Escaped.continuation indent text ++ rest)) =
      prepend gap.text (read (behindContinuation text)
        ((position.behind (Escaped.continuation indent text)).cells rest)) := by
  simp only [Escaped.continuation, behindContinuation, List.cons_append, List.append_assoc]
  rw [read_backslash, read_escaped_newLine indented]
  split
  · rw [List.singleton_append, read_backslash]
    simp [Gap.text]
  · simp

theorem read_kept {mode : Mode} {result : List Cell} (literal : Escaped.isLiteral c = true)
    (ready : Ready (c :: text) mode)
    (continued : ∀ reversed, read (.text (.blanks reversed)) ((position.next c).cells rest) =
      .ok (reversed.reverse ++ text, result)) :
    read mode (position.cells (c :: rest)) = .ok (seen mode ++ c :: text, result) := by
  have continued_empty : read (.text Gap.empty) ((position.next c).cells rest) =
      .ok (text, result) := continued []
  cases mode with
  | number places value => exact absurd ready id
  | escape =>
      have isSpace : c = ' ' := by simpa [Ready] using ready
      subst isSpace
      rw [read_letter (show letters.lookup ' ' = some ' ' by decide) (by decide) (by decide),
        continued_empty]
      rfl
  | text gap =>
      by_cases isSpace : c = ' '
      · subst isSpace
        cases gap with
        | lines first reversed => simp [Ready] at ready
        | blanks reversed =>
            rw [read_space, Gap.addBlank, continued]
            simp [seen]
      · rw [read_literal literal isSpace, continued_empty]
        simp [seen]

theorem continuationColumn_le {indent : Nat} (fits : indent < Folded.width) :
    Escaped.continuationColumn indent text ≤ Folded.width := by
  rw [Escaped.continuationColumn]
  split <;> omega

/-- What is written between double quotes is read back. -/
theorem read_write {splits : Bool} {indent column : Nat} {before : Escaped.Before} {mode : Mode}
    (ready : Ready text mode) (fits : splits = true → 0 < indent ∧ indent < Folded.width)
    (column_le : mode = .escape → column ≤ Folded.width) :
    read mode (position.cells (Escaped.write splits indent column before text ++ '"' :: tail)) =
      .ok (seen mode ++ text,
        (position.behind
          (Escaped.write splits indent column before text ++ ['"'])).cells tail) := by
  -- What `Ready` says of the mode is kept by every character: only behind a line end is the reader
  -- anywhere else than behind a gap within a line.
  induction text generalizing mode column before position with
  | nil =>
      cases mode with
      | number places value => exact absurd ready id
      | escape => simp [Ready] at ready
      | text gap => simp [Escaped.write, read_close, seen]
  | cons c rest ih =>
      have continued (position : Position) (column : Nat) (before : Escaped.Before)
          (reversed : List Char) :
          read (.text (.blanks reversed)) (position.cells
              (Escaped.write splits indent column before rest ++ '"' :: tail)) =
            .ok (reversed.reverse ++ rest, (position.behind
              (Escaped.write splits indent column before rest ++ ['"'])).cells tail) :=
        ih trivial (by simp)
      rw [Escaped.write]
      split
      · next literal =>
        split
        · next breaks =>
          simp only [Bool.and_eq_true, decide_eq_true_eq] at breaks
          rcases breaks with ⟨⟨⟨splits_lines, _⟩, _⟩, column_gt⟩
          rcases fits splits_lines with ⟨indented, _⟩
          cases mode with
          | number places value => exact absurd ready id
          -- Behind the backslash of a line end the line is too short to end again.
          | escape => exact absurd (column_le rfl) (Nat.not_le.mpr column_gt)
          | text gap =>
              rw [List.append_assoc, read_continuation indented, List.cons_append,
                read_kept literal ready_behindContinuation (continued _ _ _),
                seen_behindContinuation]
              simp [seen]
        · exact read_kept literal ready (continued _ _ _)
      · next notLiteral =>
        cases mode with
        | number places value => exact absurd ready id
        | escape =>
            have isSpace : c = ' ' := by simpa [Ready] using ready
            rw [isSpace] at notLiteral
            exact absurd (by decide) notLiteral
        | text gap =>
            extract_lets chars behind
            split
            · next breaks =>
              simp only [Bool.and_eq_true] at breaks
              rcases fits breaks.1.1.1 with ⟨indented, indent_lt⟩
              rw [List.append_assoc, List.append_assoc, read_escape, read_continuation indented,
                ih ready_behindContinuation (fun _ => continuationColumn_le indent_lt),
                seen_behindContinuation]
              simp [seen, chars]
            · have continued_empty := continued (position.behind (Escaped.escape c))
                (column + (Escaped.escape c).length) .escape []
              rw [List.append_assoc, read_escape, Gap.empty, continued_empty]
              simp [seen, chars, behind]

end DoubleQuoted

end Yaml

end RbacManifest
