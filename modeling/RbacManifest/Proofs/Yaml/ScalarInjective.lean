import RbacManifest.Proofs.Yaml.NextLine
import RbacManifest.Proofs.Yaml.SingleValue

/-!
# Single values and what follows them

What is written for a text and a line or a colon behind it determine the text and where it ends:
`writeScalar_append_injective`. That holds for all texts, also for those that are not read back.
-/

namespace RbacManifest

namespace Yaml

variable {level leftIndent rightIndent leftColumn rightColumn : Nat} {leftSplits rightSplits : Bool}
  {left right tail leftTail rightTail : List Char}

/-- Whether a text may be written at a place of a collection at a column: over lines that are
indented further, or else on a line of the collection. -/
def IsPlaced (level : Nat) (splits : Bool) (indent : Nat) (text : List Char) : Prop :=
  splits = true ∧ level < indent ∧ indent < Folded.width ∨
    splits = false ∧ ∀ c ∈ text, isBreak c = false

/-- Whether a single value in a collection at a column ends in front of a text. -/
inductive EndsScalar (level : Nat) : List Char → Prop
  | line {count : Nat} {more : List Char} (count_le : count ≤ level)
      (starts : Scan.StartsToken more) : EndsScalar level (Folded.newLine count ++ more)
  | colon {rest : List Char} (blank : isBlankOrEnd (rest.head?.getD endMark) = true) :
      EndsScalar level (':' :: rest)

theorem EndsScalar.head?_ne (ends : EndsScalar level tail) : tail.head? ≠ some '\'' := by
  cases ends with
  | line => simp [Folded.newLine]
  | colon => simp

/-! ## Values without quotes -/

namespace PlainText

theorem eq_of_read_eq {leftPosition rightPosition : Position}
    (left_ends : EndsScalar level leftTail) (right_ends : EndsScalar level rightTail)
    (same : (read false (level + 1) Gap.empty (leftPosition.cells leftTail)).prepend left =
      (read false (level + 1) Gap.empty (rightPosition.cells rightTail)).prepend right) :
    left = right ∧ leftTail = rightTail := by
  have outside {count : Nat} (count_le : count ≤ level) : (count : Int) < (level : Int) + 1 := by
    omega
  have read_line {position : Position} {count : Nat} {more : List Char} (count_le : count ≤ level)
      (starts : Scan.StartsToken more) :
      read false (level + 1) Gap.empty (position.cells (Folded.newLine count ++ more)) =
        ⟨[], (position.behind (Folded.newLine count)).cells more, true⟩ :=
    read_lastLine starts.head?_ne_space starts.head?_any_isBreak (outside count_le)
  -- Behind a line end the reader tells that the line has ended, behind a colon it does not. So both
  -- texts end in the same way.
  cases left_ends with
  | line left_le left_starts =>
      cases right_ends with
      | line right_le right_starts =>
          rw [read_line left_le left_starts, read_line right_le right_starts] at same
          simp only [prepend, PlainText.mk.injEq, List.append_nil, and_true] at same
          rcases same with ⟨text_eq, cells_eq⟩
          rcases Position.cells_injective cells_eq with ⟨behind_eq, more_eq⟩
          rw [Position.behind_newLine, Position.behind_newLine, Position.mk.injEq] at behind_eq
          exact ⟨text_eq, by rw [behind_eq.2.1, more_eq]⟩
      | colon blank =>
          rw [read_line left_le left_starts, read_colon blank] at same
          simp [prepend] at same
  | colon left_blank =>
      cases right_ends with
      | line right_le right_starts =>
          rw [read_line right_le right_starts, read_colon left_blank] at same
          simp [prepend] at same
      | colon right_blank =>
          rw [read_colon left_blank, read_colon right_blank] at same
          simp only [prepend, PlainText.mk.injEq, List.append_nil, and_true] at same
          exact ⟨same.1, (Position.cells_injective same.2).2⟩

theorem plain_append_injective (left_allowed : Style.allowsPlain left = true)
    (right_allowed : Style.allowsPlain right = true)
    (left_placed : IsPlaced level leftSplits leftIndent left)
    (right_placed : IsPlaced level rightSplits rightIndent right)
    (left_ends : EndsScalar level leftTail) (right_ends : EndsScalar level rightTail)
    (same : plain leftSplits leftIndent leftColumn ' ' left ++ leftTail =
      plain rightSplits rightIndent rightColumn ' ' right ++ rightTail) :
    left = right ∧ leftTail = rightTail := by
  have fits {splits : Bool} {indent : Nat} {text : List Char}
      (placed : IsPlaced level splits indent text) (splits_lines : splits = true) :
      0 < indent ∧ (level : Int) + 1 ≤ indent := by
    rcases placed with ⟨_, level_lt, _⟩ | ⟨whole, _⟩
    · omega
    · simp [whole] at splits_lines
  have left_read : read false (level + 1) Gap.empty (Position.cells ⟨0, 0, 0⟩
      (plain leftSplits leftIndent leftColumn ' ' left ++ leftTail)) = _ :=
    read_of_allowsPlain left_allowed (fits left_placed)
  rw [same, read_of_allowsPlain right_allowed (fits right_placed)] at left_read
  exact eq_of_read_eq left_ends right_ends left_read.symm

end PlainText

/-! ## Values between quotes -/

theorem SingleQuoted.fitsLines_of_isPlaced {splits : Bool} {indent : Nat} {text : List Char}
    (placed : IsPlaced level splits indent text) : FitsLines splits indent text := by
  rcases placed with ⟨_, level_lt, _⟩ | unbroken
  · exact Or.inl (Nat.zero_lt_of_lt level_lt)
  · exact Or.inr unbroken

theorem DoubleQuoted.write_append_injective
    (left_placed : IsPlaced level leftSplits leftIndent left)
    (right_placed : IsPlaced level rightSplits rightIndent right)
    (same : Escaped.write leftSplits leftIndent leftColumn .start left ++ '"' :: leftTail =
      Escaped.write rightSplits rightIndent rightColumn .start right ++ '"' :: rightTail) :
    left = right ∧ leftTail = rightTail := by
  have read_eq {splits : Bool} {indent column : Nat} {text tail : List Char}
      (placed : IsPlaced level splits indent text) :
      ∃ behind : Position, read (.text Gap.empty) (Position.cells ⟨0, 0, 0⟩
        (Escaped.write splits indent column .start text ++ '"' :: tail)) =
          .ok (text, behind.cells tail) := by
    have fits (splits_lines : splits = true) : 0 < indent ∧ indent < Folded.width := by
      rcases placed with ⟨_, level_lt, indent_lt⟩ | ⟨whole, _⟩
      · exact ⟨Nat.zero_lt_of_lt level_lt, indent_lt⟩
      · simp [whole] at splits_lines
    have ready : Ready text (.text Gap.empty) := trivial
    exact ⟨_, read_write ready fits (by simp)⟩
  rcases read_eq left_placed with ⟨leftBehind, left_eq⟩
  rcases read_eq right_placed with ⟨rightBehind, right_eq⟩
  rw [same, right_eq, Except.ok.injEq, Prod.mk.injEq] at left_eq
  exact ⟨left_eq.1.symm, (Position.cells_injective left_eq.2).2.symm⟩

/-! ## All single values -/

open Node in
/-- What is written for a text determines the text and what follows it. -/
theorem writeScalar_append_injective (left_placed : IsPlaced level leftSplits leftIndent left)
    (right_placed : IsPlaced level rightSplits rightIndent right)
    (left_ends : EndsScalar level leftTail) (right_ends : EndsScalar level rightTail)
    (same : writeScalar leftSplits leftIndent leftColumn .text left ++ leftTail =
      writeScalar rightSplits rightIndent rightColumn .text right ++ rightTail) :
    left = right ∧ leftTail = rightTail := by
  have plain_ne {mark : Char} {splits : Bool} {indent column : Nat} {text tail rest : List Char}
      (allowed : Style.allowsPlain text = true) (isQuote : mark = '\'' ∨ mark = '"') :
      PlainText.plain splits indent column ' ' text ++ tail ≠ mark :: rest := by
    rcases Scan.exists_cons_of_plain allowed with ⟨c, rest, rfl, starts, _, noIndicator, _⟩
    rw [PlainText.plain_cons_of_ne (Scan.startsToken_cons.mp starts).1, List.cons_append]
    intro same
    rw [(List.cons.inj same).1] at noIndicator
    rcases isQuote with rfl | rfl <;> simp [Scan.IsNoIndicator] at noIndicator
  -- The first character tells which of the three ways it is.
  rcases writeScalar_cases leftSplits leftIndent leftColumn left with
    ⟨_, _, left_allowed, left_eq⟩ | ⟨_, left_allowed, left_eq⟩ | ⟨_, left_eq⟩ <;>
  rcases writeScalar_cases rightSplits rightIndent rightColumn right with
    ⟨_, _, right_allowed, right_eq⟩ | ⟨_, right_allowed, right_eq⟩ | ⟨_, right_eq⟩ <;>
  rw [left_eq, right_eq] at same
  · exact PlainText.plain_append_injective left_allowed right_allowed left_placed right_placed
      left_ends right_ends same
  · exact absurd same (plain_ne left_allowed (Or.inl rfl))
  · exact absurd same (plain_ne left_allowed (Or.inr rfl))
  · exact absurd same.symm (plain_ne right_allowed (Or.inl rfl))
  · simp only [List.cons_append, List.append_assoc, List.nil_append, List.cons.injEq, true_and]
      at same
    exact SingleQuoted.quoted_append_injective left_allowed right_allowed
      (SingleQuoted.fitsLines_of_isPlaced left_placed)
      (SingleQuoted.fitsLines_of_isPlaced right_placed) left_ends.head?_ne right_ends.head?_ne same
  · simp at same
  · exact absurd same.symm (plain_ne right_allowed (Or.inr rfl))
  · simp at same
  · simp only [List.cons_append, List.append_assoc, List.nil_append, List.cons.injEq, true_and]
      at same
    exact DoubleQuoted.write_append_injective left_placed right_placed same

end Yaml

end RbacManifest
