import Mathlib.Data.List.Basic
import RbacManifest.Yaml.Folded

/-!
# Places behind texts

The reader of a document sees cells, which are characters at their places. What it does with a text
in front of another one depends on where the first one begins; `Position.behind` tells where it
ends.
-/

namespace RbacManifest

namespace Yaml

/-- A place in a document. -/
@[ext]
structure Position where
  line : Nat
  column : Nat
  index : Nat

namespace Position

/-- The place behind a character. -/
def next (position : Position) (c : Char) : Position :=
  if isBreak c then ⟨position.line + 1, 0, position.index + 1⟩
  else if c = byteOrderMark then ⟨position.line, position.column, position.index + 1⟩
  else ⟨position.line, position.column + 1, position.index + 1⟩

/-- The place behind a text. -/
def behind (position : Position) (text : List Char) : Position :=
  text.foldl next position

/-- The cells of a text from a place on. -/
def cells (position : Position) (text : List Char) : List Cell :=
  Cell.place position.line position.column position.index text

variable {position : Position} {c : Char} {text more : List Char}

@[simp]
theorem behind_nil : position.behind [] = position := rfl

@[simp]
theorem behind_cons : position.behind (c :: text) = (position.next c).behind text := rfl

@[simp]
theorem behind_append :
    position.behind (text ++ more) = (position.behind text).behind more := by
  simp [behind]

theorem cells_nil :
    position.cells [] = [⟨endMark, position.line, position.column, position.index⟩] := rfl

theorem cells_cons :
    position.cells (c :: text) =
      ⟨c, position.line, position.column, position.index⟩ :: (position.next c).cells text := by
  simp only [cells, Cell.place, next]
  split
  · rfl
  split <;> rfl

@[simp]
theorem length_cells : (position.cells text).length = text.length + 1 := by
  induction text generalizing position with
  | nil => rfl
  | cons c text ih => simp [cells_cons, ih]

@[simp]
theorem peek_cells : Cell.peek (position.cells text) = text.head?.getD endMark := by
  cases text with
  | nil => rfl
  | cons c text => rw [cells_cons, Cell.peek, List.head?_cons, Option.getD_some]

@[simp]
theorem peekSecond_cells :
    Cell.peekSecond (position.cells (c :: text)) = text.head?.getD endMark := by
  rw [cells_cons]
  cases text <;> rfl

/-- Cells are those of one text at one place. -/
theorem cells_injective {other : Position} {others : List Char}
    (same : position.cells text = other.cells others) : position = other ∧ text = others := by
  induction text generalizing position other others with
  | nil =>
      cases others with
      | nil =>
          rw [cells_nil, cells_nil, List.cons.injEq, Cell.mk.injEq] at same
          rcases same with ⟨⟨_, line_eq, column_eq, index_eq⟩, _⟩
          exact ⟨Position.ext line_eq column_eq index_eq, rfl⟩
      | cons d others =>
          have lengths := congrArg List.length same
          simp at lengths
  | cons c rest ih =>
      cases others with
      | nil =>
          have lengths := congrArg List.length same
          simp at lengths
      | cons d others =>
          rw [cells_cons, cells_cons, List.cons.injEq, Cell.mk.injEq] at same
          rcases same with ⟨⟨char_eq, line_eq, column_eq, index_eq⟩, rest_eq⟩
          exact ⟨Position.ext line_eq column_eq index_eq, by rw [char_eq, (ih rest_eq).2]⟩

@[simp]
theorem index_next : (position.next c).index = position.index + 1 := by
  simp only [next]
  split
  · rfl
  split <;> rfl

theorem index_behind : (position.behind text).index = position.index + text.length := by
  induction text generalizing position with
  | nil => rfl
  | cons c text ih =>
      simp only [behind_cons, ih, index_next, List.length_cons]
      omega

/-! ## Lines -/

theorem line_le_next : position.line ≤ (position.next c).line := by
  simp only [next]
  split
  · simp
  split <;> simp

theorem line_le_behind : position.line ≤ (position.behind text).line := by
  induction text generalizing position with
  | nil => exact Nat.le_refl _
  | cons c text ih => exact Nat.le_trans line_le_next ih

/-- Within a line the line stays the same and the columns increase. -/
theorem behind_of_inline (isInline : ∀ c ∈ text, isBreak c = false) :
    (position.behind text).line = position.line ∧
      position.column ≤ (position.behind text).column := by
  induction text generalizing position with
  | nil => simp
  | cons c text ih =>
      have first_inline : isBreak c = false := isInline c (by simp)
      have rest_inline : ((position.next c).behind text).line = (position.next c).line ∧
          (position.next c).column ≤ ((position.next c).behind text).column :=
        ih fun other isMember => isInline other (by simp [isMember])
      have first_step : (position.next c).line = position.line ∧
          position.column ≤ (position.next c).column := by
        simp only [next, first_inline, Bool.false_eq_true, if_false]
        split <;> simp
      rw [behind_cons]
      omega

theorem next_space :
    position.next ' ' = ⟨position.line, position.column + 1, position.index + 1⟩ := rfl

theorem behind_spaces (count : Nat) :
    position.behind (List.replicate count ' ') =
      ⟨position.line, position.column + count, position.index + count⟩ := by
  induction count generalizing position with
  | zero => rfl
  | succ count ih =>
      rw [List.replicate_succ, behind_cons, ih, next_space]
      simp only [Position.mk.injEq, true_and]
      omega

theorem next_lineFeed : position.next '\n' = ⟨position.line + 1, 0, position.index + 1⟩ := rfl

theorem behind_newLine (indent : Nat) :
    position.behind (Folded.newLine indent) =
      ⟨position.line + 1, indent, position.index + indent + 1⟩ := by
  rw [Folded.newLine, behind_cons, behind_spaces, next_lineFeed]
  simp only [Position.mk.injEq, true_and]
  omega

end Position

end Yaml

end RbacManifest
