import RbacManifest.Text.Line

/-!
# Texts of lines

A text that is put together from lines with line ends is taken apart into these lines:
`lines_of_consistsOf`. If one kind of line ends is used throughout, it makes no difference which
one, `lines_write`: without an end behind the last line, only an empty last line gets lost.
-/

namespace RbacManifest

namespace Text

/-- Whether no character of a text ends a line. -/
def IsUnbroken (text : List Char) : Prop :=
  ∀ c ∈ text, c ≠ '\n' ∧ c ≠ '\r'

instance : DecidablePred IsUnbroken := fun text => List.decidableBAll _ text

/-- Whether a text consists of some lines, each with one of the line ends. The last line may go
without an end if it has characters, and a carriage return is an end of its own unless a line feed
follows. -/
inductive ConsistsOf : List (List Char) → List Char → Prop
  | nil : ConsistsOf [] []
  | last {line : List Char} (given : line ≠ []) : ConsistsOf [line] line
  | lineFeed {line : List Char} {lines : List (List Char)} {text : List Char}
      (others : ConsistsOf lines text) : ConsistsOf (line :: lines) (line ++ '\n' :: text)
  | both {line : List Char} {lines : List (List Char)} {text : List Char}
      (others : ConsistsOf lines text) : ConsistsOf (line :: lines) (line ++ '\r' :: '\n' :: text)
  | carriageReturn {line : List Char} {lines : List (List Char)} {text : List Char}
      (apart : text.head? ≠ some '\n') (others : ConsistsOf lines text) :
      ConsistsOf (line :: lines) (line ++ '\r' :: text)

theorem lines_cons_of_isUnbroken {c : Char} {rest : List Char} (plain : c ≠ '\n' ∧ c ≠ '\r') :
    lines (c :: rest) =
      match lines rest with
      | [] => [[c]]
      | line :: others => (c :: line) :: others :=
  (lines.eq_3 _ _ fun _ isReturn => absurd isReturn plain.2).trans (if_neg (not_or.mpr plain))

/-- Characters that end no line belong to the line that is begun behind them. -/
theorem lines_append {line behind : List Char} {others : List (List Char)}
    (unbroken : IsUnbroken line) (ended : lines behind = [] :: others) :
    lines (line ++ behind) = line :: others := by
  induction line with
  | nil => exact ended
  | cons c rest ih =>
      rw [IsUnbroken, List.forall_mem_cons] at unbroken
      rw [List.cons_append, lines_cons_of_isUnbroken unbroken.1, ih unbroken.2]

theorem lines_of_isUnbroken {line : List Char} (given : line ≠ []) (unbroken : IsUnbroken line) :
    lines line = [line] := by
  induction line with
  | nil => exact absurd rfl given
  | cons c rest ih =>
      rw [IsUnbroken, List.forall_mem_cons] at unbroken
      rw [lines_cons_of_isUnbroken unbroken.1]
      cases rest with
      | nil => rfl
      | cons next more => rw [ih (by simp) unbroken.2]

theorem lines_lineFeed {text : List Char} : lines ('\n' :: text) = [] :: lines text := by
  rw [lines.eq_3 _ _ fun _ isReturn => absurd isReturn (by decide), if_pos (Or.inl rfl)]

theorem lines_carriageReturn {text : List Char} (apart : text.head? ≠ some '\n') :
    lines ('\r' :: text) = [] :: lines text := by
  rw [lines, if_pos (Or.inr rfl)]
  rintro _ _ rfl
  exact apart rfl

theorem lines_of_consistsOf {lines : List (List Char)} {text : List Char}
    (parts : ConsistsOf lines text) (unbroken : ∀ line ∈ lines, IsUnbroken line) :
    Text.lines text = lines := by
  induction parts with
  | nil => rfl
  | last given => exact lines_of_isUnbroken given (unbroken _ (by simp))
  | lineFeed others ih =>
      rw [List.forall_mem_cons] at unbroken
      refine lines_append unbroken.1 ?_
      rw [lines_lineFeed, ih unbroken.2]
  | both others ih =>
      rw [List.forall_mem_cons] at unbroken
      refine lines_append unbroken.1 ?_
      rw [Text.lines, ih unbroken.2]
  | carriageReturn apart others ih =>
      rw [List.forall_mem_cons] at unbroken
      refine lines_append unbroken.1 ?_
      rw [lines_carriageReturn apart, ih unbroken.2]

/-! ## One kind of line ends -/

inductive LineEnd
  | lineFeed
  /-- A carriage return and a line feed together. -/
  | both
  | carriageReturn
  deriving DecidableEq, Repr

namespace LineEnd

def text : LineEnd → List Char
  | lineFeed => ['\n']
  | both => ['\r', '\n']
  | carriageReturn => ['\r']

/-- The text of some lines with a line end behind each of them. The last line goes without one
unless the text is closed. -/
def write (lineEnd : LineEnd) (closed : Bool) : List (List Char) → List Char
  | [] => []
  | line :: rest =>
      line ++ (if rest.isEmpty && !closed then [] else lineEnd.text) ++ lineEnd.write closed rest

end LineEnd

variable {lineEnd : LineEnd} {closed : Bool} {line behind : List Char} {rest : List (List Char)}

theorem lines_append_lineEnd (unbroken : IsUnbroken line)
    (apart : lineEnd = .carriageReturn → behind.head? ≠ some '\n') :
    lines (line ++ lineEnd.text ++ behind) = line :: lines behind := by
  rw [List.append_assoc]
  apply lines_append unbroken
  cases lineEnd with
  | lineFeed => exact lines_lineFeed
  | both => rfl
  | carriageReturn => exact lines_carriageReturn (apart rfl)

/-- No carriage return in front of such a text is taken together with its beginning. -/
theorem head?_write_carriageReturn (unbroken : ∀ line ∈ rest, IsUnbroken line) :
    (LineEnd.carriageReturn.write closed rest).head? ≠ some '\n' := by
  cases rest with
  | nil => simp [LineEnd.write]
  | cons line others =>
      rw [LineEnd.write]
      cases line with
      | cons c more => simpa using (unbroken (c :: more) (by simp) c (by simp)).1
      | nil =>
          split
          · next last =>
            rw [Bool.and_eq_true, List.isEmpty_iff] at last
            simp [last.1, LineEnd.write]
          · simp [LineEnd.text]

/-- The lines of a text do not depend on its line ends, apart from an empty line at the end. -/
theorem lines_write {lines : List (List Char)} (unbroken : ∀ line ∈ lines, IsUnbroken line) :
    Text.lines (lineEnd.write closed lines) = lines ∨
      Text.lines (lineEnd.write closed lines) ++ [[]] = lines := by
  induction lines with
  | nil => exact Or.inl rfl
  | cons line rest ih =>
      rw [List.forall_mem_cons] at unbroken
      rw [LineEnd.write]
      split
      · next last =>
        rw [Bool.and_eq_true, List.isEmpty_iff] at last
        rw [last.1, LineEnd.write, List.append_nil, List.append_nil]
        by_cases given : line = []
        · exact Or.inr (by rw [given]; rfl)
        · exact Or.inl (lines_of_isUnbroken given unbroken.1)
      · have apart (same : lineEnd = .carriageReturn) :
            (lineEnd.write closed rest).head? ≠ some '\n' := by
          rw [same]
          exact head?_write_carriageReturn unbroken.2
        rw [lines_append_lineEnd unbroken.1 apart]
        rcases ih unbroken.2 with all | allButLast
        · exact Or.inl (congrArg _ all)
        · exact Or.inr (congrArg _ allButLast)

end Text

end RbacManifest
