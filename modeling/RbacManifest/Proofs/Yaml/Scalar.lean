import RbacManifest.Proofs.Yaml.DoubleQuoted
import RbacManifest.Proofs.Yaml.Indicator
import RbacManifest.Proofs.Yaml.Plain
import RbacManifest.Proofs.Yaml.SingleQuoted
import RbacManifest.Yaml.Layout

/-!
# Reading single values

A text is written as a value in one of three ways, and the reader tells from its first character
which one it is.
-/

namespace RbacManifest

namespace Yaml

variable {text tail : List Char} {splits : Bool} {indent column : Nat} {position : Position}

/-- Whether a text is written without quotes. -/
def isPlain (text : List Char) : Bool :=
  Style.choose .text text = .plain

/-- How the value is read that a text is written as. -/
def readWritten (level : Int) (text : List Char) :
    List Cell → Except Fault (Token × List Cell × Bool) :=
  if isPlain text then Scan.readPlain 0 level else Scan.readQuoted

/-- How a text is written, in each of the three ways. -/
theorem writeScalar_cases (splits : Bool) (indent column : Nat) (text : List Char) :
    (isPlain text = true ∧ Tag.ofPlain text = .text ∧ Style.allowsPlain text = true ∧
      Node.writeScalar splits indent column .text text =
        PlainText.plain splits indent column ' ' text) ∨
    (isPlain text = false ∧ Style.allowsQuoted text = true ∧
      Node.writeScalar splits indent column .text text =
        '\'' :: Folded.quoted splits indent (column + 1) none text ++ ['\'']) ∨
    (isPlain text = false ∧
      Node.writeScalar splits indent column .text text =
        '"' :: Escaped.write splits indent (column + 1) .start text ++ ['"']) := by
  rw [isPlain, Node.writeScalar, Style.choose]
  split
  · next plain =>
    left
    simp only [Bool.and_eq_true, decide_eq_true_eq] at plain
    exact ⟨by simp, plain.1, plain.2, rfl⟩
  split
  · next quoted => exact Or.inr (Or.inl ⟨by simp, quoted, rfl⟩)
  · exact Or.inr (Or.inr ⟨by simp, rfl⟩)

/-- Characters that keep a text between apostrophes as it is. -/
theorem Style.usual_of_allowsQuoted (allowed : allowsQuoted text = true)
    (noNextLine : ∀ c ∈ text, c ≠ '\u0085') :
    (∀ c ∈ text, isSpecial c = false ∧ c ≠ '\u0085') ∧ hasBlankLineEdge text = false := by
  simp only [allowsQuoted, Bool.not_eq_true', Bool.or_eq_false_iff] at allowed
  refine ⟨fun c isMember => ⟨?_, noNextLine c isMember⟩, allowed.2⟩
  simpa using List.any_eq_false.mp allowed.1 c isMember

theorem readQuoted_quoted (allowed : Style.allowsQuoted text = true)
    (noNextLine : ∀ c ∈ text, c ≠ '\u0085') (fits : SingleQuoted.FitsLines splits indent text)
    (closes : tail.head? ≠ some '\'') {written : List Char}
    (written_eq : written = '\'' :: Folded.quoted splits indent column none text ++ ['\'']) :
    Scan.readQuoted (position.cells (written ++ tail)) =
      .ok (.scalar text false, (position.behind written).cells tail, false) := by
  rcases Style.usual_of_allowsQuoted allowed noNextLine with ⟨usual, noEdges⟩
  have pending : Gap.Pending none text Gap.empty := .nothing rfl
  have read_eq : SingleQuoted.read Gap.empty ((position.next '\'').cells
      (Folded.quoted splits indent column none text ++ '\'' :: tail)) = _ :=
    SingleQuoted.read_quoted pending usual noEdges fits closes
  simp only [written_eq, List.cons_append, List.append_assoc, List.nil_append, Position.cells_cons,
    Scan.readQuoted, Cell.peek, List.drop_one, List.tail_cons]
  rw [if_neg (by decide), read_eq]
  simp

theorem readQuoted_of_read {body written : List Char} {cells : List Cell}
    (read_eq : DoubleQuoted.read (.text Gap.empty) ((position.next '"').cells
      (body ++ '"' :: tail)) = .ok (text, cells))
    (written_eq : written = '"' :: body ++ ['"']) :
    Scan.readQuoted (position.cells (written ++ tail)) =
      .ok (.scalar text false, cells, false) := by
  simp only [written_eq, List.cons_append, List.append_assoc, List.nil_append, Position.cells_cons,
    Scan.readQuoted, Cell.peek, List.drop_one, List.tail_cons, if_true]
  rw [read_eq]

theorem readQuoted_escaped (fits : splits = true → 0 < indent ∧ indent < Folded.width)
    {written : List Char}
    (written_eq : written = '"' :: Escaped.write splits indent column .start text ++ ['"']) :
    Scan.readQuoted (position.cells (written ++ tail)) =
      .ok (.scalar text false, (position.behind written).cells tail, false) := by
  have ready : DoubleQuoted.Ready text (.text Gap.empty) := trivial
  have read_eq : DoubleQuoted.read (.text Gap.empty) ((position.next '"').cells
      (Escaped.write splits indent column .start text ++ '"' :: tail)) = _ :=
    DoubleQuoted.read_write ready fits (by simp)
  rw [readQuoted_of_read read_eq written_eq, written_eq]
  simp [DoubleQuoted.seen]

/-- A text that is written behind the colon of a key or in a list is read back. -/
theorem readWritten_value {level : Int} {count : Nat} {more : List Char} (column : Nat)
    (noNextLine : ∀ c ∈ text, c ≠ '\u0085') (level_lt : level < indent)
    (indent_lt : indent < Folded.width) (count_le : (count : Int) ≤ level)
    (starts : Scan.StartsToken more) :
    ∃ rest keyAllowed,
      readWritten level text (position.cells (Node.writeScalar true indent column .text text ++
        (Folded.newLine count ++ more))) = .ok (.scalar text (isPlain text), rest, keyAllowed) ∧
      (rest = (position.behind (Node.writeScalar true indent column .text text)).cells
          (Folded.newLine count ++ more) ∧ keyAllowed = false ∨
        rest = (position.behind (Node.writeScalar true indent column .text text ++
          Folded.newLine count)).cells more ∧ keyAllowed = true) := by
  have indented : 0 < indent := by omega
  rcases writeScalar_cases true indent column text with
    ⟨plain, _, allowed, written⟩ | ⟨quoted, allowed, written⟩ | ⟨escaped, written⟩
  · refine ⟨_, _, ?_, Or.inr ⟨rfl, rfl⟩⟩
    rw [readWritten, if_pos plain, plain, written, Scan.readPlain]
    simp only [ne_eq, not_true_eq_false, decide_false]
    rw [PlainText.read_of_allowsPlain allowed (fun _ => ⟨indented, by omega⟩),
      PlainText.read_lastLine starts.head?_ne_space starts.head?_any_isBreak (by omega)]
    simp [PlainText.prepend]
  · refine ⟨_, _, ?_, Or.inl ⟨rfl, rfl⟩⟩
    rw [readWritten, if_neg (by simp [quoted]), quoted]
    exact readQuoted_quoted allowed noNextLine (Or.inl indented) (by simp [Folded.newLine]) written
  · refine ⟨_, _, ?_, Or.inl ⟨rfl, rfl⟩⟩
    rw [readWritten, if_neg (by simp [escaped]), escaped]
    exact readQuoted_escaped (fun _ => ⟨indented, indent_lt⟩) written

/-- A text that is written in front of a colon is read back up to the colon. -/
theorem readWritten_key {level : Int} (column : Nat) (unbroken : ∀ c ∈ text, isBreak c = false)
    (blank : isBlankOrEnd (tail.head?.getD endMark) = true) :
    readWritten level text
        (position.cells (Node.writeScalar false 0 column .text text ++ ':' :: tail)) =
      .ok (.scalar text (isPlain text),
        (position.behind (Node.writeScalar false 0 column .text text)).cells (':' :: tail),
        false) := by
  have noNextLine : ∀ c ∈ text, c ≠ '\u0085' :=
    fun c isMember => (ne_of_isBreak (by decide) (unbroken c isMember)).symm
  rcases writeScalar_cases false 0 column text with
    ⟨plain, _, allowed, written⟩ | ⟨quoted, allowed, written⟩ | ⟨escaped, written⟩
  · rw [readWritten, if_pos plain, plain, written, Scan.readPlain]
    simp only [ne_eq, not_true_eq_false, decide_false]
    rw [PlainText.read_of_allowsPlain allowed (by simp), PlainText.read_colon blank]
    simp [PlainText.prepend]
  · rw [readWritten, if_neg (by simp [quoted]), quoted]
    exact readQuoted_quoted allowed noNextLine (Or.inr ⟨rfl, unbroken⟩) (by simp) written
  · rw [readWritten, if_neg (by simp [escaped]), escaped]
    exact readQuoted_escaped (by simp) written

end Yaml

end RbacManifest
