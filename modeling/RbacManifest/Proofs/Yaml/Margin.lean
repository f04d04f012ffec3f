import RbacManifest.Proofs.Yaml.Scalar

/-!
# Breaking lines behind the margin

Where the lines of a value start to the right of the margin, every line is broken again as soon as
it may be. A backslash that protects a space at the start of a line is then followed by the
backslash of the next line end, and the two are read as one character.
`DoubleQuoted.read_write_far` tells what is read, and `exists_readQuoted_escaped` which texts are
read back.
-/

namespace RbacManifest

namespace Yaml

variable {text rest tail : List Char} {c : Char} {before : Escaped.Before} {indent column : Nat}
  {position : Position}

namespace Escaped

/-- What is read in front of the rest of a text behind an escape: characters that are not in the
text, if the rest starts with a space and a line may be broken in front of it. -/
def stray : List Char → List Char
  | first :: _ :: _ => if first = ' ' then ['\\', ' '] else []
  | _ => []

/-- What is read of a text that is written behind the margin. -/
def misread (before : Before) : List Char → List Char
  | [] => []
  | c :: rest =>
      if isLiteral c then c :: misread .literal rest
      else c :: ((if before = .start then [] else stray rest) ++ misread .escape rest)

/-- Whether an escape inside a text is followed by a space that is not the end of the text. -/
def BreaksBeforeSpace (text : List Char) : Prop :=
  ∃ first c rest, text = first ++ c :: ' ' :: rest ∧ first ≠ [] ∧ isLiteral c = false ∧ rest ≠ []

theorem two_le_length_escape (c : Char) : 2 ≤ (escape c).length := by
  rw [escape]
  split
  · simp
  split
  · simp [Text.hex]
  split <;> simp [Text.hex]

theorem width_le_continuationColumn (far : Folded.width ≤ indent) :
    Folded.width ≤ continuationColumn indent text := by
  rw [continuationColumn]
  split <;> omega

/-! ## Texts that are read back -/

theorem stray_eq_nil_iff : stray text = [] ↔ ∀ rest, text = ' ' :: rest → rest = [] := by
  match text with
  | [] => simp [stray]
  | [first] => simp [stray]
  | first :: second :: rest =>
      rw [stray]
      split
      · next isSpace => simp [isSpace]
      · next notSpace => simp [notSpace]

theorem length_le_misread : text.length ≤ (misread before text).length := by
  induction text generalizing before with
  | nil => exact Nat.le_refl _
  | cons c rest ih =>
      have literal_le : rest.length ≤ (misread .literal rest).length := ih
      have escape_le : rest.length ≤ (misread .escape rest).length := ih
      rw [misread]
      split <;> simp only [List.length_cons, List.length_append] <;> omega

theorem append_misread_eq_iff {added : List Char} :
    added ++ misread before text = text ↔ added = [] ∧ misread before text = text := by
  constructor
  · intro same
    have text_le : text.length ≤ (misread before text).length := length_le_misread
    have length_eq := congrArg List.length same
    rw [List.length_append] at length_eq
    have added_nil : added = [] := List.length_eq_zero_iff.mp (by omega)
    rw [added_nil] at same
    exact ⟨added_nil, same⟩
  · rintro ⟨rfl, same⟩
    exact same

/-- Behind its first character a text is read back if no escape in it is followed by a space. -/
theorem misread_eq_iff_of_ne_start (inside : before ≠ .start) :
    misread before text = text ↔
      ∀ first c rest, text = first ++ c :: ' ' :: rest → isLiteral c = false → rest = [] := by
  induction text generalizing before with
  | nil => simp [misread]
  | cons d others ih =>
      have split_iff : (∀ first c rest, d :: others = first ++ c :: ' ' :: rest →
          isLiteral c = false → rest = []) ↔
          (isLiteral d = false → stray others = []) ∧
            ∀ first c rest, others = first ++ c :: ' ' :: rest →
              isLiteral c = false → rest = [] := by
        rw [stray_eq_nil_iff]
        constructor
        · intro all
          exact ⟨fun notLiteral rest others_eq => all [] d rest (by simp [others_eq]) notLiteral,
            fun first c rest others_eq => all (d :: first) c rest (by simp [others_eq])⟩
        · rintro ⟨here, later⟩ first c rest text_eq notLiteral
          cases first with
          | nil =>
              simp only [List.nil_append, List.cons.injEq] at text_eq
              rcases text_eq with ⟨rfl, others_eq⟩
              exact here notLiteral rest others_eq
          | cons e first =>
              simp only [List.cons_append, List.cons.injEq] at text_eq
              exact later first c rest text_eq.2 notLiteral
      rw [split_iff, misread, if_neg inside]
      split
      · next literal => simp [literal, ih]
      · next notLiteral => simp [notLiteral, append_misread_eq_iff, ih]

/-- A text is read back from behind the margin unless an escape inside it is followed by a space. -/
theorem misread_eq_iff : misread .start text = text ↔ ¬BreaksBeforeSpace text := by
  cases text with
  | nil => simp [misread, BreaksBeforeSpace]
  | cons d others =>
      have same_iff : misread .start (d :: others) = d :: others ↔
          ∀ first c rest, others = first ++ c :: ' ' :: rest → isLiteral c = false →
            rest = [] := by
        rw [misread]
        split <;> simp [misread_eq_iff_of_ne_start]
      rw [same_iff]
      constructor
      · rintro kept ⟨first, c, rest, text_eq, inside, notLiteral, more⟩
        rcases List.exists_cons_of_ne_nil inside with ⟨e, first, rfl⟩
        simp only [List.cons_append, List.cons.injEq] at text_eq
        exact more (kept first c rest text_eq.2 notLiteral)
      · intro unbroken first c rest others_eq notLiteral
        by_contra more
        exact unbroken ⟨d :: first, c, rest, by simp [others_eq], by simp, notLiteral, more⟩

end Escaped

namespace DoubleQuoted

variable {mode : Mode} {gap : Gap}

/-- What is read in front of a text from a mode that is not part of the text. -/
def owed (text : List Char) : Mode → List Char
  | .escape => Escaped.stray text
  | _ => []

theorem owed_behindContinuation : owed text (behindContinuation text) = Escaped.stray text := by
  rw [behindContinuation]
  cases text with
  | nil => simp [Folded.startsWith, owed, Escaped.stray]
  | cons first rest =>
      by_cases isSpace : first = ' '
      · simp [Folded.startsWith, owed, isSpace]
      · cases rest <;> simp [Folded.startsWith, owed, Escaped.stray, isSpace]

theorem width_lt_continuationColumn (far : Folded.width ≤ indent)
    (escapes : behindContinuation text = .escape) :
    Folded.width < Escaped.continuationColumn indent text := by
  rw [behindContinuation] at escapes
  rw [Escaped.continuationColumn]
  split at escapes
  · next startsWithSpace =>
    rw [if_pos startsWithSpace]
    omega
  · cases escapes

theorem Ready.of_head? (ready : Ready text mode) (head_eq : text.head? = rest.head?) :
    Ready rest mode := by
  match mode with
  | .text (.blanks _) => exact trivial
  | .text (.lines first reversed) =>
      rcases ready with ⟨first_eq, reversed_eq, notSpace⟩
      exact ⟨first_eq, reversed_eq, head_eq ▸ notSpace⟩
  | .escape => exact head_eq.symm.trans ready
  | .number _ _ => exact absurd ready id

theorem read_newLine (indented : 0 < indent) :
    read (.text Gap.empty) (position.cells (Folded.newLine indent ++ rest)) =
      read (.text (.lines (some '\n') []))
        ((position.behind (Folded.newLine indent)).cells rest) := by
  rcases Nat.exists_eq_succ_of_ne_zero (Nat.ne_of_gt indented) with ⟨count, rfl⟩
  have notMark : Cell.isDocumentMark
      ((position.next '\n').cells (List.replicate count.succ ' ' ++ rest)) = false :=
    isDocumentMark_cells (by simp [List.replicate_succ]) (by simp [List.replicate_succ])
  rw [Folded.newLine, List.cons_append, Position.cells_cons, read.eq_def]
  have notEnd : '\n' ≠ endMark := by decide
  have notBlank : ¬('\n' = ' ' ∨ '\n' = '\t') := by decide
  simp only [notEnd, notBlank, show isBreak '\n' = true by decide, if_true, notMark,
    Bool.false_eq_true, if_false]
  exact read_spaces _

/-- Behind the backslash in front of a space a line end gives a backslash and a space. -/
theorem read_escape_continuation (indented : 0 < indent) :
    read .escape (position.cells (Escaped.continuation indent (' ' :: text) ++ ' ' :: rest)) =
      prepend ['\\', ' ', ' '] (read (.text Gap.empty)
        ((position.behind (Escaped.continuation indent (' ' :: text) ++ [' '])).cells rest)) := by
  have continuation_eq : Escaped.continuation indent (' ' :: text) =
      '\\' :: (Folded.newLine indent ++ ['\\']) := by
    simp [Escaped.continuation, Folded.startsWith]
  rw [continuation_eq]
  simp only [List.cons_append, List.append_assoc, List.nil_append]
  rw [read_letter (show letters.lookup '\\' = some '\\' by decide) (by decide) (by decide),
    read_newLine indented, read_backslash,
    read_letter (show letters.lookup ' ' = some ' ' by decide) (by decide) (by decide)]
  simp

/-- Whether a text that is written behind the margin is read as `Escaped.misread` tells, wherever it
is written and read. -/
def ReadsFar (indent : Nat) (tail text : List Char) : Prop :=
  ∀ (position : Position) (mode : Mode) (column : Nat) (before : Escaped.Before),
    Ready text mode → Folded.width ≤ column →
    (mode = .escape → before = .escape ∧ Folded.width < column) →
    read mode (position.cells (Escaped.write true indent column before text ++ '"' :: tail)) =
      .ok (seen mode ++ (owed text mode ++ Escaped.misread before text),
        (position.behind (Escaped.write true indent column before text ++ ['"'])).cells tail)

namespace ReadsFar

theorem nil : ReadsFar indent tail [] := by
  intro position mode column before ready _ _
  cases mode with
  | number places value => exact absurd ready id
  | escape => simp [Ready] at ready
  | text gap => simp [Escaped.write, read_close, seen, owed, Escaped.misread]

theorem continued (reads : ReadsFar indent tail rest) (position : Position)
    (before : Escaped.Before) (column_ge : Folded.width ≤ column) (reversed : List Char) :
    read (.text (.blanks reversed))
        (position.cells (Escaped.write true indent column before rest ++ '"' :: tail)) =
      .ok (reversed.reverse ++ Escaped.misread before rest, (position.behind
        (Escaped.write true indent column before rest ++ ['"'])).cells tail) :=
  reads position (.text (.blanks reversed)) column before trivial column_ge (by simp)

variable (reads : ReadsFar indent tail rest) (far : Folded.width ≤ indent)
include reads far

/-- A character behind a line end, which is read as itself in a text, and with a backslash and a
space in front of it where it is a space that has its own backslash. -/
theorem read_broken (literal : Escaped.isLiteral c = true) (more : rest ≠ [])
    (ready : Ready (c :: rest) mode) :
    read mode (position.cells (Escaped.continuation indent (c :: rest) ++
        c :: Escaped.write true indent (Escaped.continuationColumn indent (c :: rest) + 1) .literal
          rest ++ '"' :: tail)) =
      .ok (seen mode ++ (owed (c :: rest) mode ++ c :: Escaped.misread .literal rest),
        (position.behind (Escaped.continuation indent (c :: rest) ++
          c :: Escaped.write true indent (Escaped.continuationColumn indent (c :: rest) + 1) .literal
            rest ++ ['"'])).cells tail) := by
  have indented : 0 < indent := Nat.lt_of_lt_of_le (by decide) far
  have column_ge : Folded.width ≤ Escaped.continuationColumn indent (c :: rest) + 1 :=
    Nat.le_succ_of_le (Escaped.width_le_continuationColumn far)
  cases mode with
  | number places value => exact absurd ready id
  | escape =>
      have isSpace : c = ' ' := by simpa [Ready] using ready
      subst isSpace
      rcases List.exists_cons_of_ne_nil more with ⟨second, others, rest_eq⟩
      have continued_empty := reads.continued
        (position.behind (Escaped.continuation indent (' ' :: rest) ++ [' '])) .literal column_ge []
      rw [List.append_assoc, List.cons_append, read_escape_continuation indented, Gap.empty,
        continued_empty]
      simp [seen, owed, Escaped.stray, rest_eq]
  | text gap =>
      have behind_ready : Ready (c :: Escaped.misread .literal rest)
          (behindContinuation (c :: rest)) := ready_behindContinuation.of_head? rfl
      rw [List.append_assoc, read_continuation indented, List.cons_append,
        read_kept literal behind_ready (reads.continued _ .literal column_ge),
        seen_behindContinuation]
      simp [seen, owed]

theorem cons_literal (literal : Escaped.isLiteral c = true) : ReadsFar indent tail (c :: rest) := by
  intro position mode column before ready column_ge escapes
  rw [Escaped.write, Escaped.misread, if_pos literal, if_pos literal]
  split
  · next breaks =>
    simp only [Bool.true_and, Bool.and_eq_true, Bool.not_eq_true', List.isEmpty_eq_false_iff]
      at breaks
    exact reads.read_broken far literal breaks.1.2 ready
  · next unbroken =>
    have owed_nil : owed (c :: rest) mode = [] := by
      cases mode with
      | escape =>
          -- Behind the backslash of a line end only the last character stays on its line.
          rcases escapes rfl with ⟨rfl, column_gt⟩
          have rest_nil : rest = [] := by simpa [Escaped.breaksBefore, column_gt] using unbroken
          rw [rest_nil]
          rfl
      | _ => rfl
    rw [owed_nil]
    exact read_kept literal (ready.of_head? rfl)
      (reads.continued _ .literal (Nat.le_succ_of_le column_ge))

theorem cons_escape (notLiteral : ¬Escaped.isLiteral c = true) :
    ReadsFar indent tail (c :: rest) := by
  intro position mode column before ready column_ge _
  have indented : 0 < indent := Nat.lt_of_lt_of_le (by decide) far
  have length_ge := Escaped.two_le_length_escape c
  rw [Escaped.write, Escaped.misread, if_neg notLiteral, if_neg notLiteral]
  cases mode with
  | number places value => exact absurd ready id
  | escape =>
      have isSpace : c = ' ' := by simpa [Ready] using ready
      rw [isSpace] at notLiteral
      exact absurd (by decide) notLiteral
  | text gap =>
      extract_lets chars behind
      have behind_gt : Folded.width + 1 < behind := by
        simp only [behind, chars]
        omega
      split
      · next breaks =>
        simp only [Bool.true_and, Bool.and_eq_true, decide_eq_true_eq] at breaks
        have escapes : behindContinuation rest = .escape → Escaped.Before.escape = .escape ∧
            Folded.width < Escaped.continuationColumn indent rest :=
          fun isEscape => ⟨rfl, width_lt_continuationColumn far isEscape⟩
        rw [List.append_assoc, List.append_assoc, read_escape, read_continuation indented,
          reads _ _ _ _ ready_behindContinuation (Escaped.width_le_continuationColumn far) escapes,
          seen_behindContinuation, owed_behindContinuation, if_neg breaks.1.1]
        simp [seen, owed, chars]
      · next unbroken =>
        have added_nil : (if before = .start then [] else Escaped.stray rest) = [] := by
          split
          · rfl
          · next inside =>
            have rest_nil : rest = [] := by simpa [inside, behind_gt] using unbroken
            rw [rest_nil]
            rfl
        have continued_empty := reads.continued (position.behind (Escaped.escape c)) .escape
          (show Folded.width ≤ behind by omega) []
        rw [List.append_assoc, read_escape, Gap.empty, continued_empty, added_nil]
        simp [seen, owed, chars, behind]

end ReadsFar

theorem read_write_far (far : Folded.width ≤ indent) (text tail : List Char) :
    ReadsFar indent tail text := by
  induction text with
  | nil => exact .nil
  | cons c rest ih =>
      by_cases literal : Escaped.isLiteral c = true
      · exact ih.cons_literal far literal
      · exact ih.cons_escape far literal

end DoubleQuoted

variable {splits : Bool} {written : List Char}

theorem readQuoted_far (far : Folded.width ≤ indent) (column_ge : Folded.width ≤ column)
    (written_eq : written = '"' :: Escaped.write true indent column .start text ++ ['"']) :
    Scan.readQuoted (position.cells (written ++ tail)) =
      .ok (.scalar (Escaped.misread .start text) false, (position.behind written).cells tail,
        false) := by
  have ready : DoubleQuoted.Ready text (.text Gap.empty) := trivial
  have read_eq : DoubleQuoted.read (.text Gap.empty) ((position.next '"').cells
      (Escaped.write true indent column .start text ++ '"' :: tail)) = _ :=
    DoubleQuoted.read_write_far far text tail _ _ _ _ ready column_ge (by simp)
  rw [readQuoted_of_read read_eq written_eq, written_eq]
  simp [DoubleQuoted.seen, DoubleQuoted.owed]

/-- Whatever is written between double quotes is read as a text, and as the same one unless its
lines are broken behind the margin and an escape in it is followed by a space. -/
theorem exists_readQuoted_escaped (placed : splits = true → 0 < indent ∧ indent ≤ column)
    (written_eq : written = '"' :: Escaped.write splits indent column .start text ++ ['"']) :
    ∃ read,
      (∀ position tail, Scan.readQuoted (Position.cells position (written ++ tail)) =
        .ok (.scalar read false, (position.behind written).cells tail, false)) ∧
      (read = text ↔
        ¬(splits = true ∧ Folded.width ≤ indent ∧ Escaped.BreaksBeforeSpace text)) := by
  by_cases far : splits = true ∧ Folded.width ≤ indent
  · rcases far with ⟨rfl, far⟩
    have column_ge : Folded.width ≤ column := Nat.le_trans far (placed rfl).2
    refine ⟨Escaped.misread .start text,
      fun position tail => readQuoted_far far column_ge written_eq, ?_⟩
    rw [Escaped.misread_eq_iff]
    simp [far]
  · have fits : splits = true → 0 < indent ∧ indent < Folded.width := fun splits_lines =>
      ⟨(placed splits_lines).1, Nat.lt_of_not_le fun le => far ⟨splits_lines, le⟩⟩
    refine ⟨text, fun position tail => readQuoted_escaped fits written_eq, ?_⟩
    simp only [true_iff]
    exact fun misread => far ⟨misread.1, misread.2.1⟩

end Yaml

end RbacManifest
