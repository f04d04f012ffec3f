import RbacManifest.Proofs.Yaml.SingleQuoted

/-!
# Texts with next lines between apostrophes

A reader makes a line feed of a next line between apostrophes, so texts with next lines are not read
back from there. They are determined by what is written all the same: another line end may stand in
for every next line, in the text as in what is written for it, and two such line ends leave no doubt
about where the next lines are. `SingleQuoted.quoted_append_injective` says so.
-/

namespace RbacManifest

namespace Yaml

/-- Whether a character may stand in for a next line between apostrophes. -/
structure IsStandIn (other : Char) : Prop where
  breaks : isBreak other = true
  usual : Style.isSpecial other = false
  notNextLine : other ≠ '\u0085'
  notFeed : other ≠ '\n'

/-- A character, with another one standing in for a next line. -/
def replaceNextLine (other c : Char) : Char :=
  if c = '\u0085' then other else c

variable {other c : Char} {text : List Char}

theorem replaceNextLine_eq_iff {mark : Char} (notNextLine : mark ≠ '\u0085')
    (differs : mark ≠ other) : replaceNextLine other c = mark ↔ c = mark := by
  rw [replaceNextLine]
  split
  · next isNextLine =>
    rw [isNextLine]
    exact iff_of_false differs.symm notNextLine.symm
  · rfl

theorem replaceNextLine_of_ne (notNextLine : c ≠ '\u0085') : replaceNextLine other c = c :=
  if_neg notNextLine

namespace IsStandIn

variable (standIn : IsStandIn other)
include standIn

theorem isBreak_eq : isBreak (replaceNextLine other c) = isBreak c := by
  rw [replaceNextLine]
  split
  · next isNextLine =>
    rw [isNextLine, standIn.breaks]
    rfl
  · rfl

theorem eq_lineFeed_iff : replaceNextLine other c = '\n' ↔ c = '\n' :=
  replaceNextLine_eq_iff (by decide) standIn.notFeed.symm

theorem eq_iff_of_not_isBreak {mark : Char} (keeps : isBreak mark = false) :
    replaceNextLine other c = mark ↔ c = mark :=
  replaceNextLine_eq_iff (ne_of_isBreak (by decide) keeps).symm
    (ne_of_isBreak standIn.breaks keeps).symm

theorem eq_space_iff : replaceNextLine other c = ' ' ↔ c = ' ' :=
  standIn.eq_iff_of_not_isBreak (by decide)

theorem usual_map (usual : ∀ c ∈ text, Style.isSpecial c = false) :
    ∀ c ∈ text.map (replaceNextLine other), Style.isSpecial c = false ∧ c ≠ '\u0085' := by
  rw [List.forall_mem_map]
  intro c isMember
  rw [replaceNextLine]
  split
  · exact ⟨standIn.usual, standIn.notNextLine⟩
  · next notNextLine => exact ⟨usual c isMember, notNextLine⟩

theorem startsWith_isBreak :
    Folded.startsWith isBreak (text.map (replaceNextLine other)) =
      Folded.startsWith isBreak text := by
  cases text with
  | nil => rfl
  | cons c rest => exact standIn.isBreak_eq

theorem startsWith_notSpace :
    Folded.startsWith (· ≠ ' ') (text.map (replaceNextLine other)) =
      Folded.startsWith (· ≠ ' ') text := by
  cases text with
  | nil => rfl
  | cons c rest => simp [Folded.startsWith, standIn.eq_space_iff]

theorem hasBlankLineEdge_map :
    Style.hasBlankLineEdge (text.map (replaceNextLine other)) = Style.hasBlankLineEdge text := by
  induction text with
  | nil => rfl
  | cons first rest ih =>
      cases rest with
      | nil => rfl
      | cons second rest =>
          rw [List.map_cons, List.map_cons, Style.hasBlankLineEdge, Style.hasBlankLineEdge,
            standIn.isBreak_eq, standIn.isBreak_eq, ← List.map_cons, ih]
          simp only [standIn.eq_space_iff]

/-- What is written between apostrophes has the stand-in where the text has it. -/
theorem quoted_map {splits : Bool} {indent column : Nat} (before : Option Char) :
    Folded.quoted splits indent column (before.map (replaceNextLine other))
        (text.map (replaceNextLine other)) =
      (Folded.quoted splits indent column before text).map (replaceNextLine other) := by
  have space_eq : replaceNextLine other ' ' = ' ' := replaceNextLine_of_ne (by decide)
  have feed_eq : replaceNextLine other '\n' = '\n' := replaceNextLine_of_ne (by decide)
  have apostrophe_eq : replaceNextLine other '\'' = '\'' := replaceNextLine_of_ne (by decide)
  have isApostrophe_iff {c : Char} : replaceNextLine other c = '\'' ↔ c = '\'' :=
    standIn.eq_iff_of_not_isBreak (by decide)
  induction text generalizing column before with
  | nil => simp [Folded.quoted]
  | cons c rest ih =>
      have ih_some {column : Nat} :
          Folded.quoted splits indent column (some (replaceNextLine other c))
              (rest.map (replaceNextLine other)) =
            (Folded.quoted splits indent column (some c) rest).map (replaceNextLine other) :=
        ih (some c)
      have before_breaks : (before.map (replaceNextLine other)).any isBreak =
          before.any isBreak := by
        cases before <;> simp [standIn.isBreak_eq]
      have before_notSpace : (before.map (replaceNextLine other)).any (· ≠ ' ') =
          before.any (· ≠ ' ') := by
        cases before <;> simp [standIn.eq_space_iff]
      -- No question that the writer asks tells the stand-in from a next line, so both texts take
      -- the same branch.
      rw [List.map_cons, Folded.quoted, Folded.quoted]
      simp only [standIn.isBreak_eq, standIn.eq_lineFeed_iff, standIn.eq_space_iff,
        isApostrophe_iff, before_breaks, before_notSpace, standIn.startsWith_isBreak,
        standIn.startsWith_notSpace, ih_some]
      split
      · split <;> split <;> simp [feed_eq, space_eq]
      split
      · simp [Folded.newLine, feed_eq, space_eq]
      split
      · simp [apostrophe_eq]
      · simp

end IsStandIn

theorem isStandIn_lineSeparator : IsStandIn '\u2028' :=
  ⟨by decide, by decide, by decide, by decide⟩

theorem isStandIn_paragraphSeparator : IsStandIn '\u2029' :=
  ⟨by decide, by decide, by decide, by decide⟩

/-- Two stand-ins leave no doubt about where the next lines are. -/
theorem eq_of_map_replaceNextLine {left right : List Char}
    (lines : left.map (replaceNextLine '\u2028') = right.map (replaceNextLine '\u2028'))
    (paragraphs : left.map (replaceNextLine '\u2029') = right.map (replaceNextLine '\u2029')) :
    left = right := by
  have same {c d : Char} (line : replaceNextLine '\u2028' c = replaceNextLine '\u2028' d)
      (paragraph : replaceNextLine '\u2029' c = replaceNextLine '\u2029' d) : c = d := by
    by_cases left_isNextLine : c = '\u0085' <;> by_cases right_isNextLine : d = '\u0085'
    · rw [left_isNextLine, right_isNextLine]
    · rw [replaceNextLine, if_pos left_isNextLine, replaceNextLine_of_ne right_isNextLine]
        at line paragraph
      exact absurd (line.trans paragraph.symm) (by decide)
    · rw [replaceNextLine_of_ne left_isNextLine, replaceNextLine, if_pos right_isNextLine]
        at line paragraph
      exact absurd (line.symm.trans paragraph) (by decide)
    · rwa [replaceNextLine_of_ne left_isNextLine, replaceNextLine_of_ne right_isNextLine] at line
  induction left generalizing right with
  | nil => simpa using lines
  | cons c rest ih =>
      cases right with
      | nil => simp at lines
      | cons d others =>
          rw [List.map_cons, List.map_cons, List.cons.injEq] at lines paragraphs
          rw [same lines.1 paragraphs.1, ih lines.2 paragraphs.2]

namespace SingleQuoted

variable {splits : Bool} {indent column : Nat} {tail : List Char}

theorem fitsLines_map (standIn : IsStandIn other) (fits : FitsLines splits indent text) :
    FitsLines splits indent (text.map (replaceNextLine other)) := by
  rcases fits with indented | ⟨whole, unbroken⟩
  · exact Or.inl indented
  · refine Or.inr ⟨whole, ?_⟩
    rw [List.forall_mem_map]
    intro c isMember
    rw [standIn.isBreak_eq, unbroken c isMember]

/-- With the stand-in for its next lines, what is written between apostrophes is read back. -/
theorem exists_read_map (position : Position) (standIn : IsStandIn other)
    (allowed : Style.allowsQuoted text = true) (fits : FitsLines splits indent text)
    (closes : tail.head? ≠ some '\'') :
    ∃ behind : Position,
      read Gap.empty (position.cells ((Folded.quoted splits indent column none text ++
          '\'' :: tail).map (replaceNextLine other))) =
        some (text.map (replaceNextLine other),
          behind.cells (tail.map (replaceNextLine other))) := by
  simp only [Style.allowsQuoted, Bool.not_eq_true', Bool.or_eq_false_iff] at allowed
  rcases allowed with ⟨noSpecial, noEdges⟩
  have usual : ∀ c ∈ text, Style.isSpecial c = false := by
    simpa using noSpecial
  have closes_map : (tail.map (replaceNextLine other)).head? ≠ some '\'' := by
    cases tail with
    | nil => simp
    | cons c rest =>
        have isApostrophe_iff : replaceNextLine other c = '\'' ↔ c = '\'' :=
          standIn.eq_iff_of_not_isBreak (by decide)
        simpa [isApostrophe_iff] using closes
  have apostrophe_eq : replaceNextLine other '\'' = '\'' := replaceNextLine_of_ne (by decide)
  have quoted_eq : Folded.quoted splits indent column none (text.map (replaceNextLine other)) = _ :=
    standIn.quoted_map none
  rw [List.map_append, List.map_cons, apostrophe_eq, ← quoted_eq]
  exact ⟨_, read_quoted (.nothing rfl) (standIn.usual_map usual)
    (standIn.hasBlankLineEdge_map.trans noEdges) (fitsLines_map standIn fits) closes_map⟩

/-- A text between apostrophes and what follows it are determined by what is written. -/
theorem quoted_append_injective {leftSplits rightSplits : Bool}
    {leftIndent rightIndent leftColumn rightColumn : Nat}
    {left right leftTail rightTail : List Char} (left_allowed : Style.allowsQuoted left = true)
    (right_allowed : Style.allowsQuoted right = true)
    (left_fits : FitsLines leftSplits leftIndent left)
    (right_fits : FitsLines rightSplits rightIndent right)
    (left_closes : leftTail.head? ≠ some '\'') (right_closes : rightTail.head? ≠ some '\'')
    (same : Folded.quoted leftSplits leftIndent leftColumn none left ++ '\'' :: leftTail =
      Folded.quoted rightSplits rightIndent rightColumn none right ++ '\'' :: rightTail) :
    left = right ∧ leftTail = rightTail := by
  have map_eq {other : Char} (standIn : IsStandIn other) :
      left.map (replaceNextLine other) = right.map (replaceNextLine other) ∧
        leftTail.map (replaceNextLine other) = rightTail.map (replaceNextLine other) := by
    rcases exists_read_map ⟨0, 0, 0⟩ standIn left_allowed left_fits left_closes with
      ⟨leftBehind, left_eq⟩
    rcases exists_read_map ⟨0, 0, 0⟩ standIn right_allowed right_fits right_closes with
      ⟨rightBehind, right_eq⟩
    rw [same, right_eq, Option.some.injEq, Prod.mk.injEq] at left_eq
    exact ⟨left_eq.1.symm, (Position.cells_injective left_eq.2).2.symm⟩
  rcases map_eq isStandIn_lineSeparator with ⟨text_lines, tail_lines⟩
  rcases map_eq isStandIn_paragraphSeparator with ⟨text_paragraphs, tail_paragraphs⟩
  exact ⟨eq_of_map_replaceNextLine text_lines text_paragraphs,
    eq_of_map_replaceNextLine tail_lines tail_paragraphs⟩

end SingleQuoted

end Yaml

end RbacManifest
