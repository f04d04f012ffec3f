import RbacManifest.Proofs.Text.Split
import RbacManifest.Proofs.Yaml.Character
import RbacManifest.Yaml.Plain

/-!
# Reading what is written without quotes

A text that may stand without quotes is read back from there up to what follows it, wherever its
lines are folded: `PlainText.read_plain`. What follows is a colon in front of a blank, or a line
that is not indented far enough.
-/

namespace RbacManifest

namespace Yaml

namespace PlainText

variable {position : Position} {gap : Gap} {level : Int} {c : Char} {text rest tail : List Char}

@[simp]
theorem prepend_nil {value : PlainText} : value.prepend [] = value := rfl

@[simp]
theorem prepend_prepend {value : PlainText} :
    (value.prepend rest).prepend text = value.prepend (text ++ rest) := by
  simp [prepend]

/-! ## Steps of the reader -/

theorem read_space :
    read false level gap (position.cells (' ' :: rest)) =
      read false level (gap.addBlank ' ') ((position.next ' ').cells rest) := by
  rw [Position.cells_cons, read]
  simp

theorem read_spaces {first : Option Char} {reversed : List Char} (count : Nat) :
    read false level (.lines first reversed)
        (position.cells (List.replicate count ' ' ++ rest)) =
      read false level (.lines first reversed)
        ((position.behind (List.replicate count ' ')).cells rest) := by
  induction count generalizing position with
  | zero => rfl
  | succ count ih =>
      rw [List.replicate_succ, List.cons_append, read_space]
      exact ih

theorem read_lineFeed :
    read false level Gap.empty (position.cells ('\n' :: rest)) =
      if Cell.isDocumentMark ((position.next '\n').cells rest) then
        ⟨[], (position.next '\n').cells rest, true⟩
      else read false level (.lines (some '\n') []) ((position.next '\n').cells rest) := by
  rw [Position.cells_cons, read]
  simp only [show ¬ '\n' = ' ' by decide, if_false, show isBreak '\n' = true by decide, if_true]
  rfl

theorem read_newLine {indent : Nat} (indented : 0 < indent) :
    read false level Gap.empty (position.cells (Folded.newLine indent ++ rest)) =
      read false level (.lines (some '\n') [])
        ((position.behind (Folded.newLine indent)).cells rest) := by
  rcases Nat.exists_eq_succ_of_ne_zero (Nat.ne_of_gt indented) with ⟨count, rfl⟩
  have notMark : Cell.isDocumentMark
      ((position.next '\n').cells (List.replicate count.succ ' ' ++ rest)) = false :=
    isDocumentMark_cells (by simp [List.replicate_succ]) (by simp [List.replicate_succ])
  rw [Folded.newLine, List.cons_append, read_lineFeed, notMark]
  exact read_spaces _

theorem read_other (notBlank : isBlankOrEnd c = false)
    (notColon : c = ':' → isBlankOrEnd (rest.head?.getD endMark) = false)
    (notComment : gap.isEmpty = false → c ≠ '#')
    (placed : gap.isLines = true → level ≤ position.column) :
    read false level gap (position.cells (c :: rest)) =
      (read false level Gap.empty ((position.next c).cells rest)).prepend (gap.text ++ [c]) := by
  have notSpace : c ≠ ' ' := by
    rintro rfl
    simp [isBlankOrEnd, isSpaceOrEnd] at notBlank
  have notBreak : isBreak c = false := by
    by_contra breaks
    simp [isBlankOrEnd, isSpaceOrEnd, isBreakOrEnd, breaks] at notBlank
  have notEnd : isEndBefore false c (rest.head?.getD endMark) = false := by
    simp only [isEndBefore, Bool.false_and, Bool.or_false]
    by_cases isColon : c = ':'
    · simp [notColon isColon]
    · simp [isColon]
  have notEndOfGap : (!gap.isEmpty && decide (c = '#')) = false := by
    by_cases empty : gap.isEmpty = true
    · simp [empty]
    · simp [notComment (by simpa using empty)]
  have notOutside :
      (gap.isLines && !false && decide ((position.column : Int) < level)) = false := by
    by_cases isLines : gap.isLines = true
    · simp [placed isLines]
    · simp [isLines]
  rw [Position.cells_cons, read]
  simp only [notSpace, if_false, notBreak, notBlank, Position.peek_cells, notEnd, notEndOfGap,
    notOutside, Bool.or_self, Bool.false_eq_true]

/-! ## Ends of a value -/

theorem read_colon (blank : isBlankOrEnd (rest.head?.getD endMark) = true) :
    read false level Gap.empty (position.cells (':' :: rest)) =
      ⟨[], position.cells (':' :: rest), false⟩ := by
  have isEnd : isEndBefore false ':' (rest.head?.getD endMark) = true := by
    simp [isEndBefore, blank]
  rw [Position.cells_cons, read]
  simp only [show ¬ ':' = ' ' by decide, if_false, show isBreak ':' = false by decide,
    Bool.false_eq_true, Position.peek_cells, isEnd, Bool.or_true, Bool.true_or, if_true]
  rfl

theorem read_outside {first : Option Char} {reversed : List Char} (notSpace : rest.head? ≠ some ' ')
    (notBreak : rest.head?.any isBreak = false) (outside : position.column < level) :
    read false level (.lines first reversed) (position.cells rest) =
      ⟨[], position.cells rest, true⟩ := by
  cases rest with
  | nil => simp [Position.cells_nil, read, isBlankOrEnd, isSpaceOrEnd, isBreakOrEnd, Gap.isLines,
      show ¬ endMark = ' ' by decide, show isBreak endMark = false by decide]
  | cons c rest =>
      have c_ne : c ≠ ' ' := by simpa using notSpace
      have c_keeps : isBreak c = false := by simpa using notBreak
      rw [Position.cells_cons, read]
      simp [c_ne, c_keeps, Gap.isLines, outside]

/-- A value ends before a line that is not indented far enough. -/
theorem read_lastLine {indent : Nat} (notSpace : rest.head? ≠ some ' ')
    (notBreak : rest.head?.any isBreak = false) (outside : (indent : Int) < level) :
    read false level Gap.empty (position.cells (Folded.newLine indent ++ rest)) =
      ⟨[], (position.behind (Folded.newLine indent)).cells rest, true⟩ := by
  rw [Folded.newLine, List.cons_append, read_lineFeed]
  have column_eq : (position.behind (Folded.newLine indent)).column = indent := by
    rw [Position.behind_newLine]
  have last : read false level (.lines (some '\n') [])
      ((position.behind (Folded.newLine indent)).cells rest) =
        ⟨[], (position.behind (Folded.newLine indent)).cells rest, true⟩ :=
    read_outside notSpace notBreak (by rwa [column_eq])
  cases indent with
  | zero =>
      split
      · rfl
      · exact last
  | succ count =>
      have notMark : Cell.isDocumentMark
          ((position.next '\n').cells (List.replicate (count + 1) ' ' ++ rest)) = false :=
        isDocumentMark_cells (by simp [List.replicate_succ]) (by simp [List.replicate_succ])
      rw [notMark, if_neg (by simp), read_spaces]
      exact last

/-! ## Whole values -/

/-- A value as it is written without quotes, behind a character. -/
def plain (splits : Bool) (indent column : Nat) (before : Char) (text : List Char) : List Char :=
  if splits then Folded.plain indent column before text else text

theorem plain_nil {splits : Bool} {indent column : Nat} {before : Char} :
    plain splits indent column before [] = [] := by
  cases splits <;> rfl

theorem plain_cons_of_ne {splits : Bool} {indent column : Nat} {before : Char}
    (notSpace : c ≠ ' ') :
    plain splits indent column before (c :: rest) =
      c :: plain splits indent (column + 1) c rest := by
  cases splits <;> simp [plain, Folded.plain, notSpace]

theorem plain_space (splits : Bool) (indent column : Nat) (before : Char) (rest : List Char) :
    plain splits indent column before (' ' :: rest) =
        ' ' :: plain splits indent (column + 1) ' ' rest ∨
      splits = true ∧ before ≠ ' ' ∧ Folded.startsWith (· ≠ ' ') rest = true ∧
        plain splits indent column before (' ' :: rest) =
          Folded.newLine indent ++ plain splits indent indent ' ' rest := by
  cases splits with
  | false => exact Or.inl rfl
  | true =>
      simp only [plain, if_true, Folded.plain]
      split
      · next folds => exact Or.inr ⟨trivial, folds.2.1, folds.2.2.2, rfl⟩
      · exact Or.inl rfl

theorem isBlankOrEnd_eq_false (notSpace : c ≠ ' ') (notBreak : isBreak c = false)
    (usual : Style.isSpecial c = false) : isBlankOrEnd c = false := by
  have notTab : c ≠ '\t' := Style.ne_of_isSpecial usual (by decide)
  have notEnd : c ≠ endMark := Style.ne_of_isSpecial usual (by decide)
  simp [isBlankOrEnd, isSpaceOrEnd, isBreakOrEnd, notSpace, notBreak, notTab, notEnd]

theorem head?_plain_of_not_endsWord {splits : Bool} {indent column : Nat} {before : Char}
    (goesOn : Style.endsWord rest = false) :
    isBlankOrEnd ((plain splits indent column before rest ++ tail).head?.getD endMark) = false := by
  cases rest with
  | nil => simp [Style.endsWord] at goesOn
  | cons next more =>
      have notBlank : isBlankOrEnd next = false := goesOn
      have notSpace : next ≠ ' ' := by
        rintro rfl
        simp [isBlankOrEnd, isSpaceOrEnd] at notBlank
      rw [plain_cons_of_ne notSpace]
      exact notBlank

/-- What is written without quotes is read back, behind the gap that the reader is in. -/
theorem read_plain {splits : Bool} {indent column : Nat} {before : Char}
    (pending : Gap.Pending (some before) text gap)
    (usual : ∀ c ∈ before :: text, isBreak c = false ∧ Style.isSpecial c = false)
    (noIndicator : Style.hasInnerIndicator (isBlankOrEnd before) text = false)
    (lastKept : (before :: text).getLast? ≠ some ' ')
    (fits : splits = true → 0 < indent ∧ level ≤ indent)
    (placed : gap.isLines = true → level ≤ position.column) :
    read false level gap (position.cells (plain splits indent column before text ++ tail)) =
      (read false level Gap.empty
        ((position.behind (plain splits indent column before text)).cells tail)).prepend
          (gap.text ++ text) := by
  -- A value does not end in a space, so behind its last character no gap is left.
  induction text generalizing gap column before position with
  | nil =>
      have gap_eq : gap = Gap.empty := by
        cases pending with
        | nothing => rfl
        | spaces => simp at lastKept
        | lineEnds breaks => simp [usual] at breaks
      simp [plain_nil, gap_eq]
  | cons c rest ih =>
      have usual_first := usual c (by simp)
      have usual_rest : ∀ other ∈ c :: rest,
          isBreak other = false ∧ Style.isSpecial other = false :=
        fun other isMember => usual other (List.mem_cons_of_mem _ isMember)
      have noEdges : Style.hasBlankLineEdge ((some before).toList ++ c :: rest) = false :=
        Gap.noEdges_of_unbroken fun other isMember => (usual other isMember).1
      simp only [Style.hasInnerIndicator, Bool.or_eq_false_iff] at noIndicator
      rcases noIndicator with ⟨⟨noColon, noComment⟩, noIndicator_rest⟩
      have lastKept_rest : (c :: rest).getLast? ≠ some ' ' := by
        simpa [List.getLast?_cons_cons] using lastKept
      by_cases isSpace : c = ' '
      · subst isSpace
        rcases plain_space splits indent column before rest with
          kept | ⟨splits_lines, notBehindSpace, startsWord, folded⟩
        · rcases pending.exists_blanks noEdges with ⟨reversed, rfl⟩
          rw [kept, List.cons_append, read_space, Gap.addBlank,
            ih .spaces usual_rest noIndicator_rest lastKept_rest (by simp [Gap.isLines])]
          simp
        · rcases fits splits_lines with ⟨indented, level_le⟩
          cases rest with
          | nil => simp [Folded.startsWith] at startsWord
          | cons next more =>
              have notSpace : next ≠ ' ' := by simpa [Folded.startsWith] using startsWord
              have notGap : Style.isGap next = false :=
                Gap.isGap_of_behind_space (Gap.noEdges_rest noEdges) notSpace
              rw [folded, pending.eq_empty noEdges (by simpa using notBehindSpace),
                List.append_assoc, read_newLine indented,
                ih (.folded notGap) usual_rest noIndicator_rest lastKept_rest _]
              · simp
              · intro _
                rwa [Position.behind_newLine]
      · have notBlank := isBlankOrEnd_eq_false isSpace usual_first.1 usual_first.2
        rw [plain_cons_of_ne isSpace, List.cons_append, read_other notBlank _ _ placed,
          ih (.nothing _) usual_rest noIndicator_rest lastKept_rest
            (by simp [Gap.isLines, Gap.empty])]
        · simp
        · simp [Style.isGap, isSpace, usual_first.1]
        · rintro rfl
          exact head?_plain_of_not_endsWord (by simpa using noColon)
        · rintro seen rfl
          cases pending with
          | nothing => simp [Gap.empty, Gap.isEmpty] at seen
          | spaces => simp [isBlankOrEnd, isSpaceOrEnd] at noComment
          | folded => simp [isBlankOrEnd, isSpaceOrEnd] at noComment
          | lineEnds breaks => simp [usual] at breaks

theorem exists_cons_of_allowsPlain (allowed : Style.allowsPlain text = true) :
    ∃ c rest, text = c :: rest ∧ c ≠ ' ' ∧ (c :: rest).getLast? ≠ some ' ' ∧
      (∀ other ∈ c :: rest, isBreak other = false ∧ Style.isSpecial other = false) ∧
      Style.hasIndicator (c :: rest) = false := by
  simp only [Style.allowsPlain, Bool.not_eq_true', Bool.or_eq_false_iff, Style.hasOuterGap]
    at allowed
  rcases allowed with ⟨⟨⟨⟨nonempty, noFirstGap, noLastGap⟩, unbroken⟩, usual⟩, noIndicator⟩
  cases text with
  | nil => simp at nonempty
  | cons c rest =>
      refine ⟨c, rest, rfl, ?_, ?_, ?_, noIndicator⟩
      · rintro rfl
        simp [Style.isGap] at noFirstGap
      · intro last_eq
        rw [last_eq] at noLastGap
        simp [Style.isGap] at noLastGap
      · intro other isMember
        exact ⟨by simpa using List.any_eq_false.mp unbroken other isMember,
          by simpa using List.any_eq_false.mp usual other isMember⟩

/-- A text that may stand without quotes is read back from there. -/
theorem read_of_allowsPlain {splits : Bool} {indent column : Nat}
    (allowed : Style.allowsPlain text = true)
    (fits : splits = true → 0 < indent ∧ level ≤ indent) :
    read false level Gap.empty (position.cells (plain splits indent column ' ' text ++ tail)) =
      (read false level Gap.empty
        ((position.behind (plain splits indent column ' ' text)).cells tail)).prepend text := by
  rcases exists_cons_of_allowsPlain allowed with
    ⟨c, rest, rfl, notSpace, lastKept, usual, noIndicator⟩
  have usual_first := usual c (by simp)
  simp only [Style.hasIndicator, Bool.or_eq_false_iff] at noIndicator
  rcases noIndicator with ⟨⟨_, noStart⟩, noIndicator_rest⟩
  have notBlank := isBlankOrEnd_eq_false notSpace usual_first.1 usual_first.2
  have pending : Gap.Pending (some c) rest Gap.empty :=
    .nothing (by simp [Style.isGap, notSpace, usual_first.1])
  rw [plain_cons_of_ne notSpace, List.cons_append, read_other notBlank,
    read_plain pending usual noIndicator_rest lastKept fits (by simp [Gap.isLines, Gap.empty])]
  · simp
  · rintro rfl
    exact head?_plain_of_not_endsWord (by simpa using noStart)
  · simp [Gap.isEmpty, Gap.empty]
  · simp [Gap.isLines, Gap.empty]

/-! ## Beginnings of values -/

/-- A text without quotes starts with a mark of a document only if the value does. -/
theorem exists_of_plain_append {splits : Bool} {indent column : Nat} {before mark : Char}
    {written : List Char}
    (notSpace : mark ≠ ' ') (notFeed : mark ≠ '\n') (tail_ne : tail.head? ≠ some mark)
    (written_eq : plain splits indent column before text ++ tail = mark :: written) :
    ∃ rest column before, text = mark :: rest ∧
      plain splits indent column before rest ++ tail = written := by
  cases text with
  | nil =>
      rw [plain_nil, List.nil_append] at written_eq
      simp [written_eq] at tail_ne
  | cons c rest =>
      by_cases isSpace : c = ' '
      · subst isSpace
        rcases plain_space splits indent column before rest with
          kept | ⟨_, _, _, folded⟩
        · rw [kept, List.cons_append] at written_eq
          exact absurd (List.cons.inj written_eq).1.symm notSpace
        · rw [folded, Folded.newLine, List.cons_append, List.cons_append] at written_eq
          exact absurd (List.cons.inj written_eq).1.symm notFeed
      · rw [plain_cons_of_ne isSpace, List.cons_append] at written_eq
        rcases List.cons.inj written_eq with ⟨rfl, rest_eq⟩
        exact ⟨rest, column + 1, c, rfl, rest_eq⟩

theorem isLineMark_plain {splits : Bool} {indent column : Nat} {before mark : Char}
    (notSpace : mark ≠ ' ') (notFeed : mark ≠ '\n')
    (notEnd : mark ≠ endMark) (tail_ne : tail.head? ≠ some mark)
    (noMark : (Text.after? [mark, mark, mark] text).isSome = false) :
    Cell.isLineMark mark
      (position.cells (plain splits indent column before text ++ tail)) = false := by
  by_contra isMark
  rcases exists_of_isLineMark notEnd (by simpa using isMark) with ⟨rest, written_eq⟩
  rcases exists_of_plain_append notSpace notFeed tail_ne written_eq with ⟨_, _, _, rfl, second_eq⟩
  rcases exists_of_plain_append notSpace notFeed tail_ne second_eq with ⟨_, _, _, rfl, third_eq⟩
  rcases exists_of_plain_append notSpace notFeed tail_ne third_eq with ⟨more, _, _, rfl, _⟩
  have isBeginning : Text.after? [mark, mark, mark] (mark :: mark :: mark :: more) = some more :=
    Text.after?_append
  simp [isBeginning] at noMark

end PlainText

end Yaml

end RbacManifest
