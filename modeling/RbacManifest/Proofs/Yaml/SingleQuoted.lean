import RbacManifest.Proofs.Yaml.Character
import RbacManifest.Yaml.SingleQuoted

/-!
# Reading what is written between apostrophes

A text that may stand between apostrophes is read back from there, wherever its lines are folded:
`SingleQuoted.read_quoted`.
-/

namespace RbacManifest

namespace Yaml

namespace SingleQuoted

variable {position : Position} {gap : Gap} {c : Char} {text rest tail : List Char}

/-! ## Steps of the reader -/

theorem read_space :
    read gap (position.cells (' ' :: rest)) =
      read (gap.addBlank ' ') ((position.next ' ').cells rest) := by
  rw [Position.cells_cons, read.eq_def]
  simp [endMark]

theorem read_spaces {first : Option Char} {reversed : List Char} (count : Nat) :
    read (.lines first reversed) (position.cells (List.replicate count ' ' ++ rest)) =
      read (.lines first reversed)
        ((position.behind (List.replicate count ' ')).cells rest) := by
  induction count generalizing position with
  | zero => rfl
  | succ count ih =>
      rw [List.replicate_succ, List.cons_append, read_space]
      exact ih

theorem read_break (breaks : isBreak c = true) (notDash : rest.head? ≠ some '-')
    (notDot : rest.head? ≠ some '.') :
    read gap (position.cells (c :: rest)) =
      read (gap.addBreak c) ((position.next c).cells rest) := by
  have notMark : Cell.isDocumentMark ((position.next c).cells rest) = false :=
    isDocumentMark_cells notDash notDot
  have not_end : c ≠ endMark := ne_of_isBreak breaks (by decide)
  have not_space : c ≠ ' ' := ne_of_isBreak breaks (by decide)
  have not_tab : c ≠ '\t' := ne_of_isBreak breaks (by decide)
  rw [Position.cells_cons, read.eq_def]
  simp [not_end, not_space, not_tab, breaks, notMark]

theorem read_apostrophes :
    read gap (position.cells ('\'' :: '\'' :: rest)) =
      (read Gap.empty (((position.next '\'').next '\'').cells rest)).map
        fun (text, rest) => (gap.text ++ '\'' :: text, rest) := by
  rw [Position.cells_cons, Position.cells_cons, read.eq_def]
  simp [endMark, show isBreak '\'' = false by decide]

theorem read_close (closes : tail.head? ≠ some '\'') :
    read gap (position.cells ('\'' :: tail)) =
      some (gap.text, (position.next '\'').cells tail) := by
  rw [Position.cells_cons, read.eq_def]
  simp only [endMark, show isBreak '\'' = false by decide]
  cases tail with
  | nil => simp [Position.cells_nil, endMark]
  | cons next more =>
      have differs : next ≠ '\'' := by simpa using closes
      simp [Position.cells_cons, differs]

theorem read_other (notSpecial : Style.isSpecial c = false) (notSpace : c ≠ ' ')
    (notBreak : isBreak c = false) (notApostrophe : c ≠ '\'') :
    read gap (position.cells (c :: rest)) =
      (read Gap.empty ((position.next c).cells rest)).map
        fun (text, rest) => (gap.text ++ c :: text, rest) := by
  have not_end : c ≠ endMark := Style.ne_of_isSpecial notSpecial (by decide)
  have not_tab : c ≠ '\t' := Style.ne_of_isSpecial notSpecial (by decide)
  rw [Position.cells_cons, read.eq_def]
  simp [not_end, notSpace, not_tab, notBreak, notApostrophe]

/-! ## Line ends of the text -/

/-- A line end as it is written between apostrophes, twice where once would be read as a space. -/
def lineEnd (before : Option Char) (c : Char) : List Char :=
  if c = '\n' && !before.any isBreak then ['\n', c] else [c]

/-- Behind a line end of the text the reader is in a gap that stands for it. -/
theorem exists_read_lineEnd (position : Position) {before : Option Char}
    (pending : Gap.Pending before (c :: rest) gap)
    (breaks : isBreak c = true) (notNextLine : c ≠ '\u0085') (notBehindSpace : before ≠ some ' ')
    (notDash : tail.head? ≠ some '-') (notDot : tail.head? ≠ some '.') :
    ∃ first reversed, (first ≠ '\n' ∨ reversed ≠ []) ∧
      (Gap.lines (some first) reversed).text = gap.text ++ [c] ∧
      read gap (position.cells (lineEnd before c ++ tail)) =
        read (.lines (some first) reversed) ((position.behind (lineEnd before c)).cells tail) := by
  cases pending with
  | spaces => exact absurd rfl notBehindSpace
  | folded notGap => simp [Style.isGap, breaks] at notGap
  | nothing notGap =>
      have notBreak : before.any isBreak = false := by
        cases before with
        | none => rfl
        | some other => simpa [Style.isGap] using (Bool.or_eq_false_iff.mp notGap).2
      by_cases isFeed : c = '\n'
      · subst isFeed
        refine ⟨'\n', ['\n'], by simp, rfl, ?_⟩
        simp only [lineEnd, notBreak, decide_true, Bool.not_false, Bool.and_self, if_true,
          List.cons_append, List.nil_append]
        rw [read_break breaks (by simp) (by simp), read_break breaks notDash notDot]
        rfl
      · refine ⟨c, [], Or.inl isFeed, by rw [Gap.text, if_pos isFeed]; rfl, ?_⟩
        simp only [lineEnd, isFeed, decide_false, Bool.false_and, Bool.false_eq_true, if_false,
          List.singleton_append]
        rw [read_break breaks notDash notDot, Gap.empty, Gap.addBreak, Gap.lineEnd_eq notNextLine]
        rfl
  | @lineEnds other first _ reversed other_breaks counts =>
      refine ⟨first, c :: reversed, by simp, ?_, ?_⟩
      · rw [← Gap.text_addBreak_lines notNextLine counts, Gap.addBreak,
          Gap.lineEnd_eq notNextLine]
      · simp only [lineEnd, Option.any_some, other_breaks, Bool.not_true, Bool.and_false,
          Bool.false_eq_true, if_false, List.singleton_append]
        rw [read_break breaks notDash notDot, Gap.addBreak, Gap.lineEnd_eq notNextLine]
        rfl

/-- The indentation behind a line end of a text, unless another line end follows. -/
def indentation (indent : Nat) (rest : List Char) : List Char :=
  if Folded.startsWith isBreak rest then [] else List.replicate indent ' '

theorem quoted_break {splits : Bool} {indent column : Nat} {before : Option Char}
    (breaks : isBreak c = true) :
    Folded.quoted splits indent column before (c :: rest) =
      lineEnd before c ++ indentation indent rest ++
        Folded.quoted splits indent indent (some c) rest := by
  rw [Folded.quoted, if_pos breaks]
  rfl

theorem head?_indentation {splits : Bool} {indent : Nat} {mark : Char} (breaks : isBreak c = true)
    (indented : 0 < indent) (mark_ne : mark ≠ ' ') (notBreak : isBreak mark = false) :
    (indentation indent rest ++ (Folded.quoted splits indent indent (some c) rest ++
      '\'' :: tail)).head? ≠ some mark := by
  cases rest with
  | nil =>
      rcases Nat.exists_eq_succ_of_ne_zero (Nat.ne_of_gt indented) with ⟨count, rfl⟩
      simpa [indentation, Folded.startsWith, List.replicate_succ] using mark_ne.symm
  | cons next more =>
      by_cases next_breaks : isBreak next = true
      · rw [quoted_break next_breaks]
        have single : lineEnd (some c) next = [next] := by simp [lineEnd, breaks]
        rw [single]
        simpa [indentation, Folded.startsWith, next_breaks] using
          ne_of_isBreak next_breaks notBreak
      · rcases Nat.exists_eq_succ_of_ne_zero (Nat.ne_of_gt indented) with ⟨count, rfl⟩
        simpa [indentation, Folded.startsWith, next_breaks, List.replicate_succ] using mark_ne.symm

theorem read_indentation {first : Option Char} {reversed : List Char} (indent : Nat) :
    read (.lines first reversed) (position.cells (indentation indent text ++ rest)) =
      read (.lines first reversed)
        ((position.behind (indentation indent text)).cells rest) := by
  rw [indentation]
  split
  · rfl
  · exact read_spaces indent

/-- Whether a text may stand on lines that are indented to a column. -/
def FitsLines (splits : Bool) (indent : Nat) (text : List Char) : Prop :=
  0 < indent ∨ splits = false ∧ ∀ c ∈ text, isBreak c = false

theorem read_newLine {indent : Nat} (indented : 0 < indent) :
    read Gap.empty (position.cells (Folded.newLine indent ++ rest)) =
      read (.lines (some '\n') []) ((position.behind (Folded.newLine indent)).cells rest) := by
  rcases Nat.exists_eq_succ_of_ne_zero (Nat.ne_of_gt indented) with ⟨count, rfl⟩
  rw [Folded.newLine, List.cons_append, read_break (by decide) (by simp [List.replicate_succ])
    (by simp [List.replicate_succ])]
  exact read_spaces _

/-- What is written between apostrophes is read back, behind the gap that the reader is in. -/
theorem read_quoted {splits : Bool} {indent column : Nat} {before : Option Char}
    (pending : Gap.Pending before text gap)
    (usual : ∀ c ∈ text, Style.isSpecial c = false ∧ c ≠ '\u0085')
    (noEdges : Style.hasBlankLineEdge (before.toList ++ text) = false)
    (fits : FitsLines splits indent text) (closes : tail.head? ≠ some '\'') :
    read gap (position.cells (Folded.quoted splits indent column before text ++ '\'' :: tail)) =
      some (gap.text ++ text,
        (position.behind (Folded.quoted splits indent column before text ++ ['\''])).cells
          tail) := by
  -- `Gap.Pending` ties the gap that the reader is in to the character that was written last.
  induction text generalizing gap column before position with
  | nil => simp [Folded.quoted, read_close closes]
  | cons c rest ih =>
      have usual_first := usual c (by simp)
      have usual_rest : ∀ c ∈ rest, Style.isSpecial c = false ∧ c ≠ '\u0085' :=
        fun other isMember => usual other (by simp [isMember])
      have edges_rest : Style.hasBlankLineEdge ((some c).toList ++ rest) = false :=
        Gap.noEdges_rest noEdges
      have fits_rest : FitsLines splits indent rest := by
        rcases fits with indented | ⟨whole, unbroken⟩
        · exact Or.inl indented
        · exact Or.inr ⟨whole, fun other isMember => unbroken other (by simp [isMember])⟩
      by_cases breaks : isBreak c = true
      · have indented : 0 < indent := by
          rcases fits with indented | ⟨_, unbroken⟩
          · exact indented
          · simp [unbroken c] at breaks
        rw [quoted_break breaks]
        simp only [List.append_assoc]
        rcases exists_read_lineEnd position pending breaks usual_first.2
          (Gap.ne_space_of_noEdges noEdges breaks)
          (head?_indentation breaks indented (by decide) (by decide))
          (head?_indentation breaks indented (by decide) (by decide)) with
          ⟨first, reversed, counts, text_eq, read_eq⟩
        rw [read_eq, read_indentation,
          ih (.lineEnds breaks counts) usual_rest edges_rest fits_rest, text_eq]
        simp
      rw [Folded.quoted, if_neg breaks]
      split
      · next folds =>
        rcases folds with ⟨rfl, notBehindSpace, _, splits_lines, startsWord⟩
        have indented : 0 < indent := by
          rcases fits with indented | ⟨whole, _⟩
          · exact indented
          · simp [whole] at splits_lines
        rw [pending.eq_empty noEdges notBehindSpace]
        cases rest with
        | nil => simp [Folded.startsWith] at startsWord
        | cons next more =>
            have notSpace : next ≠ ' ' := by simpa [Folded.startsWith] using startsWord
            have notGap : Style.isGap next = false := Gap.isGap_of_behind_space edges_rest notSpace
            rw [List.append_assoc, read_newLine indented,
              ih (.folded notGap) usual_rest edges_rest fits_rest]
            simp
      split
      · next isApostrophe =>
        subst isApostrophe
        rw [List.cons_append, List.cons_append, read_apostrophes,
          ih (.nothing (by decide)) usual_rest edges_rest fits_rest]
        simp
      · next notApostrophe =>
        by_cases isSpace : c = ' '
        · subst isSpace
          rcases pending.exists_blanks noEdges with ⟨reversed, rfl⟩
          rw [List.cons_append, read_space, Gap.addBlank,
            ih .spaces usual_rest edges_rest fits_rest]
          simp
        · rw [List.cons_append, read_other usual_first.1 isSpace (by simpa using breaks)
            notApostrophe, ih (.nothing _) usual_rest edges_rest fits_rest]
          · simp
          · simp [Style.isGap, isSpace, breaks]

end SingleQuoted

end Yaml

end RbacManifest
