import RbacManifest.Proofs.Yaml.Position
import RbacManifest.Yaml.Gap
import RbacManifest.Yaml.Style

/-!
# Characters of written values

What is known about a character that is written as it is, and about the gap that a reader has seen
when such characters follow each other.
-/

namespace RbacManifest

namespace Yaml

variable {c : Char} {position : Position} {text : List Char}

theorem ne_of_isBreak {other : Char} (breaks : isBreak c = true) (keeps : isBreak other = false) :
    c ≠ other := by
  rintro rfl
  simp [breaks] at keeps

theorem Style.ne_of_isSpecial {other : Char} (usual : isSpecial c = false)
    (special : isSpecial other = true) : c ≠ other := by
  rintro rfl
  simp [usual] at special

/-! ## Marks of documents -/

/-- A line that starts with the mark of a document starts with a character three times. -/
theorem exists_of_isLineMark {mark : Char} (notEnd : mark ≠ endMark)
    (isMark : Cell.isLineMark mark (position.cells text) = true) :
    ∃ rest, text = mark :: mark :: mark :: rest := by
  match text with
  | [] => simp [Position.cells_nil, Cell.isLineMark] at isMark
  | [first] => simp [Position.cells_cons, Position.cells_nil, Cell.isLineMark] at isMark
  | [first, second] =>
      simp [Position.cells_cons, Position.cells_nil, Cell.isLineMark, notEnd.symm] at isMark
  | first :: second :: third :: rest =>
      simp [Position.cells_cons, Cell.isLineMark] at isMark
      exact ⟨rest, by simp [isMark]⟩

theorem isLineMark_of_ne {mark : Char} (notEnd : mark ≠ endMark) (differs : c ≠ mark) :
    Cell.isLineMark mark (position.cells (c :: text)) = false := by
  by_contra isMark
  rcases exists_of_isLineMark notEnd (by simpa using isMark) with ⟨rest, text_eq⟩
  exact differs (List.cons.inj text_eq).1

theorem isLineMark_of_space {mark : Char} (notEnd : mark ≠ endMark) (mark_ne : mark ≠ ' ') :
    Cell.isLineMark mark (position.cells (c :: ' ' :: text)) = false := by
  by_contra isMark
  rcases exists_of_isLineMark notEnd (by simpa using isMark) with ⟨rest, text_eq⟩
  exact mark_ne (List.cons.inj (List.cons.inj text_eq).2).1.symm

theorem isDocumentMark_cells (notDash : text.head? ≠ some '-') (notDot : text.head? ≠ some '.') :
    Cell.isDocumentMark (position.cells text) = false := by
  have noMark {mark : Char} (notEnd : mark ≠ endMark) (head_ne : text.head? ≠ some mark) :
      Cell.isLineMark mark (position.cells text) = false := by
    by_contra isMark
    rcases exists_of_isLineMark notEnd (by simpa using isMark) with ⟨rest, rfl⟩
    exact head_ne rfl
  rw [Cell.isDocumentMark, noMark (by decide) notDash, noMark (by decide) notDot]
  rfl

namespace Gap

theorem lineEnd_eq (notNextLine : c ≠ '\u0085') : lineEnd c = c := by
  have code_ne : c.toNat ≠ 0x85 := by
    intro same
    apply notNextLine
    rw [← Char.ofNat_toNat c, same]
  rw [lineEnd, if_neg code_ne]

@[simp]
theorem text_empty : empty.text = [] := rfl

@[simp]
theorem text_folded : (lines (some '\n') []).text = [' '] := rfl

@[simp]
theorem text_blanks {reversed : List Char} : (blanks reversed).text = reversed.reverse := rfl

theorem text_addBreak_lines {first : Char} {reversed : List Char} (notNextLine : c ≠ '\u0085')
    (counts : first ≠ '\n' ∨ reversed ≠ []) :
    ((lines (some first) reversed).addBreak c).text =
      (lines (some first) reversed).text ++ [c] := by
  simp only [addBreak, lineEnd_eq notNextLine, Gap.text]
  by_cases isFeed : first = '\n'
  · have nonempty : reversed ≠ [] := by simpa [isFeed] using counts
    simp [isFeed, nonempty]
  · simp [isFeed]

/-! ## Gaps in front of the rest of a text -/

variable {before : Option Char} {gap : Gap} {rest : List Char}

/-- Whether a gap is one that a reader may be in behind a character and in front of a text: a gap
without anything, spaces, a single space that was folded, or line ends. -/
inductive Pending : Option Char → List Char → Gap → Prop
  | nothing {before : Option Char} {rest : List Char} (notGap : before.any Style.isGap = false) :
      Pending before rest Gap.empty
  | spaces {rest reversed : List Char} : Pending (some ' ') rest (.blanks (' ' :: reversed))
  | folded {next : Char} {rest : List Char} (notGap : Style.isGap next = false) :
      Pending (some ' ') (next :: rest) (.lines (some '\n') [])
  | lineEnds {before first : Char} {rest reversed : List Char} (breaks : isBreak before = true)
      (counts : first ≠ '\n' ∨ reversed ≠ []) :
      Pending (some before) rest (.lines (some first) reversed)

theorem noEdges_rest (noEdges : Style.hasBlankLineEdge (before.toList ++ c :: rest) = false) :
    Style.hasBlankLineEdge (c :: rest) = false := by
  cases before with
  | none => exact noEdges
  | some other => exact (Bool.or_eq_false_iff.mp noEdges).2

theorem ne_space_of_noEdges
    (noEdges : Style.hasBlankLineEdge (before.toList ++ c :: rest) = false)
    (breaks : isBreak c = true) : before ≠ some ' ' := by
  rintro rfl
  simp [Style.hasBlankLineEdge, breaks] at noEdges

theorem not_breaks_of_noEdges {before : Char}
    (noEdges : Style.hasBlankLineEdge (before :: ' ' :: rest) = false) :
    isBreak before = false := by
  by_contra breaks
  simp [Style.hasBlankLineEdge, breaks] at noEdges

theorem isGap_of_behind_space {next : Char}
    (noEdges : Style.hasBlankLineEdge (' ' :: next :: rest) = false) (notSpace : next ≠ ' ') :
    Style.isGap next = false := by
  have notBreak : isBreak next = false := by
    by_contra breaks
    simp [Style.hasBlankLineEdge, breaks] at noEdges
  simp [Style.isGap, notSpace, notBreak]

theorem noEdges_of_unbroken (unbroken : ∀ c ∈ text, isBreak c = false) :
    Style.hasBlankLineEdge text = false := by
  induction text with
  | nil => rfl
  | cons first rest ih =>
      cases rest with
      | nil => rfl
      | cons second rest =>
          have rest_unbroken : Style.hasBlankLineEdge (second :: rest) = false :=
            ih fun other isMember => unbroken other (List.mem_cons_of_mem _ isMember)
          simp [Style.hasBlankLineEdge, unbroken, rest_unbroken]

namespace Pending

theorem exists_blanks (pending : Pending before (' ' :: rest) gap)
    (noEdges : Style.hasBlankLineEdge (before.toList ++ ' ' :: rest) = false) :
    ∃ reversed, gap = .blanks reversed := by
  cases pending with
  | nothing notGap => exact ⟨[], rfl⟩
  | @spaces _ reversed => exact ⟨' ' :: reversed, rfl⟩
  | folded notGap => simp [Style.isGap] at notGap
  | lineEnds breaks counts =>
      have keeps := not_breaks_of_noEdges noEdges
      simp [breaks] at keeps

theorem eq_empty (pending : Pending before (' ' :: rest) gap)
    (noEdges : Style.hasBlankLineEdge (before.toList ++ ' ' :: rest) = false)
    (notBehindSpace : before.any (· ≠ ' ') = true) : gap = Gap.empty := by
  cases pending with
  | nothing notGap => rfl
  | spaces => simp at notBehindSpace
  | folded notGap => simp at notBehindSpace
  | lineEnds breaks counts =>
      have keeps := not_breaks_of_noEdges noEdges
      simp [breaks] at keeps

end Pending

end Gap

end Yaml

end RbacManifest
