import RbacManifest.Proofs.Yaml.Character
import RbacManifest.Proofs.Yaml.Scan

/-!
# Reading the indicators of collections

The dash before a member of a list, the question mark before a key and the colon behind one, each
with a space behind it, and brackets around nothing.
-/

namespace RbacManifest

namespace Yaml

namespace Scan

variable {indent : Int} {outer around : List Int} {keyAllowed opens : Bool} {position : Position}
  {c : Char} {text : List Char}

/-- Whether a text does not start with a mark that begins or ends a document. -/
def StartsNoMark (position : Position) (text : List Char) : Prop :=
  Cell.isLineMark '-' (position.cells text) = false ∧
    Cell.isLineMark '.' (position.cells text) = false

theorem startsNoMark_of_ne (notDash : c ≠ '-') (notDot : c ≠ '.') :
    StartsNoMark position (c :: text) :=
  ⟨isLineMark_of_ne (by decide) notDash, isLineMark_of_ne (by decide) notDot⟩

theorem startsNoMark_of_space : StartsNoMark position (c :: ' ' :: text) :=
  ⟨isLineMark_of_space (by decide) (by decide), isLineMark_of_space (by decide) (by decide)⟩

theorem dispatch_dash :
    (standing indent outer keyAllowed position ('-' :: ' ' :: text)).dispatch =
      (standing indent outer keyAllowed position ('-' :: ' ' :: text)).entry := by
  have noMark : StartsNoMark position ('-' :: ' ' :: text) := startsNoMark_of_space
  simp [dispatch, facing, noMark.1, noMark.2, endMark, show isBlankOrEnd ' ' = true by decide]

theorem dispatch_questionMark :
    (standing indent outer keyAllowed position ('?' :: ' ' :: text)).dispatch =
      (standing indent outer keyAllowed position ('?' :: ' ' :: text)).questionMark := by
  have noMark : StartsNoMark position ('?' :: ' ' :: text) := startsNoMark_of_space
  simp [dispatch, facing, noMark.1, noMark.2, endMark, show isBlankOrEnd ' ' = true by decide]

theorem dispatch_colon {possible : List PossibleKey}
    (blank : isBlankOrEnd (text.head?.getD endMark) = true) :
    dispatch (facing possible indent outer keyAllowed position (':' :: text)) =
      colon (facing possible indent outer keyAllowed position (':' :: text)) := by
  have noMark : StartsNoMark position (':' :: text) := startsNoMark_of_ne (by decide) (by decide)
  simp [dispatch, facing, noMark.1, noMark.2, show ¬ ':' = endMark by decide, blank]

/-- Whether a collection at a column is the innermost one when a token stands there, and whether it
is opened by this token. -/
def Opens (column : Nat) (indent : Int) (around outer : List Int) (opens : Bool) : Prop :=
  if opens then indent < column ∧ outer = indent :: around else indent = column ∧ outer = around

theorem Opens.indent_le {column : Nat} (opening : Opens column indent around outer opens) :
    indent ≤ column := by
  cases opens with
  | false => exact Int.le_of_eq opening.1
  | true => exact Int.le_of_lt opening.1

theorem openAt_standing {column : Nat} (opening : Opens column indent around outer opens) :
    openAt column (standing indent around keyAllowed position text) =
      (opens, standing column outer keyAllowed position text) := by
  cases opens with
  | false =>
      rcases opening with ⟨rfl, rfl⟩
      simp [openAt, facing]
  | true =>
      rcases opening with ⟨inside, rfl⟩
      simp [openAt, facing, inside]

theorem reads_entry (opening : Opens position.column indent around outer opens) :
    Reads (standing indent around true position ('-' :: ' ' :: text))
      ((if opens then [.blockList] else []) ++ [.entry])
      (standing position.column outer true (position.next '-') (' ' :: text)) := by
  refine .row ?_ (by simp) (by simp)
  rw [next_standing (startsToken_cons.mpr (by decide)) opening.indent_le, dispatch_dash, entry,
    column_facing, openAt_standing opening]
  cases opens <;> simp [facing, dropPossible?, Position.cells_cons]

theorem reads_questionMark (opening : Opens position.column indent around outer opens) :
    Reads (standing indent around true position ('?' :: ' ' :: text))
      ((if opens then [.blockMapping] else []) ++ [.key])
      (standing position.column outer true (position.next '?') (' ' :: text)) := by
  refine .row ?_ (by simp) (by simp)
  rw [next_standing (startsToken_cons.mpr (by decide)) opening.indent_le, dispatch_questionMark,
    questionMark, column_facing, openAt_standing opening]
  cases opens <;> simp [facing, dropPossible?, Position.cells_cons]

theorem reads_colon :
    Reads (standing position.column outer true position (':' :: ' ' :: text)) [.value]
      (standing position.column outer true (position.next ':') (' ' :: text)) := by
  refine .row ?_ (by simp) (by simp)
  have dispatch_eq : (standing position.column outer true position (':' :: ' ' :: text)).dispatch =
      (standing position.column outer true position (':' :: ' ' :: text)).colon :=
    dispatch_colon (show isBlankOrEnd ' ' = true by decide)
  rw [next_standing (startsToken_cons.mpr (by decide)) (Int.le_refl _), dispatch_eq, colon,
    column_facing]
  simp [facing, openAt, Position.cells_cons]

end Scan

end Yaml

end RbacManifest
