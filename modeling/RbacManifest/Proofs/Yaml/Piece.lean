import RbacManifest.Proofs.Yaml.Margin
import RbacManifest.Proofs.Yaml.Textual
import RbacManifest.Proofs.Yaml.WrittenCharacter

/-!
# The pieces of a document

A document consists of single values and of the characters that structure it. `Node.pieces` gives
these pieces in the order in which they are written, with the indentations and the columns at which
the single values stand: `Node.writeDocument_eq_flatMap_pieces`. Quotes stand only around single
values, and what is written between double quotes is read as a single value again.
-/

namespace RbacManifest

namespace Yaml

/-- A piece of a written document. -/
inductive Piece
  /-- Characters that belong to no single value. -/
  | frame (chars : List Char)
  /-- A single value, as it is written from a column on. -/
  | scalar (splits : Bool) (indent column : Nat) (tag : Tag) (text : List Char)
  deriving DecidableEq

namespace Piece

def written : Piece → List Char
  | frame chars => chars
  | scalar splits indent column tag text => Node.writeScalar splits indent column tag text

@[simp]
theorem written_frame (chars : List Char) : (frame chars).written = chars := rfl

@[simp]
theorem written_scalar (splits : Bool) (indent column : Nat) (tag : Tag) (text : List Char) :
    (scalar splits indent column tag text).written =
      Node.writeScalar splits indent column tag text := rfl

/-- Whether a piece may stand in a document: quotes are parts of single values, and a single value
stands at its indentation or to the right of it if its lines may be broken. -/
def IsPlaced : Piece → Prop
  | frame chars => '"' ∉ chars
  | scalar splits indent column _ _ => splits = true → 0 < indent ∧ indent ≤ column

end Piece

/-! ## Single values between double quotes -/

section Escaped

variable {splits : Bool} {indent column : Nat} {tag : Tag} {text : List Char}

theorem writeScalar_of_escaped (escaped : Style.choose tag text = .escaped) :
    Node.writeScalar splits indent column tag text =
      '"' :: Escaped.write splits indent (column + 1) .start text ++ ['"'] := by
  rw [Node.writeScalar, escaped]

theorem isLasting_of_escaped (escaped : Style.choose tag text = .escaped) :
    ∀ c ∈ Node.writeScalar splits indent column tag text, IsLasting c := by
  have quote : IsLasting '"' := IsTypable.isLasting (by decide)
  rw [writeScalar_of_escaped escaped]
  refine List.forall_mem_append.mpr ⟨List.forall_mem_cons.mpr ⟨quote, ?_⟩, by simpa⟩
  exact forall_write (fun _ => IsTypable.isLasting) (fun _ => isLasting_of_isLiteral)
    fun _ => isLasting_lineFeed

theorem Piece.IsPlaced.exists_readQuoted
    (placed : (Piece.scalar splits indent column tag text).IsPlaced)
    (escaped : Style.choose tag text = .escaped) :
    ∃ read,
      (∀ position tail,
        Scan.readQuoted (Position.cells position
            (Node.writeScalar splits indent column tag text ++ tail)) =
          .ok (.scalar read false,
            (position.behind (Node.writeScalar splits indent column tag text)).cells tail,
            false)) ∧
      (read = text ↔
        ¬(splits = true ∧ Folded.width ≤ indent ∧ Escaped.BreaksBeforeSpace text)) := by
  have quoted_placed : splits = true → 0 < indent ∧ indent ≤ column + 1 := fun splits_lines =>
    ⟨(placed splits_lines).1, Nat.le_succ_of_le (placed splits_lines).2⟩
  exact exists_readQuoted_escaped quoted_placed (writeScalar_of_escaped escaped)

end Escaped

namespace Node

/-! ## Pieces of nodes -/

/-- A key that is written in front of its colon. -/
def keyPiece (indent : Nat) : Node → Piece
  | scalar tag text => .scalar false 0 indent tag text
  | _ => .frame []

mutual

/-- The pieces of a value behind a dash, a question mark or a colon. -/
def pieces (sameLine : Bool) (indent column : Nat) : Node → List Piece
  | scalar tag text =>
      [.frame [' '], .scalar true (indent + indentation) (column + 1) tag text]
  | list _ [] => [.frame " []".toList]
  | mapping _ [] => [.frame " \x7b\x7d".toList]
  | list _ items =>
      if sameLine then .frame [' '] :: itemPieces true (indent + indentation) items
      else itemPieces false indent items
  | mapping _ entries =>
      if sameLine then .frame [' '] :: entryPieces true (indent + indentation) entries
      else entryPieces false (indent + indentation) entries
  | enclosing _ => []

/-- The pieces of the members of a list. -/
def itemPieces (onLine : Bool) (indent : Nat) : List Node → List Piece
  | [] => []
  | node :: rest =>
      .frame (if onLine then [] else Folded.newLine indent) :: .frame ['-'] ::
        node.pieces true indent (indent + 1) ++ itemPieces false indent rest

/-- The pieces of the entries of a mapping. -/
def entryPieces (onLine : Bool) (indent : Nat) : List (Node × Node) → List Piece
  | [] => []
  | (key, value) :: rest =>
      .frame (if onLine then [] else Folded.newLine indent) ::
        (if key.isShortKey then
            key.keyPiece indent :: .frame [':'] ::
              value.pieces false indent (indent + (key.keyPiece indent).written.length + 1)
          else
            .frame ['?'] :: key.pieces true indent (indent + 1) ++
              .frame (Folded.newLine indent) :: .frame [':'] ::
                value.pieces true indent (indent + 1)) ++
        entryPieces false indent rest

end

/-- The pieces of a document with the given entries. -/
def documentPieces (entries : List (Node × Node)) : List Piece :=
  entryPieces true 0 entries ++ [.frame ['\n']]

theorem pieces_list (sameLine : Bool) (indent column : Nat) (node : Node) (rest : List Node)
    (tag : Tag) :
    (list tag (node :: rest)).pieces sameLine indent column =
      if sameLine then .frame [' '] :: itemPieces true (indent + indentation) (node :: rest)
      else itemPieces false indent (node :: rest) := by
  simp [pieces]

theorem pieces_mapping (sameLine : Bool) (indent column : Nat) (entry : Node × Node)
    (rest : List (Node × Node)) (tag : Tag) :
    (mapping tag (entry :: rest)).pieces sameLine indent column =
      if sameLine then .frame [' '] :: entryPieces true (indent + indentation) (entry :: rest)
      else entryPieces false (indent + indentation) (entry :: rest) := by
  simp [pieces]

theorem shortKey?_eq (indent : Nat) (key : Node) :
    shortKey? indent key =
      if key.isShortKey then some (key.keyPiece indent).written else none := by
  cases key with
  | scalar tag text =>
      simp only [isShortKey, shortKey?, keyPiece, Piece.written_scalar]
      split <;> simp
  | _ => rfl

mutual

theorem write_eq_flatMap_pieces {sameLine : Bool} {indent column : Nat} : (node : Node) →
    node.write sameLine indent column = (node.pieces sameLine indent column).flatMap Piece.written
  | scalar tag text => by simp [write, pieces]
  | list tag [] => by simp [write, pieces]
  | mapping tag [] => by simp [write, pieces]
  | list tag (node :: rest) => by
      rw [write_items, pieces_list]
      split <;> simp [writeItems_eq_flatMap_pieces (node :: rest)]
  | mapping tag (entry :: rest) => by
      rw [write_entries, pieces_mapping]
      split <;> simp [writeEntries_eq_flatMap_pieces (entry :: rest)]
  | enclosing holder => by simp [write, pieces]

theorem writeItems_eq_flatMap_pieces {onLine : Bool} {indent : Nat} : (items : List Node) →
    writeItems onLine indent items = (itemPieces onLine indent items).flatMap Piece.written
  | [] => by simp [writeItems, itemPieces]
  | node :: rest => by
      rw [writeItems, itemPieces, write_eq_flatMap_pieces node, writeItems_eq_flatMap_pieces rest]
      simp

theorem writeEntries_eq_flatMap_pieces {onLine : Bool} {indent : Nat} :
    (entries : List (Node × Node)) →
    writeEntries onLine indent entries = (entryPieces onLine indent entries).flatMap Piece.written
  | [] => by simp [writeEntries, entryPieces]
  | (key, value) :: rest => by
      rw [writeEntries, entryPieces, shortKey?_eq,
        writeEntries_eq_flatMap_pieces rest]
      by_cases isShort : key.isShortKey
      · simp [isShort, write_eq_flatMap_pieces value]
      · simp [isShort, write_eq_flatMap_pieces key, write_eq_flatMap_pieces value]

end

/-- A document consists of its pieces. -/
theorem writeDocument_eq_flatMap_pieces (entries : List (Node × Node)) :
    writeDocument entries = (documentPieces entries).flatMap Piece.written := by
  simp [writeDocument, documentPieces, writeEntries_eq_flatMap_pieces]

/-! ## Places of pieces -/

theorem isPlaced_newLine (indent : Nat) : (Piece.frame (Folded.newLine indent)).IsPlaced := by
  simp [Piece.IsPlaced, Folded.newLine]

theorem isPlaced_lineStart (onLine : Bool) (indent : Nat) :
    (Piece.frame (if onLine then [] else Folded.newLine indent)).IsPlaced := by
  split
  · simp [Piece.IsPlaced]
  · exact isPlaced_newLine indent

theorem isPlaced_keyPiece (indent : Nat) (key : Node) : (key.keyPiece indent).IsPlaced := by
  cases key <;> simp [keyPiece, Piece.IsPlaced]

theorem isPlaced_scalar {tag : Tag} {text : List Char} {indent column : Nat}
    (column_gt : indent < column) :
    (Piece.scalar true (indent + indentation) (column + 1) tag text).IsPlaced := by
  intro _
  simp only [indentation]
  omega

mutual

theorem isPlaced_of_mem_pieces {sameLine : Bool} {indent column : Nat}
    (column_gt : indent < column) :
    (node : Node) → ∀ piece ∈ node.pieces sameLine indent column, piece.IsPlaced
  | scalar tag text => by
      simp only [pieces, List.forall_mem_cons, List.not_mem_nil, false_imp_iff, implies_true,
        and_true]
      exact ⟨by simp [Piece.IsPlaced], isPlaced_scalar column_gt⟩
  | list tag [] => by simp [pieces, Piece.IsPlaced]
  | mapping tag [] => by simp [pieces, Piece.IsPlaced]
  | list tag (node :: rest) => by
      rw [pieces_list]
      split
      · exact List.forall_mem_cons.mpr
          ⟨by simp [Piece.IsPlaced], isPlaced_of_mem_itemPieces (node :: rest)⟩
      · exact isPlaced_of_mem_itemPieces (node :: rest)
  | mapping tag (entry :: rest) => by
      rw [pieces_mapping]
      split
      · exact List.forall_mem_cons.mpr
          ⟨by simp [Piece.IsPlaced], isPlaced_of_mem_entryPieces (entry :: rest)⟩
      · exact isPlaced_of_mem_entryPieces (entry :: rest)
  | enclosing holder => by simp [pieces]

theorem isPlaced_of_mem_itemPieces {onLine : Bool} {indent : Nat} :
    (items : List Node) → ∀ piece ∈ itemPieces onLine indent items, piece.IsPlaced
  | [] => by simp [itemPieces]
  | node :: rest => by
      simp only [itemPieces, List.forall_mem_append, List.forall_mem_cons, List.cons_append]
      exact ⟨isPlaced_lineStart onLine indent, by simp [Piece.IsPlaced],
        isPlaced_of_mem_pieces (Nat.lt_succ_self _) node, isPlaced_of_mem_itemPieces rest⟩

theorem isPlaced_of_mem_entryPieces {onLine : Bool} {indent : Nat} :
    (entries : List (Node × Node)) → ∀ piece ∈ entryPieces onLine indent entries, piece.IsPlaced
  | [] => by simp [entryPieces]
  | (key, value) :: rest => by
      have colon : (Piece.frame [':']).IsPlaced := by simp [Piece.IsPlaced]
      rw [entryPieces]
      simp only [List.forall_mem_cons, List.forall_mem_append]
      refine ⟨⟨isPlaced_lineStart onLine indent, ?_⟩, isPlaced_of_mem_entryPieces rest⟩
      split
      · simp only [List.forall_mem_cons]
        exact ⟨isPlaced_keyPiece indent key, colon, isPlaced_of_mem_pieces (by omega) value⟩
      · simp only [List.cons_append, List.forall_mem_cons, List.forall_mem_append]
        exact ⟨by simp [Piece.IsPlaced], isPlaced_of_mem_pieces (Nat.lt_succ_self _) key,
          isPlaced_newLine indent, colon, isPlaced_of_mem_pieces (Nat.lt_succ_self _) value⟩

end

theorem isPlaced_of_mem_documentPieces {entries : List (Node × Node)} :
    ∀ piece ∈ documentPieces entries, piece.IsPlaced := by
  rw [documentPieces]
  exact List.forall_mem_append.mpr
    ⟨isPlaced_of_mem_entryPieces entries, by simp [Piece.IsPlaced]⟩

end Node

end Yaml

end RbacManifest
