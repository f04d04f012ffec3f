import RbacManifest.Proofs.Rendered
import RbacManifest.Proofs.Yaml.Piece

/-!
# Values between double quotes in rendered resources

Whatever a resource is rendered as, each value between double quotes consists of characters that may
stand in a document, and is read as a text again: `Resource.exists_readQuoted_of_render`. The text
is the one that was written unless it stands behind the margin and an escape inside it is followed
by a space.
-/

namespace RbacManifest

open Yaml Yaml.Node

namespace Manifest

/-! ## Manifests are mappings -/

theorem exists_mapping_of_ofContent {kind : ResourceKind} {content : List (String × Value)}
    {manifest : Value} (made : ofContent kind content = .ok manifest) :
    ∃ entries, manifest = .mapping entries := by
  rw [ofContent, fields_eq, data, Except.map_eq_ok_iff] at made
  rcases made with ⟨entries, _, manifest_eq⟩
  exact ⟨entries, manifest_eq.symm⟩

theorem exists_mapping_of_manifest {resource : Resource} {manifest : Value}
    (made : resource.manifest = .ok manifest) : ∃ entries, manifest = .mapping entries := by
  cases resource with
  | ofRole role =>
      simp only [Resource.manifest, Except.mapError_eq_ok_iff, ofRole, Except.bind_eq_ok_iff]
        at made
      rcases made with ⟨_, _, made⟩
      exact exists_mapping_of_ofContent made
  | ofBinding binding =>
      simp only [Resource.manifest, Except.mapError_eq_ok_iff, ofBinding, Except.bind_eq_ok_iff]
        at made
      rcases made with ⟨_, _, _, _, _, _, _, _, _, _, made⟩
      exact exists_mapping_of_ofContent made
  | other value => cases made

theorem document_mapping {entries : Entries} {text : List Char}
    (written : document (.mapping entries) = .ok text) :
    ∃ nodes, ofValue (.mapping entries) = .ok (.mapping .mapping nodes) ∧
      text = writeDocument nodes := by
  rw [document] at written
  cases node_eq : ofValue (.mapping entries) with
  | error value => simp [node_eq] at written
  | ok node =>
      have node_mapping := node_eq
      rw [ofValue, Except.map_eq_ok_iff] at node_mapping
      rcases node_mapping with ⟨nodes, _, rfl⟩
      simp only [node_eq, Except.ok.injEq] at written
      exact ⟨nodes, rfl, written.symm⟩

end Manifest

namespace Resource

open Manifest

/-- A rendered resource consists of the pieces of its manifest. -/
theorem exists_pieces_of_render {resource : Resource} {bytes : List UInt8}
    (rendered : resource.render.outcome = .ok bytes) :
    ∃ manifest nodes, resource.manifest = .ok manifest ∧
      ofValue manifest = .ok (.mapping .mapping nodes) ∧
      bytes = Text.encode ((documentPieces nodes).flatMap Piece.written) := by
  rcases exists_document_of_render rendered with ⟨manifest, text, made, written, rfl⟩
  rcases exists_mapping_of_manifest made with ⟨entries, rfl⟩
  rcases document_mapping written with ⟨nodes, node_eq, rfl⟩
  exact ⟨_, nodes, made, node_eq, by rw [writeDocument_eq_flatMap_pieces]⟩

theorem exists_readQuoted_of_render {resource : Resource} {bytes : List UInt8}
    (rendered : resource.render.outcome = .ok bytes) :
    ∃ manifest nodes, resource.manifest = .ok manifest ∧
      ofValue manifest = .ok (.mapping .mapping nodes) ∧
      bytes = Text.encode ((documentPieces nodes).flatMap Piece.written) ∧
      (∀ chars, .frame chars ∈ documentPieces nodes → '"' ∉ chars) ∧
      ∀ splits indent column tag text,
        .scalar splits indent column tag text ∈ documentPieces nodes →
        Style.choose tag text = .escaped →
        (∀ c ∈ writeScalar splits indent column tag text, IsLasting c) ∧
        ∃ read,
          (∀ position tail,
            Scan.readQuoted (Position.cells position
                (writeScalar splits indent column tag text ++ tail)) =
              .ok (.scalar read false,
                (position.behind (writeScalar splits indent column tag text)).cells tail, false)) ∧
          (read = text ↔
            ¬(splits = true ∧ Folded.width ≤ indent ∧ Escaped.BreaksBeforeSpace text)) := by
  rcases exists_pieces_of_render rendered with ⟨manifest, nodes, made, node_eq, bytes_eq⟩
  have placed : ∀ piece ∈ documentPieces nodes, piece.IsPlaced := isPlaced_of_mem_documentPieces
  refine ⟨manifest, nodes, made, node_eq, bytes_eq, fun chars => placed (.frame chars), ?_⟩
  intro splits indent column tag text isPiece escaped
  exact ⟨isLasting_of_escaped escaped, (placed _ isPiece).exists_readQuoted escaped⟩

/-! ## A text in lists within lists -/

/-- A text in which an escape is followed by a space. -/
def bell : List Char := "a\x07 b".toList

/-- The text in lists within lists. -/
def nestedBell : Nat → Value
  | 0 => .text (String.ofList bell)
  | depth + 1 => .list [nestedBell depth]

def nestedBellNode : Nat → Node
  | 0 => .scalar .text bell
  | depth + 1 => .list .list [nestedBellNode depth]

/-- A role with the text in lists within lists as its label. -/
def bellRole (depth : Nat) : Role where
  name := .text "x"
  labels := .mapping [(.text "a", nestedBell depth)]
  rules := []

def bellNodes (depth : Nat) : List (Node × Node) :=
  let text (value : String) : Node := .scalar .text value.toList
  [(text "apiVersion", text apiVersion), (text "kind", text ResourceKind.clusterRole.name),
    (text "metadata", .mapping .mapping
      [(text "labels", .mapping .mapping [(text "a", nestedBellNode depth)]),
        (text "name", text "x")]),
    (text "rules", .list .list [])]

theorem exists_readQuoted_of_render_bell :
    ∃ bytes, (ofRole (bellRole 0)).render.outcome = .ok bytes ∧
      ∃ read,
        (∀ position tail,
          Scan.readQuoted (Position.cells position (writeScalar true 6 7 .text bell ++ tail)) =
            .ok (.scalar read false,
              (position.behind (writeScalar true 6 7 .text bell)).cells tail, false)) ∧
        read = bell := by
  have document_eq : (ofRole (bellRole 0)).document = .ok (writeDocument (bellNodes 0)) := rfl
  have rendered := outcome_render document_eq
  rcases exists_readQuoted_of_render rendered with ⟨manifest, nodes, made, node_eq, _, _, scalars⟩
  have manifest_node : (ofRole (bellRole 0)).manifest.map ofValue =
      .ok (.ok (.mapping .mapping (bellNodes 0))) := rfl
  have nodes_eq : nodes = bellNodes 0 := by
    rw [made] at manifest_node
    simpa [Except.map, node_eq] using manifest_node
  have isPiece : Piece.scalar true 6 7 .text bell ∈ documentPieces nodes := by
    rw [nodes_eq]
    decide +kernel
  have near : ¬Folded.width ≤ 6 := by decide
  rcases scalars _ _ _ _ _ isPiece (by decide +kernel) with ⟨_, read, reads, read_eq_iff⟩
  exact ⟨_, rendered, read, reads, read_eq_iff.mpr fun far => near far.2.1⟩

/-- Far to the right the text is read with a backslash and a space that are not in it. -/
theorem exists_misread_nestedBell :
    ∃ nodes indent column read,
      (ofRole (bellRole 38)).render.outcome =
          .ok (Text.encode ((documentPieces nodes).flatMap Piece.written)) ∧
        .scalar true indent column .text bell ∈ documentPieces nodes ∧
        Style.choose .text bell = .escaped ∧
        (∀ position tail,
          Scan.readQuoted
              (Position.cells position (writeScalar true indent column .text bell ++ tail)) =
            .ok (.scalar read false,
              (position.behind (writeScalar true indent column .text bell)).cells tail, false)) ∧
        read ≠ bell := by
  have document_eq : (ofRole (bellRole 38)).document = .ok (writeDocument (bellNodes 38)) := rfl
  have isPiece : Piece.scalar true 80 80 .text bell ∈ documentPieces (bellNodes 38) := by
    decide +kernel
  have escaped : Style.choose .text bell = .escaped := by decide +kernel
  refine ⟨bellNodes 38, 80, 80, "a\x07\\  b".toList, ?_, isPiece, escaped, ?_, by decide⟩
  · rw [← writeDocument_eq_flatMap_pieces]
    exact outcome_render document_eq
  · intro position tail
    exact readQuoted_far (Nat.le_refl _) (by decide) (writeScalar_of_escaped escaped)

end Resource

end RbacManifest
