import RbacManifest.Proofs.Manifest
import RbacManifest.Proofs.Yaml.Alike

/-!
# What rendered bytes say

Two roles of texts are rendered as the same bytes exactly when they have the same name, the same
labels in any order and the same rules, wherever these were written. This is
`Resource.render_eq_render_iff`. No text in a role can pass for another part of a document.
-/

namespace RbacManifest

namespace Manifest

open Yaml Yaml.Node Value

/-! ## Documents of values of texts -/

variable {isText isKey : String → Prop} {indent : Nat}

theorem exists_document {entry : Value × Value} {entries : Entries}
    (made : (Value.mapping (entry :: entries)).IsMadeOf isText isKey indent) :
    ∃ first nodes,
      ofValue (.mapping (entry :: entries)) = .ok (.mapping .mapping (first :: nodes)) ∧
      AreTextualEntries (indent + indentation) (first :: nodes) ∧
      document (.mapping (entry :: entries)) = .ok (writeDocument (first :: nodes)) := by
  rcases made.exists_node with ⟨node, node_eq, node_textual⟩
  rcases exists_mapping_of_ofValue made.textKeys node_eq with ⟨first, nodes, rfl⟩
  simp only [IsTextual] at node_textual
  refine ⟨first, nodes, node_eq, node_textual.2, ?_⟩
  rw [document, node_eq]

/-- Mappings of texts are written as one document exactly when they are the same but for the order
of entries. -/
theorem document_eq_document_iff {leftEntry rightEntry : Value × Value}
    {leftEntries rightEntries : Entries}
    (left_made : (Value.mapping (leftEntry :: leftEntries)).IsMadeOf isText isKey indent)
    (right_made : (Value.mapping (rightEntry :: rightEntries)).IsMadeOf isText isKey indent) :
    ∃ left right, document (.mapping (leftEntry :: leftEntries)) = .ok left ∧
      document (.mapping (rightEntry :: rightEntries)) = .ok right ∧
      (left = right ↔ (Value.mapping (leftEntry :: leftEntries)).Alike
        (.mapping (rightEntry :: rightEntries))) := by
  rcases exists_document left_made with ⟨first, nodes, left_eq, nodes_textual, left_document⟩
  rcases exists_document right_made with
    ⟨other, others, right_eq, others_textual, right_document⟩
  refine ⟨_, _, left_document, right_document, ?_⟩
  rw [← IsMadeOf.ofValue_eq_iff left_made right_made, left_eq, right_eq]
  constructor
  · intro same
    rw [writeDocument_injective nodes_textual others_textual same]
  · intro same
    rw [(Node.mapping.inj (Except.ok.inj same)).2]

/-! ## Fields -/

variable {left right : List (String × Value)}

/-- The entries of the fields that have a value. -/
def fieldEntries (pairs : List (String × Value)) : Entries :=
  (pairs.filter fun (_, value) => !(value matches .null)).map fun (name, value) =>
    (.text name, value)

theorem fields_eq (pairs : List (String × Value)) : fields pairs = .mapping (fieldEntries pairs) :=
  rfl

theorem fieldEntries_null (name : String) (rest : List (String × Value)) :
    fieldEntries ((name, .null) :: rest) = fieldEntries rest := rfl

theorem fieldEntries_given {name : String} {value : Value} {rest : List (String × Value)}
    (given : value ≠ .null) :
    fieldEntries ((name, value) :: rest) = (.text name, value) :: fieldEntries rest := by
  cases value <;> first | rfl | exact absurd rfl given

theorem mem_fieldEntries {pairs : List (String × Value)} {name : String} {value : Value} :
    (.text name, value) ∈ fieldEntries pairs ↔ (name, value) ∈ pairs ∧ value ≠ .null := by
  simp only [fieldEntries, List.mem_map, List.mem_filter, Prod.mk.injEq, Value.text.injEq]
  constructor
  · rintro ⟨⟨other, found⟩, ⟨isMember, given⟩, rfl, rfl⟩
    refine ⟨isMember, ?_⟩
    rintro rfl
    simp at given
  · rintro ⟨isMember, given⟩
    refine ⟨(name, value), ⟨isMember, ?_⟩, rfl, rfl⟩
    cases value <;> simp at given ⊢

theorem forall₂_fieldEntries (names_eq : left.map (·.1) = right.map (·.1))
    (alike : List.Forall₂ Alike (left.map (·.2)) (right.map (·.2))) :
    List.Forall₂ AlikeEntries (fieldEntries left) (fieldEntries right) := by
  induction left generalizing right with
  | nil =>
      cases right with
      | nil => exact .nil
      | cons other others => simp at names_eq
  | cons pair rest ih =>
      cases right with
      | nil => simp at names_eq
      | cons other others =>
          rcases pair with ⟨name, value⟩
          rcases other with ⟨otherName, otherValue⟩
          simp only [List.map_cons, List.cons.injEq] at names_eq
          simp only [List.map_cons, List.forall₂_cons] at alike
          rcases names_eq with ⟨rfl, names_eq⟩
          rcases alike with ⟨value_alike, rest_alike⟩
          by_cases isNull : value = .null
          · rw [isNull, alike_null_iff] at value_alike
            rw [isNull, value_alike, fieldEntries_null, fieldEntries_null]
            exact ih names_eq rest_alike
          · have other_given : otherValue ≠ .null := by
              rintro rfl
              exact isNull (alike_null_right_iff.mp value_alike)
            rw [fieldEntries_given isNull, fieldEntries_given other_given]
            exact .cons ⟨rfl, value_alike⟩ (ih names_eq rest_alike)

theorem forall₂_of_names {relation : Value → Value → Prop}
    (names_eq : left.map (·.1) = right.map (·.1))
    (related : ∀ name leftValue rightValue, (name, leftValue) ∈ left → (name, rightValue) ∈ right →
      relation leftValue rightValue) :
    List.Forall₂ relation (left.map (·.2)) (right.map (·.2)) := by
  induction left generalizing right with
  | nil =>
      cases right with
      | nil => exact .nil
      | cons other others => simp at names_eq
  | cons pair rest ih =>
      cases right with
      | nil => simp at names_eq
      | cons other others =>
          simp only [List.map_cons, List.cons.injEq] at names_eq
          refine .cons ?_ (ih names_eq.2 ?_)
          · refine related pair.1 pair.2 other.2 (by simp) ?_
            rw [names_eq.1]
            simp
          · exact fun name leftValue rightValue left_mem right_mem =>
              related name leftValue rightValue (by simp [left_mem]) (by simp [right_mem])

theorem value_eq_of_mem {pairs : List (String × Value)} {name : String} {value other : Value}
    (distinct : (pairs.map (·.1)).Nodup) (value_mem : (name, value) ∈ pairs)
    (other_mem : (name, other) ∈ pairs) : value = other :=
  (Prod.mk.inj (List.inj_on_of_nodup_map distinct value_mem other_mem rfl)).2

/-- Fields are the same but for the order of entries exactly when their values are. -/
theorem fields_alike_iff (names_eq : left.map (·.1) = right.map (·.1))
    (distinct : (left.map (·.1)).Nodup) :
    (fields left).Alike (fields right) ↔
      List.Forall₂ Alike (left.map (·.2)) (right.map (·.2)) := by
  have right_distinct : (right.map (·.1)).Nodup := names_eq ▸ distinct
  rw [fields_eq, fields_eq, alike_mapping_iff]
  constructor
  · rintro ⟨middle, perm, alike⟩
    refine forall₂_of_names names_eq ?_
    intro name leftValue rightValue left_mem right_mem
    by_cases isNull : leftValue = .null
    · -- A field without a value on the left has none on the right, where it would have a partner.
      by_contra notAlike
      have given : rightValue ≠ .null := by
        rintro rfl
        exact notAlike (isNull ▸ .same _)
      rcases Related.exists_of_mem alike.flip (mem_fieldEntries.mpr ⟨right_mem, given⟩) with
        ⟨⟨key, partner⟩, partner_mem, key_eq, _⟩
      rw [← perm.mem_iff, show key = .text name from key_eq, mem_fieldEntries] at partner_mem
      exact partner_mem.2 (value_eq_of_mem distinct partner_mem.1 left_mem ▸ isNull)
    · have isMember := perm.mem_iff.mp (mem_fieldEntries.mpr ⟨left_mem, isNull⟩)
      rcases Related.exists_of_mem alike isMember with
        ⟨⟨key, partner⟩, partner_mem, key_eq, partner_alike⟩
      rw [show key = .text name from key_eq.symm, mem_fieldEntries] at partner_mem
      rw [value_eq_of_mem right_distinct right_mem partner_mem.1]
      exact partner_alike
  · intro alike
    exact ⟨fieldEntries left, List.Perm.refl _, forall₂_fieldEntries names_eq alike⟩

/-! ## Parts of manifests of roles -/

theorem texts_alike_iff {left right : List String} :
    (texts left).Alike (texts right) ↔ left = right := by
  have texts_eq : (fun left right => (Value.text left).Alike (.text right)) =
      fun left right : String => left = right := by
    funext left right
    simp [eq_comm]
  rw [texts, texts, alike_list_iff, List.forall₂_map_left_iff, List.forall₂_map_right_iff, texts_eq,
    List.forall₂_eq_eq_eq]

theorem textsIfAny_alike_iff {left right : List String} :
    (textsIfAny left).Alike (textsIfAny right) ↔ left = right := by
  cases left with
  | nil => cases right <;> simp [textsIfAny, texts]
  | cons first rest =>
      cases right with
      | nil => simp [textsIfAny, texts]
      | cons other others => exact texts_alike_iff

theorem ofRule_alike_iff {left right : Rule} :
    (ofRule left).Alike (ofRule right) ↔ left.same right = true := by
  rcases left with ⟨⟨_, _, _, _⟩, _, _⟩
  rcases right with ⟨⟨_, _, _, _⟩, _, _⟩
  rw [ofRule, ofRule, fields_alike_iff (by rfl) (by simp)]
  simp [textsIfAny_alike_iff, texts_alike_iff, Rule.same, and_assoc]

/-- Whether labels are texts under different texts. -/
structure AreTextualLabels (labels : Entries) : Prop where
  distinct : (labels.map (·.1)).Nodup
  keys : ∀ entry ∈ labels, ∃ key, entry.1 = .text key
  values : ∀ entry ∈ labels, ∃ text, entry.2 = .text text

theorem labels_alike_iff {left right : Entries} (left_textual : AreTextualLabels left) :
    (Value.mapping left).Alike (.mapping right) ↔ left.Perm right := by
  rw [alike_mapping_iff]
  constructor
  · rintro ⟨middle, perm, alike⟩
    have same : List.Forall₂ (· = ·) middle right := by
      refine (Related.congr_of_mem ?_).mp alike
      intro entry entry_mem other _
      rcases left_textual.values entry (perm.mem_iff.mpr entry_mem) with ⟨text, text_eq⟩
      rw [AlikeEntries, text_eq, alike_text_iff, ← text_eq, Prod.ext_iff, eq_comm (a := other.2)]
    rw [List.forall₂_eq_eq_eq] at same
    rwa [← same]
  · intro perm
    exact ⟨right, perm, List.forall₂_same.mpr fun entry _ => ⟨rfl, .same entry.2⟩⟩

theorem metadata_alike_iff {leftName rightName : Value} {left right : Entries}
    (left_textual : AreTextualLabels left) :
    (metadata leftName left).Alike (metadata rightName right) ↔
      left.Perm right ∧ leftName.Alike rightName := by
  have labels_alike_iff : (if left.isEmpty then Value.null else .mapping left).Alike
      (if right.isEmpty then .null else .mapping right) ↔ left.Perm right := by
    cases left with
    | nil => cases right <;> simp
    | cons first rest =>
        cases right with
        | nil => simp
        | cons other others => exact labels_alike_iff left_textual
  rw [metadata, metadata, fields_alike_iff (by rfl) (by simp)]
  simp only [List.map_cons, List.map_nil, List.forall₂_cons, labels_alike_iff,
    List.forall₂_nil_left_iff, and_true]

theorem roleContent_alike_iff {left right : Role} {leftLabels rightLabels : Entries}
    (left_textual : AreTextualLabels leftLabels) :
    (fields (contentFields .clusterRole (roleContent left leftLabels))).Alike
        (fields (contentFields .clusterRole (roleContent right rightLabels))) ↔
      left.name.Alike right.name ∧ leftLabels.Perm rightLabels ∧
        List.Forall₂ (fun left right => left.same right = true) left.rules right.rules := by
  rw [fields_alike_iff (by rfl) (by simp [contentFields, roleContent])]
  simp only [contentFields, roleContent, List.cons_append, List.nil_append, List.map_cons,
    List.map_nil, List.forall₂_cons, alike_text_iff, metadata_alike_iff left_textual,
    alike_list_iff, List.forall₂_map_left_iff, List.forall₂_map_right_iff, ofRule_alike_iff,
    List.forall₂_nil_left_iff, true_and, and_true]
  tauto

end Manifest

open Manifest

/-- Whether a role is made of texts. -/
structure Role.IsTextual (role : Role) : Prop where
  name : ∃ name, role.name = .text name
  labels : ∃ labels, role.labels = .mapping labels ∧ AreTextualLabels labels

/-- Whether two roles have the same name, the same labels in some order and rules that say the
same. -/
structure Role.SaysSame (left right : Role) : Prop where
  name : left.name = right.name
  labels : ∃ leftLabels rightLabels, left.labels = .mapping leftLabels ∧
    right.labels = .mapping rightLabels ∧ leftLabels.Perm rightLabels
  rules : List.Forall₂ (fun left right => left.same right = true) left.rules right.rules

theorem Role.IsTextual.isMadeOf {role : Role} {labels : Entries} (textual : role.IsTextual)
    (labels_textual : AreTextualLabels labels) :
    (fields (contentFields .clusterRole (roleContent role labels))).IsMadeOf (fun _ => True)
      (fun _ => True) 0 := by
  have labels_allowed : AreLabelsOf (fun _ => True) (fun _ => True) labels :=
    ⟨labels_textual.distinct, by simpa using labels_textual.keys,
      by simpa using labels_textual.values⟩
  exact isMadeOf_role (by simp) trivial trivial (by simpa using textual.name) labels_allowed
    (by simp)

namespace Resource

variable {isText isKey : String → Prop} {indent : Nat}

theorem outcome_render {resource : Resource} {text : List Char}
    (document_eq : resource.document = .ok text) :
    resource.render.outcome = .ok (Text.encode text) := by
  rw [render, Logged.outcome_bind, Logged.outcome_of, document_eq]
  rfl

theorem exists_document_of_render {resource : Resource} {bytes : List UInt8}
    (rendered : resource.render.outcome = .ok bytes) :
    ∃ manifest text, resource.manifest = .ok manifest ∧ Manifest.document manifest = .ok text ∧
      bytes = Text.encode text := by
  simp only [render, document, Logged.outcome_bind, Logged.outcome_of, Logged.outcome_record,
    Logged.outcome_pure, Except.bind_eq_ok_iff, Except.mapError_eq_ok_iff, Except.ok.injEq]
    at rendered
  rcases rendered with ⟨text, ⟨manifest, manifest_eq, text_eq⟩, _, _, rfl⟩
  exact ⟨manifest, text, manifest_eq, text_eq, rfl⟩

theorem document_ofRole {role : Role} {labels : Entries} {text : List Char}
    (labels_eq : role.labels = .mapping labels) (made : (fields
      (contentFields .clusterRole (roleContent role labels))).IsMadeOf isText isKey indent)
    (document_eq : Manifest.document
      (fields (contentFields .clusterRole (roleContent role labels))) = .ok text) :
    (ofRole role).document = .ok text := by
  rw [document, manifest, Manifest.ofRole_eq labels_eq made]
  simp only [Except.mapError, bind, Except.bind, document_eq]

/-- Two roles of texts are rendered as the same bytes exactly when they say the same. -/
theorem render_eq_render_iff (left right : Role) (left_textual : left.IsTextual)
    (right_textual : right.IsTextual) :
    ∃ leftBytes rightBytes, (ofRole left).render.outcome = .ok leftBytes ∧
      (ofRole right).render.outcome = .ok rightBytes ∧
      (leftBytes = rightBytes ↔ left.SaysSame right) := by
  rcases left_textual.labels with ⟨leftLabels, left_labels_eq, left_labels⟩
  rcases right_textual.labels with ⟨rightLabels, right_labels_eq, right_labels⟩
  have left_made := left_textual.isMadeOf left_labels
  have right_made := right_textual.isMadeOf right_labels
  rcases document_eq_document_iff left_made right_made with
    ⟨leftText, rightText, left_document, right_document, same_iff⟩
  refine ⟨_, _, outcome_render (document_ofRole left_labels_eq left_made left_document),
    outcome_render (document_ofRole right_labels_eq right_made right_document), ?_⟩
  have bytes_iff : Text.encode leftText = Text.encode rightText ↔ leftText = rightText := by
    constructor
    · intro same
      have decoded := Text.decode_encode leftText
      rw [same, Text.decode_encode] at decoded
      exact (Except.ok.inj decoded).symm
    · exact congrArg Text.encode
  rw [bytes_iff]
  refine same_iff.trans ((roleContent_alike_iff left_labels).trans ?_)
  rcases left_textual.name with ⟨name, name_eq⟩
  constructor
  · rintro ⟨name_alike, labels_perm, rules_same⟩
    rw [name_eq, Value.alike_text_iff, ← name_eq] at name_alike
    exact ⟨name_alike.symm, ⟨_, _, left_labels_eq, right_labels_eq, labels_perm⟩, rules_same⟩
  · rintro ⟨same_name, ⟨leftOthers, rightOthers, left_eq, right_eq, labels_perm⟩, rules_same⟩
    rw [left_labels_eq, Value.mapping.injEq] at left_eq
    rw [right_labels_eq, Value.mapping.injEq] at right_eq
    rw [left_eq, right_eq, same_name]
    exact ⟨.same _, labels_perm, rules_same⟩

end Resource

/-- A role with next lines in its name and among its labels, and with a key that readers do not take
for one. -/
def Role.unusual (labels : Entries) : Role where
  name := .text "a\u0085b"
  labels := .mapping labels
  rules := [{ target := { apiGroups := [""], resources := ["pods:\n- x"] }, verbs := ["get"] }]

/-- A label with a next line and one with a long key. -/
def Role.unusualLabels : Entries :=
  [(.text "\u0085", .text "c\u0085 \n"), (.text (String.ofList (List.replicate 110 'k')), .text "")]

theorem Resource.render_eq_render_iff_reversed :
    (Role.unusual Role.unusualLabels).IsTextual ∧
      (Role.unusual Role.unusualLabels.reverse).IsTextual ∧
      ∃ bytes, (ofRole (.unusual Role.unusualLabels)).render.outcome = .ok bytes ∧
        (ofRole (.unusual Role.unusualLabels.reverse)).render.outcome = .ok bytes := by
  have labels_textual : AreTextualLabels Role.unusualLabels := by
    constructor <;> simp [Role.unusualLabels]
  have reverse_textual : AreTextualLabels Role.unusualLabels.reverse := by
    refine ⟨?_, by simpa using labels_textual.keys, by simpa using labels_textual.values⟩
    rw [List.map_reverse, List.nodup_reverse]
    exact labels_textual.distinct
  have textual : (Role.unusual Role.unusualLabels).IsTextual := ⟨⟨_, rfl⟩, ⟨_, rfl, labels_textual⟩⟩
  have reversed_textual : (Role.unusual Role.unusualLabels.reverse).IsTextual :=
    ⟨⟨_, rfl⟩, ⟨_, rfl, reverse_textual⟩⟩
  rcases render_eq_render_iff _ _ textual reversed_textual with
    ⟨bytes, reversedBytes, outcome_eq, reversed_outcome_eq, same_iff⟩
  have same : (Role.unusual Role.unusualLabels).SaysSame (.unusual Role.unusualLabels.reverse) :=
    ⟨rfl, ⟨_, _, rfl, rfl, (List.reverse_perm _).symm⟩, List.forall₂_same.mpr (by simp [Rule.same])⟩
  rw [← same_iff.mpr same] at reversed_outcome_eq
  exact ⟨textual, reversed_textual, bytes, outcome_eq, reversed_outcome_eq⟩

end RbacManifest
