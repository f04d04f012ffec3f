import RbacManifest.Proofs.Plan
import RbacManifest.Proofs.Rendered
import RbacManifest.Proofs.Resource

/-!
# Resources that have manifests

Every role and every binding of texts is rendered, whatever the texts are. The resources of a run
are made of texts if its labels are, so such a run never fails to render them:
`Plan.exists_ofRules`.
-/

namespace RbacManifest

open Manifest

/-- Whether a binding is made of texts. -/
structure RoleBinding.IsTextual (binding : RoleBinding) : Prop where
  texts : HasTexts (fun _ => True) binding
  labels : ∃ labels, binding.labels = .mapping labels ∧ AreTextualLabels labels

namespace Manifest

theorem AreTextualLabels.areLabelsOf {labels : Entries} (textual : AreTextualLabels labels) :
    AreLabelsOf (fun _ => True) (fun _ => True) labels :=
  ⟨textual.distinct, by simpa using textual.keys, by simpa using textual.values⟩

end Manifest

namespace Resource

theorem exists_render_ofRole {role : Role} (textual : role.IsTextual) :
    ∃ bytes, (ofRole role).render.outcome = .ok bytes := by
  rcases textual.labels with ⟨labels, labels_eq, labels_textual⟩
  have made := textual.isMadeOf labels_textual
  rcases exists_document made with ⟨first, nodes, _, _, document_eq⟩
  exact ⟨_, outcome_render (document_ofRole labels_eq made document_eq)⟩

theorem document_ofBinding {isText isKey : String → Prop} {indent : Nat} {binding : RoleBinding}
    {labels : Entries} {text : List Char} (texts : HasTexts isText binding)
    (labels_eq : binding.labels = .mapping labels) (made : (fields
      (contentFields .clusterRoleBinding (bindingContent binding labels))).IsMadeOf isText isKey
        indent)
    (document_eq : Manifest.document
      (fields (contentFields .clusterRoleBinding (bindingContent binding labels))) = .ok text) :
    (ofBinding binding).document = .ok text := by
  rw [document, manifest, ofBinding_eq texts labels_eq made]
  simp only [Except.mapError, bind, Except.bind, document_eq]

theorem exists_render_ofBinding {binding : RoleBinding} (textual : binding.IsTextual) :
    ∃ bytes, (ofBinding binding).render.outcome = .ok bytes := by
  rcases textual.labels with ⟨labels, labels_eq, labels_textual⟩
  have made : (fields (contentFields .clusterRoleBinding (bindingContent binding labels))).IsMadeOf
      (fun _ => True) (fun _ => True) 0 :=
    isMadeOf_binding (by simp) trivial trivial trivial textual.texts labels_textual.areLabelsOf
  rcases exists_document made with ⟨first, nodes, _, _, document_eq⟩
  exact ⟨_, outcome_render (document_ofBinding textual.texts labels_eq made document_eq)⟩

end Resource

namespace Options

variable {options : Options}

theorem isTextual_role (rules : List Rule) (textual : AreTextualLabels options.labels) :
    (options.role rules).IsTextual :=
  ⟨⟨_, rfl⟩, ⟨_, rfl, textual⟩⟩

theorem hasTexts_binding : HasTexts (fun _ => True) options.binding where
  name := ⟨_, rfl, trivial⟩
  subjectName := ⟨_, rfl, trivial⟩
  subjectNamespace := ⟨_, rfl, trivial⟩
  roleName := ⟨_, rfl, trivial⟩
  subjectKind := ⟨_, rfl, trivial⟩
  roleKind := ⟨_, rfl, trivial⟩

theorem isTextual_binding (textual : AreTextualLabels options.labels) :
    options.binding.IsTextual :=
  ⟨hasTexts_binding, ⟨_, rfl, textual⟩⟩

end Options

/-- The resources of a run with a name and with labels of texts are rendered. -/
theorem Plan.exists_ofRules {options : Options} (rules : List Rule) (named : options.name ≠ "")
    (textual : AreTextualLabels options.labels) :
    ∃ plan, (ofRules options rules).outcome = .ok plan := by
  have role_built : Role.build rules options = .ok (options.role rules) :=
    Role.build_eq_ok_iff.mpr ⟨named, rfl⟩
  have binding_built : RoleBinding.build options = .ok options.binding :=
    RoleBinding.build_eq_ok_iff.mpr ⟨named, rfl⟩
  rcases Resource.exists_render_ofRole (options.isTextual_role rules textual) with
    ⟨roleBytes, role_rendered⟩
  rcases Resource.exists_render_ofBinding (options.isTextual_binding textual) with
    ⟨bindingBytes, binding_rendered⟩
  simp only [ofRules, Logged.outcome_bind, Logged.outcome_of, Logged.outcome_pure, role_built,
    binding_built]
  simp only [bind, Except.bind, role_rendered, binding_rendered]
  exact ⟨_, rfl⟩

end RbacManifest
