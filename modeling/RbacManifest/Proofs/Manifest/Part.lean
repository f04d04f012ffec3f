import RbacManifest.Proofs.Configuration
import RbacManifest.Proofs.Manifest.Members
import RbacManifest.Proofs.Rendered
import RbacManifest.Proofs.Resource

/-!
# Parts of manifests

Manifests are looked into by the names of their fields. The manifests of a run are given in closed
form, `Options.manifest_role` and `Options.manifest_binding`, for labels of texts of any sort.
-/

namespace RbacManifest

namespace Manifest

/-- The value of a field of a mapping. -/
def field? (name : String) : Value → Option Value
  | .mapping entries => Entries.get? entries name
  | _ => none

/-- The value that a row of fields leads to. -/
def part? (value : Value) : List String → Option Value
  | [] => some value
  | name :: rest => (field? name value).bind fun value => part? value rest

theorem part?_singleton {name : String} {value : Value} : part? value [name] = field? name value :=
  Option.bind_fun_some _

theorem isData_of_isSome {value : Value} (isText : value.text?.isSome = true) : IsData value := by
  cases value with
  | text value => rfl
  | kind value => rfl
  | _ => simp [Value.text?] at isText

theorem isData_labels {labels : Entries} (texts : ∀ label ∈ labels, IsTextLabel label) :
    IsData (.mapping labels) := by
  rw [checksMembers_isData.mapping_iff]
  intro label isMember
  exact ⟨by simp, isData_of_isSome (texts label isMember).2⟩

end Manifest

/-! ## The manifests of a run -/

namespace Options

open Manifest

variable {options : Options}

/-- The fields of the manifest of the role of a run. -/
def roleFields (options : Options) (rules : List Rule) : List (String × Value) :=
  contentFields .clusterRole (roleContent (options.role rules) options.labels)

/-- The fields of the manifest of the binding of a run. -/
def bindingFields (options : Options) : List (String × Value) :=
  contentFields .clusterRoleBinding (bindingContent options.binding options.labels)

theorem manifest_role (rules : List Rule) (texts : ∀ label ∈ options.labels, IsTextLabel label) :
    (Resource.ofRole (options.role rules)).manifest = .ok (fields (options.roleFields rules)) := by
  have kept : IsData (fields (options.roleFields rules)) :=
    checksMembers_isData.passes_role_iff.mpr ⟨rfl, isData_labels texts⟩
  have manifest_eq : Manifest.ofRole (options.role rules) =
      .ok (fields (options.roleFields rules)) := kept
  rw [Resource.manifest, manifest_eq]
  rfl

theorem manifest_binding (texts : ∀ label ∈ options.labels, IsTextLabel label) :
    (Resource.ofBinding options.binding).manifest = .ok (fields options.bindingFields) := by
  have metadata_kept : IsData (metadata options.binding.name options.labels) :=
    checksMembers_isData.passes_metadata_iff.mpr ⟨rfl, isData_labels texts⟩
  have kept : IsData (fields options.bindingFields) := by
    rw [checksMembers_isData.passes_fields_iff]
    simp only [bindingFields, contentFields, bindingContent, List.cons_append, List.nil_append,
      List.forall_mem_cons]
    exact ⟨rfl, rfl, metadata_kept, rfl, rfl, by simp⟩
  have manifest_eq : Manifest.ofBinding options.binding = .ok (fields options.bindingFields) := kept
  rw [Resource.manifest, manifest_eq]
  rfl

end Options

end RbacManifest
