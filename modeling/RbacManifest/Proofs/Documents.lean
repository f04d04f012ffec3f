import RbacManifest.Proofs.Generate
import RbacManifest.Proofs.Manifest.Part
import RbacManifest.Proofs.Outcome
import RbacManifest.Proofs.Repeat
import RbacManifest.Proofs.Rule.Grants

/-!
# The two documents of a run

A run that finds rules writes two documents, the manifest of a role and that of a binding, and the
two are made apart from each other. They belong together all the same, and with no document of a run
with another name. `generateFrom_belongTogether` says so for every source of rules.
-/

namespace RbacManifest

open Manifest

/-- Whether a run writes the manifests of a role and of a binding for the rules of its source. -/
structure WritesManifests (source : String → Logged (List Rule)) (tree : FileTree)
    (options : Options) (rules : List Rule) (role binding : Value) : Prop where
  checked : options.check tree = .ok ()
  found : (source options.inputDirectory).outcome = .ok rules
  role_made : ∃ built, Role.build (Rule.aggregate rules) options = .ok built ∧
    (Resource.ofRole built).manifest = .ok role
  binding_made : ∃ built, RoleBinding.build options = .ok built ∧
    (Resource.ofBinding built).manifest = .ok binding
  written : ∃ roleText bindingText, Manifest.document role = .ok roleText ∧
    Manifest.document binding = .ok bindingText ∧
    tree.WritesAll
      [⟨.clusterRole, options.manifestPath .clusterRole, Text.encode roleText⟩,
        ⟨.clusterRoleBinding, options.manifestPath .clusterRoleBinding, Text.encode bindingText⟩]
      (generateFrom source tree options).1

namespace Manifest

/-- What a manifest says about labels, which is nothing if there are none. -/
def labelsPart (labels : Entries) : Option Value :=
  if labels.isEmpty then none else some (.mapping labels)

/-- The namespaces of the subjects of a binding. -/
def namespaces (binding : Value) : List (Option Value) :=
  match field? "subjects" binding with
  | some (.list subjects) => subjects.map (field? "namespace")
  | _ => []

/-- Whether manifests of a role and of a binding have the same labels and these names, and whether
the binding refers to the role. -/
structure BelongTogether (labels : Entries) (names : ResourceNames) (role binding : Value) :
    Prop where
  role_labels : part? role ["metadata", "labels"] = labelsPart labels
  binding_labels : part? binding ["metadata", "labels"] = labelsPart labels
  role_name : part? role ["metadata", "name"] = some (.text names.role)
  binding_name : part? binding ["metadata", "name"] = some (.text names.binding)
  namespaces_eq : namespaces binding = [some (.text names.namespaceName)]
  reference_name : part? binding ["roleRef", "name"] = some (.text names.role)
  reference_kind : ∃ kind, part? role ["kind"] = some (.text kind) ∧
    part? binding ["roleRef", "kind"] = some (.text kind)
  reference_group : ∃ group, part? binding ["roleRef", "apiGroup"] = some (.text group) ∧
    part? role ["apiVersion"] = some (.text (group ++ "/v1"))

theorem BelongTogether.names_eq {labels otherLabels : Entries} {names others : ResourceNames}
    {role binding : Value} (left : BelongTogether labels names role binding)
    (right : BelongTogether otherLabels others role binding) : names = others := by
  have role_eq := left.role_name.symm.trans right.role_name
  have binding_eq := left.binding_name.symm.trans right.binding_name
  have namespace_eq := left.namespaces_eq.symm.trans right.namespaces_eq
  cases names
  cases others
  simp_all

/-! ## Parts of the manifests of a run -/

section Parts

variable {name : Value} {labels : Entries} {options : Options} {rules : List Rule}

theorem field?_metadata_labels : field? "labels" (metadata name labels) = labelsPart labels := by
  cases labels <;> cases name <;> rfl

theorem field?_metadata_name {text : String} :
    field? "name" (metadata (.text text) labels) = some (.text text) := by
  cases labels <;> rfl

theorem part?_role_metadata (rest : List String) :
    part? (fields (options.roleFields rules)) ("metadata" :: rest) =
      part? (metadata (options.role rules).name options.labels) rest := rfl

theorem part?_binding_metadata (rest : List String) :
    part? (fields options.bindingFields) ("metadata" :: rest) =
      part? (metadata options.binding.name options.labels) rest := rfl

theorem part?_rules :
    part? (fields (options.roleFields rules)) ["rules"] = some (.list (rules.map ofRule)) := rfl

theorem belongTogether_fields :
    BelongTogether options.labels (ResourceNames.derived options.name)
      (fields (options.roleFields rules)) (fields options.bindingFields) where
  role_labels := by
    rw [part?_role_metadata, part?_singleton, field?_metadata_labels]
  binding_labels := by
    rw [part?_binding_metadata, part?_singleton, field?_metadata_labels]
  role_name := by
    rw [part?_role_metadata, part?_singleton]
    exact field?_metadata_name
  binding_name := by
    rw [part?_binding_metadata, part?_singleton]
    exact field?_metadata_name
  namespaces_eq := rfl
  reference_name := rfl
  reference_kind := ⟨ResourceKind.clusterRole.name, rfl, rfl⟩
  reference_group := ⟨apiGroup, rfl, rfl⟩

end Parts

end Manifest

/-! ## Manifests that are written -/

variable {source : String → Logged (List Rule)} {tree : FileTree} {options : Options}
  {rules : List Rule} {role binding : Value} {generated : Generated}

theorem exists_writesManifests
    (succeeded : (generateFrom source tree options).2.outcome = .ok generated)
    (nonempty : 0 < generated.ruleCount) :
    ∃ rules role binding, WritesManifests source tree options rules role binding ∧
      generated.ruleCount = (Rule.aggregate rules).length := by
  rw [outcome_generateFrom, Except.bind_eq_ok_iff] at succeeded
  rcases succeeded with ⟨plan, made, committed⟩
  rw [Except.map_eq_ok_iff] at committed
  rcases committed with ⟨_, written, rfl⟩
  rcases Plan.eq_of_make made with ⟨checked, rules, found, plan_eq⟩
  rcases plan_eq with ⟨_, rfl⟩ | ⟨_, roleBytes, bindingBytes, ⟨role, role_built, role_rendered⟩,
    ⟨binding, binding_built, binding_rendered⟩, rfl⟩
  · cases nonempty
  · have after_eq : (generateFrom source tree options).1 = (Plan.commit tree
        (Plan.ofManifests options rules roleBytes bindingBytes).files).1 := by
      simp only [generateFrom, made]
    rcases Resource.exists_document_of_render role_rendered with
      ⟨roleManifest, roleText, role_eq, roleText_eq, rfl⟩
    rcases Resource.exists_document_of_render binding_rendered with
      ⟨bindingManifest, bindingText, binding_eq, bindingText_eq, rfl⟩
    refine ⟨rules, roleManifest, bindingManifest, ?_, rfl⟩
    refine ⟨checked, found, ⟨role, role_built, role_eq⟩, ⟨binding, binding_built, binding_eq⟩,
      roleText, bindingText, roleText_eq, bindingText_eq, ?_⟩
    rw [after_eq]
    apply Plan.writesAll_of_commit (options.hasDirectory_of_check checked) _ written
    simp [Plan.ofManifests]

namespace WritesManifests

theorem manifests_eq (writes : WritesManifests source tree options rules role binding) :
    role = fields (options.roleFields (Rule.aggregate rules)) ∧
      binding = fields options.bindingFields := by
  have texts : ∀ label ∈ options.labels, IsTextLabel label :=
    options.isTextLabel_of_check writes.checked
  rcases writes.role_made with ⟨builtRole, role_built, role_eq⟩
  rcases writes.binding_made with ⟨builtBinding, binding_built, binding_eq⟩
  rcases Role.build_eq_ok_iff.mp role_built with ⟨_, rfl⟩
  rcases RoleBinding.build_eq_ok_iff.mp binding_built with ⟨_, rfl⟩
  constructor
  · exact Except.ok.inj (role_eq.symm.trans (options.manifest_role _ texts))
  · exact Except.ok.inj (binding_eq.symm.trans (options.manifest_binding texts))

theorem belongTogether (writes : WritesManifests source tree options rules role binding) :
    BelongTogether options.labels (ResourceNames.derived options.name) role binding := by
  rcases writes.manifests_eq with ⟨rfl, rfl⟩
  exact belongTogether_fields

end WritesManifests

/-- The manifests that a run writes have as many rules as the scanned rules have targets, they
belong together, and their names are those of the manifests of another run exactly when both runs
have the same name. Whatever the names of the runs are, no role is named like a binding. -/
theorem generateFrom_belongTogether (source : String → Logged (List Rule)) (tree : FileTree)
    (options : Options) (generated : Generated)
    (succeeded : (generateFrom source tree options).2.outcome = .ok generated)
    (nonempty : 0 < generated.ruleCount) :
    ∃ rules role binding names,
      WritesManifests source tree options rules role binding ∧
      generated.ruleCount = (rules.map fun rule => rule.target.canonical).toFinset.card ∧
      (∃ items, part? role ["rules"] = some (.list items) ∧
        items.length = generated.ruleCount) ∧
      BelongTogether options.labels names role binding ∧
      ∀ otherSource otherTree otherOptions otherRules otherRole otherBinding others,
        WritesManifests otherSource otherTree otherOptions otherRules otherRole otherBinding →
        BelongTogether otherOptions.labels others otherRole otherBinding →
          (names.role = others.role ↔ options.name = otherOptions.name) ∧
          (names.binding = others.binding ↔ options.name = otherOptions.name) ∧
          (names.namespaceName = others.namespaceName ↔ options.name = otherOptions.name) ∧
          names.role ≠ others.binding := by
  rcases exists_writesManifests succeeded nonempty with ⟨rules, role, binding, writes, count_eq⟩
  refine ⟨rules, role, binding, ResourceNames.derived options.name, writes, ?_, ?_,
    writes.belongTogether, ?_⟩
  · rw [count_eq, Rule.length_aggregate]
  · rcases writes.manifests_eq with ⟨rfl, _⟩
    exact ⟨_, part?_rules, by rw [List.length_map, count_eq]⟩
  · intro _ _ otherOptions _ _ _ others other_writes other_belong
    have others_eq : others = ResourceNames.derived otherOptions.name :=
      other_belong.names_eq other_writes.belongTogether
    rw [others_eq]
    exact ⟨ResourceNames.role_derived_eq_iff, ResourceNames.binding_derived_eq_iff,
      ResourceNames.namespaceName_derived_eq_iff, ResourceNames.role_derived_ne_binding_derived⟩

/-- A run on a tree with one source, for manifests with a label. -/
def labelledRun : Options where
  outputDirectory := "./pkg"
  labels := [(.text "tier", .text "backend")]

theorem generateFrom_belongTogether_labelledRun :
    ∃ generated, (generate plainTree labelledRun).2.outcome = .ok generated ∧
      0 < generated.ruleCount ∧
      ∃ rules role binding names,
        WritesManifests (Source.scan Source.usualEndings plainTree) plainTree labelledRun rules role
          binding ∧
        generated.ruleCount = (rules.map fun rule => rule.target.canonical).toFinset.card ∧
        (∃ items, part? role ["rules"] = some (.list items) ∧
          items.length = generated.ruleCount) ∧
        BelongTogether labelledRun.labels names role binding ∧
        ∀ otherSource otherTree otherOptions otherRules otherRole otherBinding others,
          WritesManifests otherSource otherTree otherOptions otherRules otherRole otherBinding →
          BelongTogether otherOptions.labels others otherRole otherBinding →
            (names.role = others.role ↔ labelledRun.name = otherOptions.name) ∧
            (names.binding = others.binding ↔ labelledRun.name = otherOptions.name) ∧
            (names.namespaceName = others.namespaceName ↔
              labelledRun.name = otherOptions.name) ∧
            names.role ≠ others.binding := by
  have counted :
      (generate plainTree labelledRun).2.outcome.toOption.map (·.ruleCount) = some 1 := by
    decide +kernel
  cases outcome : (generate plainTree labelledRun).2.outcome with
  | error failure => simp [outcome, Except.toOption] at counted
  | ok generated =>
      have count_eq : generated.ruleCount = 1 := by
        simpa [outcome, Except.toOption] using counted
      have nonempty : 0 < generated.ruleCount := by
        rw [count_eq]
        exact Nat.one_pos
      rw [generate] at outcome
      exact ⟨generated, rfl, nonempty,
        generateFrom_belongTogether (Source.scan Source.usualEndings plainTree) plainTree
          labelledRun generated outcome nonempty⟩

end RbacManifest
