import Mathlib.Data.List.Nodup
import RbacManifest.Manifest
import RbacManifest.Proofs.Text.Utf8
import RbacManifest.Proofs.Yaml.Read
import RbacManifest.Text.Line

/-!
# Reading manifests

The manifest of a resource of texts is read back from the bytes that are rendered for the resource:
`Resource.load_render`. The exceptions are texts with a line end that readers change and keys of
labels that are too long to stand in front of a colon and too short to stand elsewhere.
-/

namespace RbacManifest

theorem Text.unifyLineEnds_of_forall {text : List Char} (noReturn : ∀ c ∈ text, c ≠ '\r') :
    unifyLineEnds text = text := by
  induction text with
  | nil => rfl
  | cons c rest ih =>
      rw [List.forall_mem_cons] at noReturn
      rw [unifyLineEnds, if_neg noReturn.1, ih noReturn.2]
      rintro _ rfl
      exact absurd rfl noReturn.1

namespace Manifest

open Yaml Yaml.Node

/-! ## Data -/

theorem dataAll_of_forall {items : List Value} (kept : ∀ item ∈ items, data item = .ok item) :
    dataAll items = .ok items := by
  induction items with
  | nil => rfl
  | cons item rest ih =>
      rw [List.forall_mem_cons] at kept
      rw [dataAll, kept.1, ih kept.2]
      rfl

theorem dataEntries_of_forall {entries : Entries}
    (kept : ∀ entry ∈ entries, data entry.2 = .ok entry.2) : dataEntries entries = .ok entries := by
  induction entries with
  | nil => rfl
  | cons entry rest ih =>
      rw [List.forall_mem_cons] at kept
      rw [dataEntries, kept.1, ih kept.2]
      rfl

variable {isText isKey : String → Prop} {indent : Nat}

/-- A value of texts, lists and mappings stands in a manifest as it is. -/
theorem data_of_isMadeOf {value : Value} (made : value.IsMadeOf isText isKey indent) :
    data value = .ok value := by
  induction made with
  | text allowed inside => rfl
  | list _ ih =>
      rw [data, dataAll_of_forall ih]
      rfl
  | mapping _ _ _ _ ih =>
      rw [data, dataEntries_of_forall ih]
      rfl

/-! ## Parts of manifests -/

/-- Whether the reader of documents keeps all characters of a text. -/
def HasNoNextLine (text : String) : Prop :=
  '\u0085' ∉ text.toList

instance (text : String) : Decidable (HasNoNextLine text) :=
  inferInstanceAs (Decidable ('\u0085' ∉ text.toList))

/-- Whether a value is a text that the reader of documents keeps. -/
def IsReadableText (value : Value) : Prop :=
  ∃ text, value = .text text ∧ HasNoNextLine text

/-- Whether labels are texts that the reader of documents keeps, under keys that are neither too
long to stand in front of a colon nor too short to stand elsewhere. -/
structure AreReadableLabels (labels : Entries) : Prop where
  distinct : (labels.map (·.1)).Nodup
  keys : ∀ entry ∈ labels, ∃ key, entry.1 = .text key ∧ HasNoNextLine key ∧
    (key.length < 103 ∨ 127 < key.length)
  values : ∀ entry ∈ labels, IsReadableText entry.2

/-- The texts of a rule. -/
def ruleTexts (rule : Rule) : List String :=
  rule.target.apiGroups ++ rule.target.resources ++ rule.target.resourceNames ++ rule.target.urls ++
    rule.verbs

instance (text : List Char) : Decidable (IsSafeKey text) :=
  inferInstanceAs (Decidable (_ ∧ _))

/-- The names of the fields of manifests. -/
def fieldNames : List String :=
  ["apiGroup", "apiGroups", "apiVersion", "kind", "labels", "metadata", "name", "namespace",
    "nonResourceURLs", "resourceNames", "resources", "roleRef", "rules", "subjects", "verbs"]

/-- The fields of the manifest of a kind with the given content. -/
def contentFields (kind : ResourceKind) (content : List (String × Value)) :
    List (String × Value) :=
  [("apiVersion", .text apiVersion), ("kind", .text kind.name)] ++ content

/-- The content of the manifest of a role with labels. -/
def roleContent (role : Role) (labels : Entries) : List (String × Value) :=
  [("metadata", metadata role.name labels), ("rules", .list (role.rules.map ofRule))]

/-- The content of the manifest of a binding with labels. -/
def bindingContent (binding : RoleBinding) (labels : Entries) : List (String × Value) :=
  [("metadata", metadata binding.name labels),
    ("roleRef", fields [("apiGroup", .text apiGroup), ("kind", binding.roleKind),
      ("name", binding.roleName)]),
    ("subjects", .list [fields [("kind", binding.subjectKind), ("name", binding.subjectName),
      ("namespace", binding.subjectNamespace)]])]

/-- Whether the names and the kinds in a binding are texts of a kind. -/
structure HasTexts (isText : String → Prop) (binding : RoleBinding) : Prop where
  name : ∃ text, binding.name = .text text ∧ isText text
  subjectName : ∃ text, binding.subjectName = .text text ∧ isText text
  subjectNamespace : ∃ text, binding.subjectNamespace = .text text ∧ isText text
  roleName : ∃ text, binding.roleName = .text text ∧ isText text
  subjectKind : ∃ text, binding.subjectKind = .text text ∧ isText text
  roleKind : ∃ text, binding.roleKind = .text text ∧ isText text

/-- Whether labels are texts of a kind under different texts of a kind. -/
structure AreLabelsOf (isText isKey : String → Prop) (labels : Entries) : Prop where
  distinct : (labels.map (·.1)).Nodup
  keys : ∀ entry ∈ labels, ∃ key, entry.1 = .text key ∧ isKey key
  values : ∀ entry ∈ labels, ∃ text, entry.2 = .text text ∧ isText text

theorem isMadeOf_text {value : Value} (allowed : ∃ text, value = .text text ∧ isText text)
    (inside : indent + indentation < Folded.width) : value.IsMadeOf isText isKey indent := by
  rcases allowed with ⟨text, rfl, allowed⟩
  exact .text allowed inside

theorem isMadeOf_texts {values : List String} (allowed : ∀ value ∈ values, isText value)
    (inside : indent + indentation + indentation < Folded.width) :
    (texts values).IsMadeOf isText isKey indent := by
  refine .list ?_
  rw [List.forall_mem_map]
  exact fun value isMember => .text (allowed value isMember) inside

theorem isMadeOf_textsIfAny {values : List String} (allowed : ∀ value ∈ values, isText value)
    (inside : indent + indentation + indentation < Folded.width) :
    textsIfAny values = .null ∨ (textsIfAny values).IsMadeOf isText isKey indent := by
  rw [textsIfAny]
  split
  · exact Or.inl rfl
  · exact Or.inr (isMadeOf_texts allowed inside)

section Fields

variable (keys : ∀ name ∈ fieldNames, isKey name)
include keys

/-- A mapping of the fields that have a value is made of texts if all of these values are. -/
theorem isMadeOf_fields {pairs : List (String × Value)} (names : List String)
    (inside : indent + indentation + indentation < Folded.width)
    (names_eq : pairs.map (·.1) = names) (distinct : names.Nodup)
    (known : ∀ name ∈ names, name ∈ fieldNames)
    (made : ∀ pair ∈ pairs, pair.2 = .null ∨
      pair.2.IsMadeOf isText isKey (indent + indentation)) :
    (fields pairs).IsMadeOf isText isKey indent := by
  subst names_eq
  refine .mapping inside ?_ ?_ ?_
  · have pairwise : pairs.Pairwise fun left right => left.1 ≠ right.1 :=
      List.pairwise_map.mp distinct
    rw [List.map_map, List.Nodup, List.pairwise_map]
    refine (pairwise.filter _).imp ?_
    intro left right differ same
    exact differ (Value.text.inj same)
  · rw [List.forall_mem_map]
    intro pair isMember
    have name_mem : pair.1 ∈ pairs.map (·.1) :=
      List.mem_map_of_mem (List.mem_of_mem_filter isMember)
    exact ⟨pair.1, rfl, keys pair.1 (known pair.1 name_mem)⟩
  · rw [List.forall_mem_map]
    intro pair isMember
    rcases made pair (List.mem_of_mem_filter isMember) with isNull | pair_made
    · have given := List.of_mem_filter isMember
      simp [isNull] at given
    · exact pair_made

theorem isMadeOf_ofRule {rule : Rule} (allowed : ∀ text ∈ ruleTexts rule, isText text) :
    (ofRule rule).IsMadeOf isText isKey 4 := by
  simp only [ruleTexts, List.forall_mem_append] at allowed
  rcases allowed with ⟨⟨⟨⟨apiGroups, resources⟩, resourceNames⟩, urls⟩, verbs⟩
  refine isMadeOf_fields keys
    ["apiGroups", "resources", "resourceNames", "nonResourceURLs", "verbs"] (by decide) rfl
    (by decide) (by decide) ?_
  simp only [List.forall_mem_cons]
  exact ⟨isMadeOf_textsIfAny apiGroups (by decide), isMadeOf_textsIfAny resources (by decide),
    isMadeOf_textsIfAny resourceNames (by decide), isMadeOf_textsIfAny urls (by decide),
    Or.inr (isMadeOf_texts verbs (by decide)), by simp⟩

theorem isMadeOf_metadata {name : Value} {labels : Entries}
    (name_allowed : ∃ text, name = .text text ∧ isText text)
    (labels_allowed : AreLabelsOf isText isKey labels) :
    (metadata name labels).IsMadeOf isText isKey 2 := by
  have labels_made : (Value.mapping labels).IsMadeOf isText isKey 4 :=
    .mapping (by decide) labels_allowed.distinct labels_allowed.keys fun entry isMember =>
      isMadeOf_text (labels_allowed.values entry isMember) (by decide)
  refine isMadeOf_fields keys ["labels", "name"] (by decide) rfl (by decide) (by decide) ?_
  simp only [List.forall_mem_cons]
  refine ⟨?_, Or.inr (isMadeOf_text name_allowed (by decide)), by simp⟩
  split
  · exact Or.inl rfl
  · exact Or.inr labels_made

theorem isMadeOf_contentFields {kind : ResourceKind} {content : List (String × Value)}
    (names : List String) (names_eq : content.map (·.1) = names)
    (distinct : ("apiVersion" :: "kind" :: names).Nodup)
    (known : ∀ name ∈ names, name ∈ fieldNames) (version : isText apiVersion)
    (kindName : isText kind.name)
    (made : ∀ pair ∈ content, pair.2 = .null ∨ pair.2.IsMadeOf isText isKey 2) :
    (fields (contentFields kind content)).IsMadeOf isText isKey 0 := by
  refine isMadeOf_fields keys ("apiVersion" :: "kind" :: names) (by decide) ?_ distinct ?_ ?_
  · simp [contentFields, names_eq]
  · simp only [List.forall_mem_cons]
    exact ⟨by decide, by decide, known⟩
  · simp only [contentFields, List.cons_append, List.nil_append, List.forall_mem_cons]
    exact ⟨Or.inr (.text version (by decide)), Or.inr (.text kindName (by decide)), made⟩

end Fields

theorem ofContent_eq {kind : ResourceKind} {content : List (String × Value)}
    (made : (fields (contentFields kind content)).IsMadeOf isText isKey indent) :
    ofContent kind content = .ok (fields (contentFields kind content)) :=
  data_of_isMadeOf made

theorem isMadeOf_role {role : Role} {labels : Entries} (keys : ∀ name ∈ fieldNames, isKey name)
    (version : isText apiVersion) (kindName : isText ResourceKind.clusterRole.name)
    (name_allowed : ∃ text, role.name = .text text ∧ isText text)
    (labels_allowed : AreLabelsOf isText isKey labels)
    (rules_allowed : ∀ rule ∈ role.rules, ∀ text ∈ ruleTexts rule, isText text) :
    (fields (contentFields .clusterRole (roleContent role labels))).IsMadeOf isText isKey 0 := by
  refine isMadeOf_contentFields keys ["metadata", "rules"] rfl (by decide) (by decide) version
    kindName ?_
  simp only [roleContent, List.forall_mem_cons]
  refine ⟨Or.inr (isMadeOf_metadata keys name_allowed labels_allowed), Or.inr (.list ?_), by simp⟩
  rw [List.forall_mem_map]
  exact fun rule isMember => isMadeOf_ofRule keys (rules_allowed rule isMember)

theorem ofRole_eq {role : Role} {labels : Entries} (labels_eq : role.labels = .mapping labels)
    (made : (fields (contentFields .clusterRole (roleContent role labels))).IsMadeOf isText isKey
      indent) :
    ofRole role = .ok (fields (contentFields .clusterRole (roleContent role labels))) := by
  rw [ofRole, labels_eq]
  exact ofContent_eq made

theorem isMadeOf_binding {binding : RoleBinding} {labels : Entries}
    (keys : ∀ name ∈ fieldNames, isKey name) (version : isText apiVersion)
    (kindName : isText ResourceKind.clusterRoleBinding.name) (group : isText apiGroup)
    (texts : HasTexts isText binding) (labels_allowed : AreLabelsOf isText isKey labels) :
    (fields (contentFields .clusterRoleBinding (bindingContent binding labels))).IsMadeOf isText
      isKey 0 := by
  have given {indent : Nat} {value : Value} (allowed : ∃ text, value = .text text ∧ isText text)
      (inside : indent + indentation < Folded.width) :
      value = .null ∨ value.IsMadeOf isText isKey indent :=
    Or.inr (isMadeOf_text allowed inside)
  have roleRef_made : (fields [("apiGroup", .text apiGroup), ("kind", binding.roleKind),
      ("name", binding.roleName)]).IsMadeOf isText isKey 2 := by
    refine isMadeOf_fields keys ["apiGroup", "kind", "name"] (by decide) rfl (by decide)
      (by decide) ?_
    simp only [List.forall_mem_cons]
    exact ⟨Or.inr (.text group (by decide)), given texts.roleKind (by decide),
      given texts.roleName (by decide), by simp⟩
  have subject_made : (fields [("kind", binding.subjectKind), ("name", binding.subjectName),
      ("namespace", binding.subjectNamespace)]).IsMadeOf isText isKey 4 := by
    refine isMadeOf_fields keys ["kind", "name", "namespace"] (by decide) rfl (by decide)
      (by decide) ?_
    simp only [List.forall_mem_cons]
    exact ⟨given texts.subjectKind (by decide), given texts.subjectName (by decide),
      given texts.subjectNamespace (by decide), by simp⟩
  refine isMadeOf_contentFields keys ["metadata", "roleRef", "subjects"] rfl (by decide)
    (by decide) version kindName ?_
  simp only [bindingContent, List.forall_mem_cons]
  refine ⟨Or.inr (isMadeOf_metadata keys texts.name labels_allowed), Or.inr roleRef_made,
    Or.inr (.list ?_), by simp⟩
  rw [List.forall_mem_singleton]
  exact subject_made

theorem required_of_text {value : Value} (field : String)
    (allowed : ∃ text, value = .text text ∧ isText text) : required field value = .ok value := by
  rcases allowed with ⟨text, rfl, _⟩
  rfl

theorem ofBinding_eq {binding : RoleBinding} {labels : Entries} (texts : HasTexts isText binding)
    (labels_eq : binding.labels = .mapping labels) (made : (fields
      (contentFields .clusterRoleBinding (bindingContent binding labels))).IsMadeOf isText isKey
        indent) :
    ofBinding binding =
      .ok (fields (contentFields .clusterRoleBinding (bindingContent binding labels))) := by
  rw [ofBinding, labels_eq, required_of_text "kind" texts.roleKind,
    required_of_text "name" texts.roleName, required_of_text "kind" texts.subjectKind,
    required_of_text "name" texts.subjectName]
  exact ofContent_eq made

end Manifest

open Manifest

/-- Whether the manifest of a role is read back. -/
structure Role.IsReadable (role : Role) : Prop where
  name : IsReadableText role.name
  labels : ∃ labels, role.labels = .mapping labels ∧ AreReadableLabels labels
  rules : ∀ rule ∈ role.rules, ∀ text ∈ ruleTexts rule, HasNoNextLine text

/-- Whether the manifest of a binding is read back. -/
structure RoleBinding.IsReadable (binding : RoleBinding) : Prop where
  name : IsReadableText binding.name
  labels : ∃ labels, binding.labels = .mapping labels ∧ AreReadableLabels labels
  subjectName : IsReadableText binding.subjectName
  subjectNamespace : IsReadableText binding.subjectNamespace
  roleName : IsReadableText binding.roleName
  subjectKind : IsReadableText binding.subjectKind
  roleKind : IsReadableText binding.roleKind

/-- Whether the manifest of a resource is read back. -/
def Resource.IsReadable : Resource → Prop
  | .ofRole role => role.IsReadable
  | .ofBinding binding => binding.IsReadable
  | .other _ => False

namespace Manifest

open Yaml Yaml.Node

theorem isSafeKey_of_mem_fieldNames : ∀ name ∈ fieldNames, IsSafeKey name.toList := by
  decide

theorem areLabelsOf_of_areReadableLabels {labels : Entries} (readable : AreReadableLabels labels) :
    AreLabelsOf HasNoNextLine (fun key => IsSafeKey key.toList) labels := by
  refine ⟨readable.distinct, ?_, readable.values⟩
  intro entry isMember
  rcases readable.keys entry isMember with ⟨key, key_eq, noNextLine, lengths⟩
  refine ⟨key, key_eq, noNextLine, ?_⟩
  have length_eq : key.toList.length = key.length := String.length_toList
  have tagLength_eq : tagLength .text = 5 := rfl
  rw [longKey]
  omega

theorem exists_ofRole {role : Role} (readable : role.IsReadable) :
    ∃ entry entries, ofRole role = .ok (.mapping (entry :: entries)) ∧
      (Value.mapping (entry :: entries)).IsReadable 0 := by
  rcases readable.labels with ⟨labels, labels_eq, labels_readable⟩
  have made : (fields (contentFields .clusterRole (roleContent role labels))).IsMadeOf
      HasNoNextLine (fun key => IsSafeKey key.toList) 0 :=
    isMadeOf_role isSafeKey_of_mem_fieldNames (by decide) (by decide) readable.name
      (areLabelsOf_of_areReadableLabels labels_readable) readable.rules
  exact ⟨_, _, ofRole_eq labels_eq made, .of_isMadeOf made⟩

theorem exists_ofBinding {binding : RoleBinding} (readable : binding.IsReadable) :
    ∃ entry entries, ofBinding binding = .ok (.mapping (entry :: entries)) ∧
      (Value.mapping (entry :: entries)).IsReadable 0 := by
  rcases readable.labels with ⟨labels, labels_eq, labels_readable⟩
  have texts : HasTexts HasNoNextLine binding :=
    ⟨readable.name, readable.subjectName, readable.subjectNamespace, readable.roleName,
      readable.subjectKind, readable.roleKind⟩
  have made : (fields (contentFields .clusterRoleBinding (bindingContent binding labels))).IsMadeOf
      HasNoNextLine (fun key => IsSafeKey key.toList) 0 :=
    isMadeOf_binding isSafeKey_of_mem_fieldNames (by decide) (by decide) (by decide) texts
      (areLabelsOf_of_areReadableLabels labels_readable)
  exact ⟨_, _, ofBinding_eq texts labels_eq made, .of_isMadeOf made⟩

end Manifest

namespace Resource

theorem exists_manifest {resource : Resource} (readable : resource.IsReadable) :
    ∃ entry entries, resource.manifest = .ok (.mapping (entry :: entries)) ∧
      (Value.mapping (entry :: entries)).IsReadable 0 := by
  cases resource with
  | ofRole role =>
      rcases exists_ofRole readable with ⟨entry, entries, manifest_eq, manifest_readable⟩
      refine ⟨entry, entries, ?_, manifest_readable⟩
      rw [manifest, manifest_eq]
      rfl
  | ofBinding binding =>
      rcases exists_ofBinding readable with ⟨entry, entries, manifest_eq, manifest_readable⟩
      refine ⟨entry, entries, ?_, manifest_readable⟩
      rw [manifest, manifest_eq]
      rfl
  | other value => exact absurd readable (by simp [IsReadable])

/-- The bytes that are rendered for a resource are read as its manifest, but for the order of the
entries of mappings. -/
theorem load_render (resource : Resource) (readable : resource.IsReadable) :
    ∃ manifest bytes text found, resource.manifest = .ok manifest ∧
      resource.render.outcome = .ok bytes ∧ Text.decode bytes = .ok text ∧
      Text.unifyLineEnds text = text ∧ Yaml.load text = .ok found ∧ manifest.Alike found := by
  rcases exists_manifest readable with ⟨entry, entries, manifest_eq, manifest_readable⟩
  rcases manifest_readable.load_document with ⟨nodes, found, node_eq, lasting, found_eq, alike⟩
  have document_eq : resource.document = .ok (Yaml.Node.writeDocument nodes) := by
    rw [document, manifest_eq]
    simp only [bind, Except.bind, Manifest.document, node_eq]
    rfl
  have render_eq : resource.render.outcome = .ok (Text.encode (Yaml.Node.writeDocument nodes)) := by
    rw [render, Logged.outcome_bind, Logged.outcome_of, document_eq]
    rfl
  exact ⟨_, _, _, found, manifest_eq, render_eq, Text.decode_encode _,
    Text.unifyLineEnds_of_forall fun c isMember => (lasting c isMember).2, found_eq, alike⟩

end Resource

/-- A role of texts that look like other values or like parts of the layout. -/
def Role.misleading : Role where
  name := .text "yes"
  labels := .mapping [(.text "1:30", .text "~"), (.text "", .text " - a\n# b ")]
  rules := [{ target := { apiGroups := [""], resources := ["0x1F"] }, verbs := ["*"] }]

theorem Resource.load_render_misleading :
    (ofRole .misleading).IsReadable ∧ ∃ manifest bytes text found,
      (ofRole .misleading).manifest = .ok manifest ∧
      (ofRole .misleading).render.outcome = .ok bytes ∧ Text.decode bytes = .ok text ∧
      Text.unifyLineEnds text = text ∧ Yaml.load text = .ok found ∧ manifest.Alike found := by
  have labels_readable : AreReadableLabels
      [(.text "1:30", .text "~"), (.text "", .text " - a\n# b ")] := by
    refine ⟨by simp, ?_, ?_⟩
    · simp only [List.forall_mem_cons]
      exact ⟨⟨_, rfl, by decide, by decide⟩, ⟨_, rfl, by decide, by decide⟩, by simp⟩
    · simp only [List.forall_mem_cons]
      exact ⟨⟨_, rfl, by decide⟩, ⟨_, rfl, by decide⟩, by simp⟩
  have readable : (ofRole .misleading).IsReadable :=
    ⟨⟨_, rfl, by decide⟩, ⟨_, rfl, labels_readable⟩, by decide⟩
  exact ⟨readable, load_render (ofRole .misleading) readable⟩

end RbacManifest
