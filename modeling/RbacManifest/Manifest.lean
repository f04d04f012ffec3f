import RbacManifest.Logged
import RbacManifest.Resource
import RbacManifest.Text.Utf8
import RbacManifest.Yaml.Layout
import RbacManifest.Yaml.Written

/-!
# Manifests

A manifest is a resource as a mapping, in the form that the interface of a cluster expects. Fields
without a value are left out. `Resource.manifest` expresses a resource as a manifest and
`Resource.render` writes it as a document; equal manifests are written alike.
-/

namespace RbacManifest

namespace Manifest

/-- The group of the interface that roles belong to. -/
def apiGroup : String := "rbac.authorization.k8s.io"

/-- The version of the interface that manifests are written for. -/
def apiVersion : String := apiGroup ++ "/v1"

/-- The members of a value that is a collection. -/
def members? : Value → Option (List Value)
  | .list items => some items
  | .tuple items => some items
  | .set members => some members
  | .mapping entries => some (entries.map (·.1))
  | .text value => some (value.toList.map fun c => .text (String.singleton c))
  | .kind value => some (value.name.toList.map fun c => .text (String.singleton c))
  | .bytes value => some (value.map fun b => .int b.toNat)
  | _ => none

/-- The labels that a row of pairs states, behind labels already known. `index` is the place of the
first pair. -/
def ofPairs (index : Nat) (labels : Entries) : List Value → Except Fault Entries
  | [] => .ok labels
  | member :: rest =>
      match members? member with
      | none => .error (.memberNoCollection index)
      | some [key, value] =>
          if key.isKey then ofPairs (index + 1) (labels.put key value) rest
          else .error (.noKey key.typeName)
      | some parts => .error (.memberLength index parts.length)

/-- Labels as a mapping. -/
def labels (value : Value) : Except Fault Entries :=
  match value with
  | .mapping entries => .ok entries
  | value =>
      match members? value with
      | some members => ofPairs 0 [] members
      | none => .error (.noCollection value.typeName)

mutual

/-- A value as it stands in a manifest: dates and times are texts there. -/
def data : Value → Except Fault Value
  | .date value => .ok (.text value.text)
  | .time value => .ok (.text (value.text "T"))
  | .list items => (dataAll items).map .list
  | .tuple items => (dataAll items).map .tuple
  | .mapping entries => (dataEntries entries).map .mapping
  | .object => .error (.noData Value.object.typeName)
  | .set members => .error (.noData (Value.set members).typeName)
  | .enclosing holder => .error (.noData (Value.enclosing holder).typeName)
  | value => .ok value

/-- The members of a list as they stand in a manifest. -/
def dataAll : List Value → Except Fault (List Value)
  | [] => .ok []
  | value :: rest => do
      let value ← data value
      return value :: (← dataAll rest)

/-- The entries of a mapping as they stand in a manifest. -/
def dataEntries : List (Value × Value) → Except Fault (List (Value × Value))
  | [] => .ok []
  | (key, value) :: rest => do
      let value ← data value
      return (key, value) :: (← dataEntries rest)

end

/-- A mapping of the fields that have a value. -/
def fields (pairs : List (String × Value)) : Value :=
  .mapping ((pairs.filter fun (_, value) => !(value matches .null)).map fun (name, value) =>
    (.text name, value))

/-- A list of texts as a value. -/
def texts (values : List String) : Value :=
  .list (values.map .text)

/-- A list of texts as a value that is missing if the list is empty. -/
def textsIfAny (values : List String) : Value :=
  if values.isEmpty then .null else texts values

/-- A rule in a manifest. -/
def ofRule (rule : Rule) : Value :=
  fields [
    ("apiGroups", textsIfAny rule.target.apiGroups),
    ("resources", textsIfAny rule.target.resources),
    ("resourceNames", textsIfAny rule.target.resourceNames),
    ("nonResourceURLs", textsIfAny rule.target.urls),
    ("verbs", texts rule.verbs)]

/-- The part of a manifest that names and labels the resource. -/
def metadata (name : Value) (labels : Entries) : Value :=
  fields [("labels", if labels.isEmpty then .null else .mapping labels), ("name", name)]

/-- The value of a field that must have one. -/
def required (field : String) : Value → Except Fault Value
  | .null => .error (.required field)
  | value => .ok value

/-- The manifest of a kind with the given content. -/
def ofContent (kind : ResourceKind) (content : List (String × Value)) : Except Fault Value :=
  data (fields ([("apiVersion", .text apiVersion), ("kind", .text kind.name)] ++ content))

def ofRole (role : Role) : Except Fault Value := do
  let labels ← labels role.labels
  ofContent .clusterRole [
    ("metadata", metadata role.name labels),
    ("rules", .list (role.rules.map ofRule))]

def ofBinding (binding : RoleBinding) : Except Fault Value := do
  let labels ← labels binding.labels
  let roleKind ← required "kind" binding.roleKind
  let roleName ← required "name" binding.roleName
  let subjectKind ← required "kind" binding.subjectKind
  let subjectName ← required "name" binding.subjectName
  ofContent .clusterRoleBinding [
    ("metadata", metadata binding.name labels),
    ("roleRef",
      fields [("apiGroup", .text apiGroup), ("kind", roleKind), ("name", roleName)]),
    ("subjects",
      .list [fields [
        ("kind", subjectKind),
        ("name", subjectName),
        ("namespace", binding.subjectNamespace)]])]

/-- The document that a manifest is written as. -/
def document (manifest : Value) : Except Fault (List Char) :=
  match Yaml.Node.ofValue manifest with
  | .ok (.mapping _ entries) => .ok (Yaml.Node.writeDocument entries)
  | .ok _ => .ok []
  | .error value => .error (.unwritable value)

end Manifest

namespace Resource

def manifest : Resource → Except Failure Value
  | .ofRole role => (Manifest.ofRole role).mapError (.manifest "Role" role.name)
  | .ofBinding binding =>
      (Manifest.ofBinding binding).mapError (.manifest "RoleBinding" binding.name)
  | .other value => .error (.noResource value.typeName)

/-- The kind of the manifest of a resource and the name of the resource. -/
def kindAndName : Resource → ResourceKind × Value
  | .ofRole role => (.clusterRole, role.name)
  | .ofBinding binding => (.clusterRoleBinding, binding.name)
  | .other _ => (.clusterRole, .null)

/-- The document that the manifest of a resource is written as. -/
def document (resource : Resource) : Except Failure (List Char) := do
  let manifest ← resource.manifest
  let (kind, name) := resource.kindAndName
  (Manifest.document manifest).mapError (.manifest kind.name name)

/-- The bytes of the document of a resource. -/
def render (resource : Resource) : Logged (List UInt8) := do
  let text ← Logged.of resource.document
  let bytes := Text.encode text
  let (kind, name) := resource.kindAndName
  Logged.record .debug s!"Rendered {kind.name} '{name.display}' ({bytes.length} bytes)"
  return bytes

end Resource

end RbacManifest
