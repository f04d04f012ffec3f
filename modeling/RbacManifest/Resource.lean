import RbacManifest.Options
import RbacManifest.Rule

/-!
# Resources

A run generates two resources: a role that carries the rules, and a binding that grants the role
to the default account of a namespace. Their names are derived from the name among the options.
Other resources can be made directly, and then their fields may be values of any type.
-/

namespace RbacManifest

/-- The names that are derived from the name of a run. -/
structure ResourceNames where
  role : String
  binding : String
  /-- The namespace of the account that the role is granted to. -/
  namespaceName : String
  deriving DecidableEq, Repr

/-- The names derived from a name, which may not be empty. -/
def ResourceNames.ofName (name : String) : Except Failure ResourceNames :=
  if name.isEmpty then .error .emptyName
  else
    .ok {
      role := name ++ "-role"
      binding := name ++ "-rolebinding"
      namespaceName := name ++ "-system" }

/-- A role for a whole cluster. -/
structure Role where
  name : Value
  labels : Value
  rules : List Rule

/-- A grant of a role to a subject. -/
structure RoleBinding where
  name : Value
  labels : Value
  subjectName : Value
  subjectNamespace : Value
  roleName : Value
  subjectKind : Value := .text "ServiceAccount"
  roleKind : Value := .text ResourceKind.clusterRole.name

/-- The account that the role of a run is granted to. -/
def defaultAccount : String := "default"

/-- The role of a run. -/
def Role.build (rules : List Rule) (options : Options) : Except Failure Role := do
  let names ← ResourceNames.ofName options.name
  return { name := .text names.role, labels := .mapping options.labels, rules }

/-- The binding of a run. -/
def RoleBinding.build (options : Options) : Except Failure RoleBinding := do
  let names ← ResourceNames.ofName options.name
  return {
    name := .text names.binding
    labels := .mapping options.labels
    subjectName := .text defaultAccount
    subjectNamespace := .text names.namespaceName
    roleName := .text names.role }

/-- Something that may be a resource. -/
inductive Resource
  | ofRole (role : Role)
  | ofBinding (binding : RoleBinding)
  /-- A value that is no resource. -/
  | other (value : Value)

end RbacManifest
