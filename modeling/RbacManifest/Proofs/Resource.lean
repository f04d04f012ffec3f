import RbacManifest.Resource

/-!
# The resources of a run

The names, the role and the binding of a run in closed form. They exist exactly for options whose
name is not empty.
-/

namespace RbacManifest

/-- The names that are derived from a name. -/
def ResourceNames.derived (name : String) : ResourceNames where
  role := name ++ "-role"
  binding := name ++ "-rolebinding"
  namespaceName := name ++ "-system"

/-- The role for some rules. -/
def Options.role (options : Options) (rules : List Rule) : Role where
  name := .text (ResourceNames.derived options.name).role
  labels := .mapping options.labels
  rules := rules

/-- The binding of that role. -/
def Options.binding (options : Options) : RoleBinding where
  name := .text (ResourceNames.derived options.name).binding
  labels := .mapping options.labels
  subjectName := .text defaultAccount
  subjectNamespace := .text (ResourceNames.derived options.name).namespaceName
  roleName := .text (ResourceNames.derived options.name).role

variable {options : Options} {rules : List Rule}

theorem ResourceNames.ofName_eq {name : String} :
    ofName name = if name = "" then .error .emptyName else .ok (derived name) := by
  by_cases empty : name = ""
  · simp [ofName, empty]
  · simp [ofName, empty, derived]

theorem Role.build_eq_ok_iff {role : Role} :
    Role.build rules options = .ok role ↔ options.name ≠ "" ∧ role = options.role rules := by
  rw [Role.build, ResourceNames.ofName_eq]
  by_cases empty : options.name = ""
  · simp [empty, bind, Except.bind]
  · simp [empty, bind, Except.bind, pure, Except.pure, Options.role, eq_comm]

theorem RoleBinding.build_eq_ok_iff {binding : RoleBinding} :
    RoleBinding.build options = .ok binding ↔ options.name ≠ "" ∧ binding = options.binding := by
  rw [RoleBinding.build, ResourceNames.ofName_eq]
  by_cases empty : options.name = ""
  · simp [empty, bind, Except.bind]
  · simp [empty, bind, Except.bind, pure, Except.pure, Options.binding, eq_comm]

namespace ResourceNames

variable {left right : String}

theorem role_derived_eq_iff : (derived left).role = (derived right).role ↔ left = right :=
  String.append_left_inj _

theorem binding_derived_eq_iff : (derived left).binding = (derived right).binding ↔ left = right :=
  String.append_left_inj _

theorem namespaceName_derived_eq_iff :
    (derived left).namespaceName = (derived right).namespaceName ↔ left = right :=
  String.append_left_inj _

/-- Names of roles and names of bindings end differently, whatever they are derived from. -/
theorem role_derived_ne_binding_derived : (derived left).role ≠ (derived right).binding := by
  intro same
  have role_last : (derived left).role.toList.getLast? = some 'e' := by simp [derived]
  have binding_last : (derived right).binding.toList.getLast? = some 'g' := by simp [derived]
  rw [same, binding_last] at role_last
  cases role_last

end ResourceNames

end RbacManifest
