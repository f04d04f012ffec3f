import RbacManifest.Rule

/-!
# Rules that may not be granted

A rule has to name verbs and exactly one kind of target. Resources need API groups, and URLs
take neither groups nor object names. This file says which of these demands a rule breaks first.
-/

namespace RbacManifest

/-- A demand on rules that a rule does not meet. -/
inductive Violation
  /-- No verb is allowed. -/
  | noVerbs
  /-- Both resources and URLs are named. -/
  | mixedTarget
  /-- Neither resources nor URLs are named. -/
  | noTarget
  /-- Resources are named without their API groups. -/
  | missingGroups
  /-- URLs are named together with API groups or object names. -/
  | urlsWithResourceFields
  deriving DecidableEq, Repr

/-- The wording of a violation, after the place of the rule. -/
def Violation.message : Violation → String
  | .noVerbs => "RBAC rule has no verbs"
  | .mixedTarget => "RBAC rule mixes resources and urls"
  | .noTarget => "RBAC rule names neither resources nor urls"
  | .missingGroups => "RBAC rule names resources but no groups"
  | .urlsWithResourceFields => "RBAC rule with urls cannot set groups or resourceNames"

namespace Rule

/-- The first demand that a rule breaks. -/
def violation? (rule : Rule) : Option Violation :=
  let onResources := !rule.target.resources.isEmpty
  let onUrls := !rule.target.urls.isEmpty
  if rule.verbs.isEmpty then some .noVerbs
  else if onResources && onUrls then some .mixedTarget
  else if !onResources && !onUrls then some .noTarget
  else if onResources && rule.target.apiGroups.isEmpty then some .missingGroups
  else if onUrls && (!rule.target.apiGroups.isEmpty || !rule.target.resourceNames.isEmpty) then
    some .urlsWithResourceFields
  else none

/-- The first rule of a list that breaks a demand, and the demand that it breaks first. -/
def firstViolation? (rules : List Rule) : Option (Rule × Violation) :=
  rules.findSome? fun rule => rule.violation?.map fun violation => (rule, violation)

end Rule

end RbacManifest
