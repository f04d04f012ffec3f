import RbacManifest.Ordered
import RbacManifest.Rule

/-!
# Merging rules

Rules about the same target are merged into one that allows the verbs of all of them. Two targets
are the same when their fields hold the same members, in whatever order and however often. The
merged rules are ordered by their targets, so the result depends on what the rules grant and not
on where they were found.
-/

namespace RbacManifest

namespace Target

/-- The fields of a target in the order in which targets are compared. -/
def fields (target : Target) : List (List String) :=
  [target.apiGroups, target.resources, target.resourceNames, target.urls]

instance : LT Target := ⟨fun left right => left.fields < right.fields⟩

instance : DecidableLT Target :=
  fun left right => inferInstanceAs (Decidable (left.fields < right.fields))

/-- The target with the members of every field in increasing order, each once. -/
def canonical (target : Target) : Target where
  apiGroups := Ordered.ofList target.apiGroups
  resources := Ordered.ofList target.resources
  resourceNames := Ordered.ofList target.resourceNames
  urls := Ordered.ofList target.urls

end Target

/-- Targets in increasing order, each with its verbs in increasing order. -/
abbrev Grants := List (Target × List String)

namespace Grants

/-- Allows more verbs on a target. -/
def add (target : Target) (verbs : List String) : Grants → Grants
  | [] => [(target, Ordered.ofList verbs)]
  | (other, allowed) :: rest =>
      if target = other then (other, Ordered.insertAll verbs allowed) :: rest
      else if target < other then (target, Ordered.ofList verbs) :: (other, allowed) :: rest
      else (other, allowed) :: add target verbs rest

/-- What a list of rules grants. -/
def ofRules (rules : List Rule) : Grants :=
  rules.foldl (fun grants rule => grants.add rule.target.canonical rule.verbs) []

/-- One rule for each target. -/
def toRules (grants : Grants) : List Rule :=
  grants.map fun (target, verbs) => { target, verbs }

end Grants

/-- The rules merged by target. -/
def Rule.aggregate (rules : List Rule) : List Rule :=
  (Grants.ofRules rules).toRules

end RbacManifest
