import RbacManifest.Rule
import RbacManifest.Text.Blank
import RbacManifest.Text.Split

/-!
# Markers

A marker is a line comment that states a permission rule:

    // +kubebuilder:rbac:groups=apps,resources=deployments,verbs=get;list
    # +rbac:groups=core,resources=pods,verbs=get

Behind its opening it consists of pairs `key=value` between commas; a value is a list between
semicolons, whose members may stand between double quotes. Marker lines are recognised by
`Marker.body?` and read by `Marker.rule`.
-/

namespace RbacManifest

namespace Marker

/-- The tokens that start a line comment when the type of the file does not say which. -/
def commentTokens : List String := ["//", "#"]

/-- The openings of a marker. -/
def openings : List String := ["+kubebuilder:rbac:", "+rbac:"]

/-- The body of the marker that a line holds: the text behind the comment token and the opening.
There may be white space around every part. -/
def body? (tokens : List String) (line : List Char) : Option (List Char) := do
  let comment ← Text.afterAny? (tokens.map String.toList) (Text.trim line)
  let body ← Text.afterAny? (openings.map String.toList) (Text.trim comment)
  return Text.trim body

inductive Key
  | groups
  | resources
  | resourceNames
  | verbs
  | urls
  /-- Accepted, but without influence on the rule. -/
  | namespaces
  deriving DecidableEq, Repr

def Key.ofString? : String → Option Key
  | "groups" => some .groups
  | "resources" => some .resources
  | "resourceNames" => some .resourceNames
  | "verbs" => some .verbs
  | "urls" => some .urls
  | "namespace" => some .namespaces
  | _ => none

/-- Why a marker body cannot be read. -/
inductive Fault
  /-- A pair without an equals sign. -/
  | missingEquals (pair : String)
  /-- A pair with a key that markers do not have. -/
  | unknownKey (key : String)
  deriving DecidableEq, Repr

/-- The wording of a fault, after the place of the marker. -/
def Fault.message : Fault → String
  | .missingEquals pair => s!"expected key=value in '{pair}'"
  | .unknownKey key => s!"unknown RBAC annotation key '{key}'"

/-- A member of a value: without its quotes if it stands between quotes, which is the only way to
write an empty one. -/
def member? (item : List Char) : Option String :=
  match item with
  | [] => none
  | first :: rest =>
      if first = '"' ∧ rest.getLast? = some '"' then some (String.ofList rest.dropLast)
      else some (String.ofList item)

def members (value : List Char) : List String :=
  (Text.pieces ';' value).filterMap fun item => member? (Text.trim item)

def pair (text : List Char) : Except Fault (Key × List String) :=
  match Text.cut? '=' text with
  | none => .error (.missingEquals (String.ofList text))
  | some (name, value) =>
      let name := String.ofList (Text.trim name)
      match Key.ofString? name with
      | none => .error (.unknownKey name)
      | some key => .ok (key, members value)

/-- The pairs of a marker body, in their order. Empty places between commas are skipped. -/
def pairs (body : List Char) : Except Fault (List (Key × List String)) :=
  (((Text.pieces ',' body).map Text.trim).filter (!·.isEmpty)).mapM pair

/-- All members that pairs give to a key, in their order. -/
def valuesOf (key : Key) (pairs : List (Key × List String)) : List String :=
  pairs.flatMap fun (other, values) => if other = key then values else []

/-- The API group that a marker means: `core` stands for the core group. -/
def apiGroup (name : String) : String :=
  if name = "core" then "" else name

/-- The rule that a marker body states at a place. -/
def rule (body : List Char) (place : SourcePosition) : Except Fault Rule := do
  let pairs ← pairs body
  return {
    target := {
      apiGroups := (valuesOf .groups pairs).map apiGroup
      resources := valuesOf .resources pairs
      resourceNames := valuesOf .resourceNames pairs
      urls := valuesOf .urls pairs }
    verbs := valuesOf .verbs pairs
    source := some place }

end Marker

end RbacManifest
