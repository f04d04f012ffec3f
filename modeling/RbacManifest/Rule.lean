import RbacManifest.Text.Quoted

/-!
# Permission rules

A rule allows verbs on a target. The target is either a set of resources, given by API groups,
resource types and optionally the names of single objects, or a set of URLs that are no
resources. A rule remembers where in the source tree it was written, but that place is no part
of what it grants.
-/

namespace RbacManifest

/-- A line of a source file. -/
structure SourcePosition where
  path : String
  /-- The number of the line, counted from one. -/
  line : Int
  deriving DecidableEq, Repr

namespace SourcePosition

/-- The position as messages name it. -/
def describe (position : SourcePosition) : String :=
  s!"{position.path}:{position.line}"

end SourcePosition

/-- What a rule is about, apart from the verbs. -/
structure Target where
  /-- The API groups of the resources; the core group is the empty text. -/
  apiGroups : List String := []
  resources : List String := []
  /-- The objects that the rule is restricted to; none stands for all of them. -/
  resourceNames : List String := []
  /-- URLs that are not resources. -/
  urls : List String := []
  deriving DecidableEq, Repr

/-- A statement that verbs are allowed on a target. -/
structure Rule where
  target : Target
  verbs : List String := []
  /-- Where the rule was written, if it was read from a file. -/
  source : Option SourcePosition := none
  deriving DecidableEq, Repr

namespace Rule

/-- Whether two rules say the same, wherever they were written. -/
def same (left right : Rule) : Bool :=
  left.target = right.target ∧ left.verbs = right.verbs

/-- The place of a rule, or what it is about when its place is not known. -/
def describePlace (rule : Rule) : String :=
  match rule.source with
  | some position => position.describe
  | none =>
      let resources := Text.bracketed (rule.target.resources.map Text.quoted)
      let urls := Text.bracketed (rule.target.urls.map Text.quoted)
      s!"rule(resources={resources}, urls={urls})"

/-- All fields of a rule, as the log shows them. -/
def describe (rule : Rule) : String :=
  let row (values : List String) := Text.parenthesized (values.map Text.quoted)
  let source :=
    match rule.source with
    | some position =>
        s!"SourcePosition(path={Text.quoted position.path}, line={position.line})"
    | none => "None"
  "PermissionRule(" ++ Text.commaSeparated [
      s!"api_groups={row rule.target.apiGroups}",
      s!"resources={row rule.target.resources}",
      s!"resource_names={row rule.target.resourceNames}",
      s!"verbs={row rule.verbs}",
      s!"non_resource_urls={row rule.target.urls}",
      s!"source={source}"] ++ ")"

end Rule

end RbacManifest
