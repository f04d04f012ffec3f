import RbacManifest.Manifest
import RbacManifest.Rule.Aggregate
import RbacManifest.Source

/-!
# Generating manifests

A run scans the sources, checks and merges the rules, builds and renders the two resources, and
writes the two manifests. `Plan.make` does everything but the writing, so that nothing is written
unless all of it succeeds; `Plan.commit` writes.
-/

namespace RbacManifest

/-- A manifest that is to be written. -/
structure PlannedFile where
  kind : ResourceKind
  path : String
  bytes : List UInt8
  deriving DecidableEq, Repr

/-- What a run is going to write. -/
structure Plan where
  /-- The number of merged rules. -/
  ruleCount : Nat
  files : List PlannedFile
  deriving DecidableEq, Repr

/-- What a run has done. -/
structure Generated where
  /-- The number of merged rules. -/
  ruleCount : Nat
  /-- The paths of the written files. -/
  written : List String
  deriving DecidableEq, Repr

namespace Plan

/-- The path of a manifest in a directory. -/
def manifestPath (directory name : String) : String :=
  Path.join directory (name ++ ".yaml")

/-- The name of the file of a manifest. -/
def fileName : ResourceKind → String
  | .clusterRole => "rbac_role"
  | .clusterRoleBinding => "rbac_role_binding"

/-- Checks that all rules may be granted. -/
def checkRules (rules : List Rule) : Except Failure Unit :=
  match Rule.firstViolation? rules with
  | none => .ok ()
  | some (rule, violation) => .error (.rule rule violation)

/-- Checks and merges rules. -/
def merge (rules : List Rule) : Logged (List Rule) := do
  Logged.of (checkRules rules)
  let merged := Rule.aggregate rules
  Logged.record .debug s!"Aggregated {rules.length} rules into {merged.length}"
  return merged

/-- The plan for merged rules. -/
def ofRules (options : Options) (rules : List Rule) : Logged Plan := do
  let role ← Logged.of (Role.build rules options)
  let binding ← Logged.of (RoleBinding.build options)
  let roleBytes ← (Resource.ofRole role).render
  let bindingBytes ← (Resource.ofBinding binding).render
  let file (kind : ResourceKind) (bytes : List UInt8) : PlannedFile :=
    { kind, path := manifestPath options.outputDirectory (fileName kind), bytes }
  return {
    ruleCount := rules.length
    files := [file .clusterRole roleBytes, file .clusterRoleBinding bindingBytes] }

/-- The plan of a run whose rules come from the given source, which is asked for them once the
options are checked. Without rules there is nothing to write. -/
def make (tree : FileTree) (options : Options) (source : String → Logged (List Rule)) :
    Logged Plan := do
  Logged.of (options.check tree)
  let found ← source options.inputDirectory
  let rules ← merge found
  if rules.isEmpty then
    Logged.record .info
      s!"No RBAC rules found under {options.inputDirectory}, nothing to generate"
    return { ruleCount := 0, files := [] }
  else ofRules options rules

/-- Writes files one after the other, up to the first that cannot be written. -/
def commit (tree : FileTree) : List PlannedFile → FileTree × Logged Unit
  | [] => (tree, pure ())
  | file :: rest =>
      match tree.writeFile file.path file.bytes with
      | .error fault => (tree, Logged.fail (.write file.kind file.path fault))
      | .ok tree =>
          let (tree, outcome) := commit tree rest
          (tree, do
            Logged.record .info s!"{file.kind.name} manifest saved to: {file.path}"
            outcome)

end Plan

/-- Runs on a tree of files, with rules from the given source. -/
def generateFrom (source : String → Logged (List Rule)) (tree : FileTree) (options : Options) :
    FileTree × Logged Generated :=
  let planned := Plan.make tree options source
  match planned.outcome with
  | .error failure => (tree, { log := planned.log, outcome := .error failure })
  | .ok plan =>
      let (tree, committed) := Plan.commit tree plan.files
      (tree, do
        let plan ← planned
        committed
        return { ruleCount := plan.ruleCount, written := plan.files.map (·.path) })

/-- Runs on a tree of files, with the rules that its sources state. -/
def generate (tree : FileTree) (options : Options) : FileTree × Logged Generated :=
  generateFrom (Source.scan Source.usualEndings tree) tree options

end RbacManifest
