import RbacManifest.FileTree.Resolve
import RbacManifest.Logged
import RbacManifest.Ordered
import RbacManifest.Text.Line

/-!
# Rules in a source tree

`Source.scan` collects the rules that the files below a directory state in their markers. The
files of a directory come in the order of their names before anything in its subdirectories, which
follow in the order of theirs. Hidden directories and links to directories are not entered. A
subdirectory that cannot be listed ends the scan, once the files in front of it have been read.
-/

namespace RbacManifest

namespace Source

/-- The endings of the files that are scanned unless others are asked for. -/
def usualEndings : List String := [".go", ".py"]

/-- The endings of the files that are scanned when some are asked for. Asking for none is not
asking. -/
def chosenEndings (asked : List String) : List String :=
  if asked.isEmpty then usualEndings else asked

/-- The tokens that start a line comment in a file. -/
def commentTokens (path : String) : List String :=
  match Path.extension path with
  | ".go" => ["//"]
  | ".py" => ["#"]
  | _ => Marker.commentTokens

/-- The rule that the marker on a line states, if there is a marker. -/
def lineRule? (tokens : List String) (place : SourcePosition) (line : List Char) :
    Except Failure (Option Rule) :=
  match Marker.body? tokens line with
  | none => .ok none
  | some body =>
      match Marker.rule body place with
      | .ok rule => .ok (some rule)
      | .error fault => .error (.marker place fault)

/-- The rules on the lines of a file, from the line with a given number on. -/
def linesRules (tokens : List String) (path : String) (number : Nat) :
    List (List Char) → Logged (List Rule)
  | [] => pure []
  | line :: rest => do
      let place : SourcePosition := ⟨path, number⟩
      match ← Logged.of (lineRule? tokens place line) with
      | none => linesRules tokens path (number + 1) rest
      | some rule =>
          Logged.record .debug s!"{place.describe}: {rule.describe}"
          let rules ← linesRules tokens path (number + 1) rest
          return rule :: rules

def text (tree : FileTree) (path : String) : Except FileFault (List Char) :=
  match tree.readFile path with
  | .error fault => .error (.path fault)
  | .ok bytes => (Text.decode bytes).mapError fun fault => .bytes fault bytes

def fileFailure (path : String) : FileFault → Failure
  | .path .nullCharacter => .impossiblePath
  | fault => .sourceFile path fault

def directoryFailure (path : String) : PathFault → Failure
  | .nullCharacter => .impossiblePath
  | fault => .sourceDirectory path fault

def fileRules (tree : FileTree) (path : String) : Logged (List Rule) := do
  let content ← Logged.of ((text tree path).mapError (fileFailure path))
  linesRules (commentTokens path) path 1 (Text.lines content)

/-- Whether a text ends in one of several ways. -/
def endsIn (endings : List String) (name : String) : Bool :=
  endings.any fun ending => (Text.after? ending.toList.reverse name.toList.reverse).isSome

/-- Whether an entry in the directory with a path is a file that is scanned. -/
def isSource (endings : List String) (tree : FileTree) (path name : String) : Entry → Bool
  | .directory _ => false
  | .file _ => endsIn endings name
  | .link _ => endsIn endings name && !tree.hasDirectory (Path.join path name)

/-- What a walk through directories comes to. -/
inductive Step
  | file (path : String)
  /-- A directory that cannot be listed. -/
  | unlisted (path : String) (fault : PathFault)
  deriving DecidableEq, Repr

/-- The steps of a walk in a directory and below it, when those in its subdirectories are known by
the names of these. -/
def gather (endings : List String) (tree : FileTree) (path : String)
    (entries : List (String × Entry)) (below : List (String × List Step)) : List Step :=
  let own := (entries.filter fun (name, entry) => isSource endings tree path name entry).map (·.1)
  (Ordered.ofList own).map (fun name => .file (Path.join path name))
    ++ (Ordered.ofKeyed below).flatMap (·.2)

mutual

/-- The steps of a walk in an entry, which has some only if it is a directory. -/
def inside (endings : List String) (tree : FileTree) (path : String) : Entry → List Step
  | .directory entries =>
      match tree.list path with
      | .ok _ => gather endings tree path entries (below endings tree path entries)
      | .error fault => [.unlisted path fault]
  | _ => []

/-- The steps of a walk in the subdirectories of a directory, by their names. -/
def below (endings : List String) (tree : FileTree) (path : String) :
    List (String × Entry) → List (String × List Step)
  | [] => []
  | entry :: rest => entered endings tree path entry ++ below endings tree path rest

/-- The steps of a walk in one entry of a directory, with its name. -/
def entered (endings : List String) (tree : FileTree) (path : String) :
    String × Entry → List (String × List Step)
  | (name, entry) =>
      if entry.isDirectory && name.toList.head? ≠ some '.' then
        [(name, inside endings tree (Path.join path name) entry)]
      else []

end

/-- The steps of a walk in a directory and below it. -/
def steps (endings : List String) (tree : FileTree) (path : String)
    (entries : List (String × Entry)) : List Step :=
  inside endings tree path (.directory entries)

def stepRules (tree : FileTree) : Step → Logged (List Rule)
  | .file path => fileRules tree path
  | .unlisted path fault => Logged.fail (directoryFailure path fault)

def stepsRules (tree : FileTree) : List Step → Logged (List Rule)
  | [] => pure []
  | step :: rest => do
      let rules ← stepRules tree step
      let others ← stepsRules tree rest
      return rules ++ others

/-- The rules in the files below a directory whose names end in one of the given ways. -/
def scan (endings : List String) (tree : FileTree) (path : String) : Logged (List Rule) := do
  let entries ← Logged.of ((tree.list path).mapError (directoryFailure path))
  let steps := steps endings tree path entries
  let rules ← stepsRules tree steps
  Logged.record .info s!"Discovered {rules.length} RBAC rules in {steps.length} files under {path}"
  return rules

end Source

end RbacManifest
