import RbacManifest.FileTree.Resolve
import RbacManifest.Failure
import RbacManifest.Text.Blank
import RbacManifest.Text.Split

/-!
# Options

The options of a run: the name that all generated names begin with, the directories of the
sources and of the manifests, and the labels of both manifests. `Options.check` says whether a run
can start with them.
-/

namespace RbacManifest

/-- The options of a run. -/
structure Options where
  name : String := "manager"
  /-- The directory of the annotated sources. -/
  inputDirectory : String := "./pkg"
  /-- The directory that the manifests are written to. -/
  outputDirectory : String := "./config"
  labels : Entries := []

/-- The reason why a path is no directory that can be used. -/
def FileTree.directoryFault? (path : String) (tree : FileTree) : Option DirectoryFault :=
  if !tree.has path then some .missing
  else if !tree.hasDirectory path then some .notDirectory
  else none

namespace Options

/-- The first label that is no pair of texts. -/
def wrongLabel? (labels : Entries) : Option (Value × Value) :=
  labels.find? fun (key, value) => key.text?.isNone || value.text?.isNone

/-- Checks that the name is more than white space. -/
def checkName (options : Options) : Except Failure Unit :=
  if (Text.trim options.name.toList).isEmpty then .error .emptyName else .ok ()

def checkInputDirectory (tree : FileTree) (options : Options) : Except Failure Unit :=
  match tree.directoryFault? options.inputDirectory with
  | some fault => .error (.inputDirectory options.inputDirectory fault)
  | none => .ok ()

def checkOutputDirectory (tree : FileTree) (options : Options) : Except Failure Unit :=
  match tree.directoryFault? options.outputDirectory with
  | some fault => .error (.outputDirectory options.outputDirectory fault)
  | none => .ok ()

/-- Checks that the labels are texts. -/
def checkLabels (options : Options) : Except Failure Unit :=
  match wrongLabel? options.labels with
  | some (key, value) => .error (.labelType key value)
  | none => .ok ()

/-- Checks the options before a run: the name, the directories and the labels, in this order. -/
def check (options : Options) (tree : FileTree) : Except Failure Unit := do
  options.checkName
  options.checkInputDirectory tree
  options.checkOutputDirectory tree
  options.checkLabels

end Options

namespace Label

/-- The key and the value of a label argument. There may be white space around both, and the key
may not be empty. -/
def ofArgument (argument : String) : Except Failure (String × String) :=
  match Text.cut? '=' argument.toList with
  | none => .error (.label argument)
  | some (key, value) =>
      let key := Text.trim key
      if key.isEmpty then .error (.label argument)
      else .ok (String.ofList key, String.ofList (Text.trim value))

/-- The labels with the given keys and values. Of two labels with a key the later one counts. -/
def entries (labels : List (String × String)) : Entries :=
  Entries.putAll [] (labels.map fun (key, value) => (.text key, .text value))

def ofArguments (arguments : List String) : Except Failure Entries :=
  (arguments.mapM ofArgument).map entries

end Label

end RbacManifest
