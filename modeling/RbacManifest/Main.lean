import Std.Time.Format
import RbacManifest.CommandLine.Run
import RbacManifest.FileTree.Edit

/-!
# The program

`main` runs a command line on the files of this machine. It copies what the run may look at into a
tree of files, lets `CommandLine.run` work on that tree, and writes the manifests that have
changed.

This library leaves out some of what a run may meet:

* permissions: what a path leads to can be read, listed and written;
* files with settings, `.env` and `settings.ini`, which would come behind the environment;
* halves of surrogate pairs, which are no characters of a text here;
* limits on how deep directories, documents and values may be nested;
* the reading of a configuration file in pieces, which may find a fault of its form before bytes
  behind it that are no text;
* the merge of a mapping with the members of a list around it, and a mapping that is both filled
  and, under another name, the place of a principal value;
* bytes among the values of a manifest, and the order of keys that are neither texts nor numbers;
* the reason why a link cannot be written whose target ends with a slash.
-/

namespace RbacManifest

namespace Program

/-- The variables of the environment that have a meaning. -/
def variableNames : List String :=
  ["RBAC_GENERATOR_NAME", "RBAC_GENERATOR_INPUT_DIR", "RBAC_GENERATOR_OUTPUT_DIR",
    "RBAC_GENERATOR_DEBUG"]

/-- The environment of this process. -/
def environment : IO Environment :=
  variableNames.filterMapM fun name => do
    return (← IO.getEnv name).map fun text => (name, text)

/-- A tree that holds nothing but the working directory of this process. -/
def emptyTree : IO FileTree := do
  let path := (← IO.currentDir).toString
  let tree : FileTree := { root := .directory [], working := [] }
  return { tree.makeDirectories path with working := Path.names path }

/-- A path below what is no directory. Nothing is there, so it is the target of links that lead
nowhere. -/
def nowhere : String := "/dev/null/nowhere"

/-- What a path leads to, without links on the way. -/
def destination? (path : String) : IO (Option String) := do
  try return some (← IO.FS.realPath path).toString
  catch _ => return none

/-- Whether a path leads to a directory. -/
def leadsToDirectory (path : String) : IO Bool := do
  try (← IO.FS.realPath path).isDir
  catch _ => return false

/-- The tree with the file or the directory that a path leads to, without what is below it. -/
def copyEntry (path : String) (tree : FileTree) : IO FileTree := do
  match ← destination? path with
  | none => return tree
  | some real =>
      if ← leadsToDirectory real then return tree.makeDirectories path
      else
        let bytes ← IO.FS.readBinFile real
        return (tree.makeFile path bytes.toList).toOption.getD tree

/-- The tree with a link. A link to a file is copied as that file. -/
def copyLink (path : String) (tree : FileTree) : IO FileTree := do
  match ← destination? path with
  | none => return tree.makeLink path nowhere
  | some real =>
      if ← leadsToDirectory real then return (tree.makeDirectories real).makeLink path real
      else copyEntry path tree

/-- The tree with the directory that a path leads to and the sources below it. -/
partial def copySources (path : String) (tree : FileTree) : IO FileTree := do
  if ← leadsToDirectory path then
    let entries ← (← IO.FS.realPath path).readDir
    entries.foldlM (fun tree entry => do
      let below := Path.join path entry.fileName
      match (← entry.path.symlinkMetadata).type with
      | .symlink => copyLink below tree
      | .dir => copySources below tree
      | _ =>
          if Source.endsIn Source.usualEndings entry.fileName then copyEntry below tree
          else return tree)
      (tree.makeDirectories path)
  else copyEntry path tree

/-- The options that a command runs with, if there are any. -/
def options? (tree : FileTree) (environment : Environment)
    (arguments : CommandLine.Arguments) : Option Options := do
  let configuration ← (CommandLine.configuration? tree arguments).toOption
  (CommandLine.options arguments (configuration.getD {}) environment).outcome.toOption

/-- The paths of the manifests of a run. -/
def manifestPaths (options : Options) : List String :=
  [ResourceKind.clusterRole, .clusterRoleBinding].map fun kind =>
    Plan.manifestPath options.outputDirectory (Plan.fileName kind)

/-- The part of the world that a command may look at, and the paths that it may write to. -/
def world (environment : Environment) (arguments : CommandLine.Arguments) :
    IO (FileTree × List String) := do
  let tree ← emptyTree
  let tree ←
    match arguments.config.text? with
    | some path => copyEntry path tree
    | none => pure tree
  match options? tree environment arguments with
  | none => return (tree, [])
  | some options =>
      let paths := manifestPaths options
      let tree ← copySources options.inputDirectory tree
      let tree ← copyEntry options.outputDirectory tree
      let tree ← paths.foldlM (fun tree path => copyEntry path tree) tree
      return (tree, paths)

def bytes? (path : String) (tree : FileTree) : Option (List UInt8) :=
  (tree.readFile path).toOption

/-- Writes those of the files that a run has changed. -/
def save (old new : FileTree) (paths : List String) : IO Unit :=
  paths.forM fun path =>
    match bytes? path new with
    | some bytes =>
        if bytes? path old = some bytes then pure ()
        else IO.FS.writeBinFile path ⟨bytes.toArray⟩
    | none => pure ()

def time : IO String := do
  return (← Std.Time.PlainDateTime.now).format "uuuu-MM-dd HH:mm:ss"

/-- Runs a command line on the files of this machine, and gives the status of the run. -/
def run (texts : List String) : IO UInt32 := do
  let environment ← environment
  let (tree, paths) ←
    match CommandLine.Request.ofArguments texts with
    | .ok (.generate arguments) => world environment arguments
    | _ => pure (FileTree.empty, [])
  let (changed, report) := CommandLine.run tree environment texts
  save tree changed paths
  IO.eprint (report.errors (← time))
  IO.print report.output
  return UInt32.ofNat report.status

end Program

end RbacManifest

/-- Runs the command line of this process. -/
def main (arguments : List String) : IO UInt32 :=
  RbacManifest.Program.run arguments
