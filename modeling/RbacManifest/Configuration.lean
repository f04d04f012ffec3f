import RbacManifest.Environment
import RbacManifest.Logged
import RbacManifest.Schema
import RbacManifest.Source
import RbacManifest.Yaml.Read

/-!
# Configuration files

A configuration file gives values for options. `Configuration.load` reads one, and
`Configuration.reload` keeps the configuration that was loaded before unless the new one can be
read and has the right form. `GivenOptions.resolve` merges the command line, the configuration and
the environment, in this order of precedence.

A file is decoded as a whole before its form is looked at. So bytes that are no text come before
every fault of the form, however far behind it they stand.
-/

namespace RbacManifest

structure Configuration where
  data : Entries := []
  /-- The file that the configuration was read from. -/
  path : Option String := none

namespace Configuration

/-- The text of a configuration file. -/
def text (tree : FileTree) (path : String) : Except Failure (List Char) :=
  let file := Path.normalized path
  match tree.entry file with
  | .error .nameTooLong => .error (.configurationFile file (.path .nameTooLong))
  | .ok (.file bytes) =>
      match Text.decode bytes with
      | .ok text => .ok (Text.unifyLineEnds text)
      | .error fault => .error (.configurationFile file (.bytes fault bytes))
  | _ => .error (.configurationMissing path)

/-- The entries of a configuration whose text is known. What is not given holds no entries. -/
def parse (path : String) (text : List Char) : Except Failure Entries :=
  match Yaml.load text with
  | .error .malformed => .error (.configurationMalformed path)
  | .error fault => .error (.configurationValue fault)
  | .ok (.mapping entries) => .ok entries
  | .ok value => if value.isGiven then .error .configurationNoMapping else .ok []

/-- The configuration in a file. -/
def load (tree : FileTree) (path : String) : Logged Configuration := do
  let text ← Logged.of (text tree path)
  let data ← Logged.of (parse path text)
  Logged.of (Schema.check data)
  Logged.record .info s!"Loaded configuration from {path}"
  return { data, path := some path }

/-- What follows a configuration when another one is to be loaded: that one, or the same if the
loading fails. -/
def reload (tree : FileTree) (path : String) (configuration : Configuration) : Configuration :=
  match (load tree path).outcome with
  | .ok loaded => loaded
  | .error _ => configuration

/-- The value of a section; a section without entries if nothing is given there. -/
def sectionValue (name : String) (configuration : Configuration) : Value :=
  match configuration.data.opened.get? name with
  | some value => if value.isGiven then value else .mapping []
  | none => .mapping []

/-- The value that a row of keys leads to. -/
def valueAt? (value : Value) : List String → Option Value
  | [] => some value
  | key :: rest =>
      match value with
      | .mapping entries =>
          ((Entries.opened entries).get? key).bind fun value => valueAt? value rest
      | _ => none

/-- The value that keys with dots between them lead to. Null counts as missing. -/
def value? (keys : String) (configuration : Configuration) : Option Value :=
  let row := (Text.pieces '.' keys.toList).map String.ofList
  match valueAt? (.mapping configuration.data) row with
  | some .null => none
  | value => value

/-- The entries of a section. -/
def sectionEntries (name : String) (configuration : Configuration) : Entries :=
  match configuration.data.opened.get? name with
  | some (.mapping entries) => Entries.opened entries
  | _ => []

/-- The text that a field of the section for runs holds. -/
def setting? (field : String) (configuration : Configuration) : Option String :=
  ((configuration.sectionEntries "generate").get? field).bind Value.text?

def labels (configuration : Configuration) : Entries :=
  match (configuration.sectionEntries "generate").get? "labels" with
  | some (.mapping entries) => Entries.opened entries
  | _ => []

/-- Whether the log is to show everything, if the configuration says so. -/
def debug? (configuration : Configuration) : Option Bool :=
  match configuration.value? "global.debug" with
  | some (.bool value) => some value
  | _ => none

end Configuration

/-- Options that are given on the command line. -/
structure GivenOptions where
  name : Option String := none
  inputDirectory : Option String := none
  outputDirectory : Option String := none
  labels : Entries := []

/-- The options of a run: what is given counts more than the configuration, and that more than the
environment. Labels of the configuration and of the command line are put together. -/
def GivenOptions.resolve (given : GivenOptions) (configuration : Configuration)
    (environment : Environment) : Except Failure Options := do
  let defaults ← environment.defaults
  return {
    name := (given.name <|> configuration.setting? "name").getD defaults.name
    inputDirectory :=
      (given.inputDirectory <|> configuration.setting? "inputDir").getD defaults.inputDirectory
    outputDirectory :=
      (given.outputDirectory <|> configuration.setting? "outputDir").getD
        defaults.outputDirectory
    labels := Entries.putAll configuration.labels given.labels }

end RbacManifest
