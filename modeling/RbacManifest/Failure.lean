import RbacManifest.FileTree
import RbacManifest.Manifest.Fault
import RbacManifest.Marker
import RbacManifest.Rule.Violation
import RbacManifest.Text.Utf8
import RbacManifest.Yaml.Fault

/-!
# Failures

Everything that can keep manifests from being generated, with the wording of each cause. Failures
are told apart by what they are about: the options and where they come from, the sources, the rules,
the manifests, or the writing of these. All others are a surprise for a run.
-/

namespace RbacManifest

/-- Why a directory cannot be used. -/
inductive DirectoryFault
  | missing
  | notDirectory
  deriving DecidableEq, Repr

def DirectoryFault.message : DirectoryFault → String
  | .missing => "no such file or directory"
  | .notDirectory => "not a directory"

/-- Why a file cannot be read. -/
inductive FileFault
  | path (fault : PathFault)
  /-- The bytes of the file are no text. -/
  | bytes (fault : Text.Utf8.Fault) (content : List UInt8)

def FileFault.message (file : String) : FileFault → String
  | .path fault => fault.message file
  | .bytes fault content => fault.message content

/-- A cause for which nothing is generated. -/
inductive Failure
  /-- The name that all generated names begin with is empty. -/
  | emptyName
  | inputDirectory (path : String) (fault : DirectoryFault)
  | outputDirectory (path : String) (fault : DirectoryFault)
  /-- An argument that is no label. -/
  | label (argument : String)
  /-- An argument for a label that holds no text at all. -/
  | labelBlank
  /-- A label that is no pair of texts. -/
  | labelType (key value : Value)
  | configurationMissing (path : String)
  | configurationMalformed (path : String)
  /-- The configuration file holds something else than a mapping. -/
  | configurationNoMapping
  /-- A part of the configuration is not of this type. -/
  | configurationType (place typeName : String)
  /-- A value of the configuration does not exist. -/
  | configurationValue (fault : Yaml.Fault)
  /-- The configuration file cannot be read. -/
  | configurationFile (path : String) (fault : FileFault)
  /-- A path that nothing can have. -/
  | impossiblePath
  /-- A directory that is given without a path. -/
  | directoryBlank
  | sourceFile (path : String) (fault : FileFault)
  | sourceDirectory (path : String) (fault : PathFault)
  | marker (place : SourcePosition) (fault : Marker.Fault)
  | rule (broken : Rule) (violation : Violation)
  /-- A value of this type is no resource. -/
  | noResource (typeName : String)
  /-- A resource with a name has no manifest. -/
  | manifest (kind : String) (name : Value) (fault : Manifest.Fault)
  | write (kind : ResourceKind) (path : String) (fault : PathFault)
  /-- A variable of the environment is no truth value. -/
  | truthValue (text : String)

def Failure.message : Failure → String
  | .emptyName => "Identity name cannot be empty"
  | .inputDirectory path fault => s!"invalid input directory '{path}': {fault.message}"
  | .outputDirectory path fault => s!"invalid output directory '{path}': {fault.message}"
  | .label argument => s!"Invalid label '{argument}', expected KEY=VALUE"
  | .labelBlank => "'list' object has no attribute 'partition'"
  | .labelType key value =>
      s!"Label keys and values must be strings: {key.display}={value.display}"
  | .configurationMissing path => s!"Configuration file not found: {path}"
  | .configurationMalformed path => s!"Invalid YAML in configuration file {path}"
  | .configurationNoMapping => "Configuration must be a dictionary"
  | .configurationType place typeName => s!"{place} must be a {typeName}"
  | .configurationValue fault => fault.message
  | .configurationFile path fault => fault.message path
  | .impossiblePath => PathFault.nullCharacter.reason
  | .directoryBlank =>
      "stat: path should be string, bytes, os.PathLike or integer, not list"
  | .sourceFile path fault => s!"failed to read {path}: {fault.message path}"
  | .sourceDirectory path fault => s!"failed to walk {path}: {fault.reason}"
  | .marker place fault => s!"{place.describe}: {fault.message}"
  | .rule broken violation => s!"{broken.describePlace}: {violation.message}"
  | .noResource typeName => s!"Cannot render resource of type {typeName}"
  | .manifest kind name fault =>
      s!"Failed to serialize {kind} '{name.display}': {fault.message}"
  | .write kind path fault =>
      s!"failed to write {kind.name} manifest file '{path}': {fault.message path}"
  | .truthValue text => s!"Invalid truth value: {text}"

/-- What a failure is about. -/
inductive FailureKind
  /-- The options of a run, or the configuration that gives them. -/
  | configuration
  /-- A file or a directory of the sources, or a marker that cannot be read. -/
  | scan
  /-- A rule that breaks a demand. -/
  | invalidRule
  /-- A resource that has no manifest. -/
  | serialization
  /-- A manifest that cannot be written to its file. -/
  | write
  /-- None of these. -/
  | unexpected
  deriving DecidableEq, Repr

def Failure.kind : Failure → FailureKind
  | .emptyName | .inputDirectory _ _ | .outputDirectory _ _ | .label _ | .labelType _ _
  | .configurationMissing _ | .configurationMalformed _ | .configurationNoMapping
  | .configurationType _ _ => .configuration
  | .sourceFile _ _ | .sourceDirectory _ _ | .marker _ _ => .scan
  | .rule _ _ => .invalidRule
  | .noResource _ | .manifest _ _ _ => .serialization
  | .write _ _ _ => .write
  | .labelBlank | .configurationValue _ | .configurationFile _ _ | .impossiblePath
  | .directoryBlank | .truthValue _ => .unexpected

/-- The name of the error that stands for all failures of a kind. -/
def FailureKind.errorName : FailureKind → String
  | configuration => "ConfigurationError"
  | scan => "ScanError"
  | invalidRule => "InvalidRuleError"
  | serialization => "SerializationError"
  | write => "ManifestWriteError"
  | unexpected => "Exception"

/-- The name of the error that a failure comes with. An unexpected one has the name of what went
wrong. -/
def Failure.errorName : Failure → String
  | .configurationValue fault => fault.errorName
  | .configurationFile _ (.bytes _ _) => "UnicodeDecodeError"
  | .configurationFile _ (.path _) => "OSError"
  | .labelBlank => "AttributeError"
  | .directoryBlank => "TypeError"
  | .impossiblePath | .truthValue _ => "ValueError"
  | failure => failure.kind.errorName

end RbacManifest
