import RbacManifest.CommandLine.Help
import RbacManifest.Configuration
import RbacManifest.Generate

/-!
# Running a command line

`CommandLine.run` does what a command line asks for on a tree of files and in an environment. It
gives the tree behind the run, the status, and what is printed. Whether the log shows everything
is decided by the command line, then the configuration, then the environment; what is logged
before that decision is not shown.
-/

namespace RbacManifest

/-- Whether a failure is one that a run expects and not a surprise. -/
def Failure.isExpected : Failure → Bool
  | .configurationValue _ => false
  | .configurationFile _ _ => false
  | .impossiblePath => false
  | .labelBlank => false
  | .directoryBlank => false
  | .truthValue _ => false
  | _ => true

namespace CommandLine

/-- A part of what is printed beside the results. -/
inductive Notice
  | record (record : LogRecord)
  | text (text : String)
  deriving DecidableEq, Repr

/-- What a run leaves behind apart from files. -/
structure Report where
  /-- The status of the run; zero is success. -/
  status : Nat
  output : String := ""
  notices : List Notice := []
  deriving DecidableEq, Repr

/-- The record of a log as it is printed, with the time when it was made. -/
def recordText (time : String) (record : LogRecord) : String :=
  let level := match record.level with
    | .debug => "DEBUG"
    | .info => "INFO"
  s!"{time} - {level} - {record.message}\n"

/-- What is printed beside the results, with the time of the run. -/
def Report.errors (time : String) (report : Report) : String :=
  String.join (report.notices.map fun notice =>
    match notice with
    | .record record => recordText time record
    | .text text => text)

def shown (debug : Bool) (log : List LogRecord) : List LogRecord :=
  log.filter fun record => debug || record.level = .info

def failed (records : List LogRecord) (failure : Failure) : Report where
  status := 1
  notices := records.map .record ++ [.text s!"Error: {failure.message}\n"]

/-- The configuration that the arguments name, if they name one. -/
def configuration? (tree : FileTree) (arguments : Arguments) :
    Except Failure (Option Configuration) :=
  match arguments.config with
  | .text path =>
      if path.isEmpty then .ok none else (Configuration.load tree path).outcome.map some
  | _ => .ok none

/-- Whether the log shows everything. -/
def debug (arguments : Arguments) (configuration : Configuration) (environment : Environment) :
    Except Failure Bool :=
  if arguments.debug then .ok true
  else
    match configuration.debug? with
    | some debug => .ok debug
    | none => environment.defaults.map (·.debug)

/-- The labels that the arguments give. Each argument must hold a text. -/
def labels (arguments : Arguments) : Except Failure Entries := do
  let labels ← arguments.labels.mapM fun given =>
    match given with
    | .text argument => Label.ofArgument argument
    | _ => throw .labelBlank
  return Label.entries labels

/-- How the log shows an option, where `value` holds for it unless it is given blank. -/
def Given.describe (value : String) : Given → String
  | blank => "[]"
  | _ => Text.quoted value

/-- All options of a run, as the log shows them. -/
def describe (arguments : Arguments) (options : Options) : String :=
  "GenerationOptions(" ++ Text.commaSeparated [
      s!"name={arguments.name.describe options.name}",
      s!"input_dir={arguments.inputDirectory.describe options.inputDirectory}",
      s!"output_dir={arguments.outputDirectory.describe options.outputDirectory}",
      s!"labels={(Value.mapping options.labels).describe}"] ++ ")"

/-- Checks that no option is given blank. One that stands in front of a blank one in the order of
`Options.check` is checked first. -/
def checkTexts (arguments : Arguments) (tree : FileTree) (options : Options) :
    Except Failure Unit := do
  if arguments.name = .blank then throw .emptyName
  if arguments.inputDirectory = .blank then
    options.checkName
    throw .directoryBlank
  if arguments.outputDirectory = .blank then
    options.checkName
    options.checkInputDirectory tree
    throw .directoryBlank

def options (arguments : Arguments) (configuration : Configuration)
    (environment : Environment) : Logged Options := do
  Logged.record .debug "Debug mode enabled"
  let labels ← Logged.of (labels arguments)
  let given : GivenOptions := {
    name := arguments.name.text?
    inputDirectory := arguments.inputDirectory.text?
    outputDirectory := arguments.outputDirectory.text?
    labels }
  let options ← Logged.of (given.resolve configuration environment)
  Logged.record .debug s!"Resolved options: {describe arguments options}"
  return options

/-- Generates manifests with the options of a run. -/
def generateWith (tree : FileTree) (options : Logged Options) : FileTree × Logged String :=
  match options.outcome with
  | .error failure => (tree, { log := options.log, outcome := .error failure })
  | .ok resolved =>
      let (tree, generated) := generate tree resolved
      (tree, do
        let resolved ← options
        let _ ← generated
        return s!"RBAC manifests generated under '{resolved.outputDirectory}' directory\n")

def report (debug : Bool) (generated : Logged String) : Report :=
  match generated.outcome with
  | .ok output =>
      { status := 0, output, notices := (shown debug generated.log).map .record }
  | .error failure =>
      let log :=
        if failure.isExpected then generated.log
        else generated.log ++ [⟨.debug, "Unexpected error"⟩]
      failed (shown debug log) failure

def runCommand (tree : FileTree) (environment : Environment) (arguments : Arguments) :
    FileTree × Report :=
  let setUp : Except Failure (Configuration × Bool) := do
    let configuration := (← configuration? tree arguments).getD {}
    let debug ← debug arguments configuration environment
    return (configuration, debug)
  match setUp with
  | .error failure => (tree, failed [] failure)
  | .ok (configuration, debug) =>
      let checked : Logged Options := do
        let options ← options arguments configuration environment
        Logged.of (checkTexts arguments tree options)
        return options
      let (tree, generated) := generateWith tree checked
      (tree, report debug generated)

/-- Does what a command line asks for. -/
def run (tree : FileTree) (environment : Environment) (arguments : List String) :
    FileTree × Report :=
  match Request.ofArguments arguments with
  | .error misuse => (tree, { status := 2, notices := [.text misuse.report] })
  | .ok (.help scope) => (tree, { status := 0, output := scope.help })
  | .ok .nothing => (tree, { status := 1, notices := [.text Scope.program.help] })
  | .ok (.generate arguments) => runCommand tree environment arguments

end CommandLine

end RbacManifest
