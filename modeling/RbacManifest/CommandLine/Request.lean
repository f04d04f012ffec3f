import RbacManifest.CommandLine.Switch

/-!
# What a command line asks for

`Request.ofArguments` reads a command line: help, the one command with its arguments, or nothing.
A switch that is given more than once counts the last time, but labels are collected. Two dashes
that are attached to a switch are no text: the switch is given, but blank.
-/

namespace RbacManifest

namespace CommandLine

/-- What is given with a switch that takes a text. -/
inductive Given
  | absent
  /-- The switch is given without a text. -/
  | blank
  | text (text : String)
  deriving DecidableEq, Repr

namespace Given

/-- What a text stands for that is attached to a switch. -/
def ofAttached (attached : List Char) : Given :=
  if attached = ['-', '-'] then blank else text (String.ofList attached)

def text? : Given → Option String
  | text content => some content
  | _ => none

end Given

structure Arguments where
  debug : Bool := false
  config : Given := .absent
  name : Given := .absent
  inputDirectory : Given := .absent
  outputDirectory : Given := .absent
  labels : List Given := []
  deriving DecidableEq, Repr

namespace Arguments

/-- The arguments with one more switch and what is given with it. -/
def give (switch : Switch) (given : Given) (arguments : Arguments) : Arguments :=
  match switch with
  | .help => arguments
  | .debug => { arguments with debug := true }
  | .config => { arguments with config := given }
  | .name => { arguments with name := given }
  | .inputDirectory => { arguments with inputDirectory := given }
  | .outputDirectory => { arguments with outputDirectory := given }
  | .label => { arguments with labels := arguments.labels ++ [given] }

end Arguments

/-- A part of the command line that has a help text of its own. -/
inductive Scope
  | program
  | command
  deriving DecidableEq, Repr

/-- What a command line asks for. -/
inductive Request
  | help (scope : Scope)
  | nothing
  | generate (arguments : Arguments)
  deriving DecidableEq, Repr

/-- What the arguments behind the command say. -/
inductive Reading
  | help
  /-- The arguments, and those that have no meaning. -/
  | given (arguments : Arguments) (unrecognized : List String)
  deriving DecidableEq, Repr

/-- Why a text may not be attached to the switch for help: what of it does not repeat the letter
of the switch. Nothing may be attached to its long spelling. -/
def excess? (attached : List Char) (byLetter : Bool) : Option (List Char) :=
  if byLetter && !attached.isEmpty then
    let rest := attached.dropWhile (· = helpLetter)
    if rest.isEmpty then none else some rest
  else some attached

namespace Reading

/-- Reads the arguments behind the command, after those that were read already. -/
def ofArguments (found : Arguments) (unrecognized : List String) :
    List Argument → Except Misuse Reading
  | [] => .ok (.given found unrecognized)
  | .operand text :: rest => ofArguments found (unrecognized ++ [text]) rest
  | .unknown text :: rest => ofArguments found (unrecognized ++ [text]) rest
  | .separator :: rest => ofArguments found (unrecognized ++ ["--"]) rest
  | .ofSwitch switch attached byLetter :: rest =>
      match attached with
      | some text =>
          if switch.takesText then
            ofArguments (found.give switch (.ofAttached text)) unrecognized rest
          else
            match excess? text byLetter with
            | some text => .error (.attachedText switch text)
            | none => .ok .help
      | none =>
          if switch.takesText then
            match rest with
            | .operand text :: rest =>
                ofArguments (found.give switch (.text text)) unrecognized rest
            | _ => .error (.missingText switch)
          else if switch = .help then .ok .help
          else ofArguments (found.give switch .blank) unrecognized rest

end Reading

/-- A misuse, with the part of the command line that it lies in. -/
structure ScopedMisuse where
  scope : Scope
  misuse : Misuse
  deriving DecidableEq, Repr

namespace Request

/-- What the arguments behind the command ask for, if those in `unrecognized` in front of it have
no meaning. -/
def ofCommand (unrecognized : List String) (texts : List String) :
    Except ScopedMisuse Request := do
  match Argument.ofTexts Switch.ofCommand texts >>= Reading.ofArguments {} [] with
  | .error misuse => throw ⟨.command, misuse⟩
  | .ok .help => return .help .command
  | .ok (.given arguments more) =>
      if unrecognized.isEmpty && more.isEmpty then return .generate arguments
      else throw ⟨.program, .unrecognized (unrecognized ++ more)⟩

/-- What a command line asks for, behind arguments that were read already. Each argument stands
beside its text. -/
def ofRow (unrecognized : List String) :
    List (String × Argument) → Except ScopedMisuse Request
  | [] =>
      if unrecognized.isEmpty then .ok .nothing
      else .error ⟨.program, .unrecognized unrecognized⟩
  | (text, .unknown _) :: rest => ofRow (unrecognized ++ [text]) rest
  | (_, .ofSwitch switch attached byLetter) :: _ =>
      match attached.bind fun text => excess? text byLetter with
      | some text => .error ⟨.program, .attachedText switch text⟩
      | none => .ok (.help .program)
  | (text, .separator) :: rest =>
      if rest.isEmpty then .error ⟨.program, .unrecognized (unrecognized ++ [text])⟩
      else .error ⟨.program, .unknownCommand text⟩
  | (text, .operand _) :: rest =>
      if text = "generate" then ofCommand unrecognized (rest.map (·.1))
      else .error ⟨.program, .unknownCommand text⟩

def ofArguments (texts : List String) : Except ScopedMisuse Request :=
  match Argument.ofTexts Switch.ofProgram texts with
  | .error misuse => .error ⟨.program, misuse⟩
  | .ok arguments => ofRow [] (texts.zip arguments)

end Request

end CommandLine

end RbacManifest
