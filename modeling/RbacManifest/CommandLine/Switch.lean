import RbacManifest.Text.Digit
import RbacManifest.Text.Quoted
import RbacManifest.Text.Split

/-!
# Arguments of the command line

An argument is a switch, or an operand. A switch may be shortened as long as it is still clear
which one is meant, and the text of a switch may be attached behind an equals sign. What looks like
a negative number or has a space in it is an operand even if it starts with a dash; so is
everything behind two dashes.
-/

namespace RbacManifest

namespace CommandLine

inductive Switch
  | help
  | debug
  | config
  | name
  | inputDirectory
  | outputDirectory
  | label
  deriving DecidableEq, Repr

namespace Switch

/-- The long spelling of a switch. -/
def spelling : Switch → String
  | help => "--help"
  | debug => "--debug"
  | config => "--config"
  | name => "--name"
  | inputDirectory => "--input-dir"
  | outputDirectory => "--output-dir"
  | label => "--label"

/-- All spellings of a switch, as messages name it. -/
def describe : Switch → String
  | help => "-h/--help"
  | switch => switch.spelling

/-- Whether a text belongs to a switch. -/
def takesText : Switch → Bool
  | help => false
  | debug => false
  | _ => true

/-- The switches in front of the command. -/
def ofProgram : List Switch := [help]

/-- The switches behind the command. -/
def ofCommand : List Switch :=
  [help, debug, config, name, inputDirectory, outputDirectory, label]

end Switch

/-- The letter that stands for the switch `help`, behind a dash. -/
def helpLetter : Char := 'h'

inductive Argument
  | operand (text : String)
  /-- Two dashes. -/
  | separator
  /-- A switch, with the text attached to it and whether it is given by its letter. -/
  | ofSwitch (switch : Switch) (attached : Option (List Char)) (byLetter : Bool)
  /-- What looks like a switch, but is none. -/
  | unknown (text : String)
  deriving DecidableEq, Repr

/-- Why a command line cannot be used. -/
inductive Misuse
  /-- A shortened switch may be one of several. -/
  | ambiguous (argument : String) (switches : List Switch)
  /-- A text is attached to a switch that takes none. -/
  | attachedText (switch : Switch) (text : List Char)
  | missingText (switch : Switch)
  | unknownCommand (text : String)
  | unrecognized (arguments : List String)
  deriving DecidableEq, Repr

def Misuse.message : Misuse → String
  | .ambiguous argument switches =>
      s!"ambiguous option: {argument} could match " ++
        Text.commaSeparated (switches.map Switch.spelling)
  | .attachedText switch text =>
      s!"argument {switch.describe}: ignored explicit argument " ++
        Text.quoted (String.ofList text)
  | .missingText switch => s!"argument {switch.describe}: expected one argument"
  | .unknownCommand text =>
      s!"argument command: invalid choice: {Text.quoted text} (choose from 'generate')"
  | .unrecognized arguments =>
      "unrecognized arguments: " ++ String.intercalate " " arguments

namespace Argument

/-- Whether a text is not empty and consists of decimal digits. -/
def isNumeral (text : List Char) : Bool :=
  !text.isEmpty && text.all Text.isDecimal

/-- Whether what follows a dash makes it a negative number. A line end may follow. -/
def isNumber (text : List Char) : Bool :=
  let text := if text.getLast? = some '\n' then text.dropLast else text
  isNumeral text ||
    match Text.cut? '.' text with
    | some (whole, fraction) => whole.all Text.isDecimal && isNumeral fraction
    | none => false

/-- The switch with a spelling, and whether that is its letter. -/
def spelled? (switches : List Switch) (text : List Char) : Option (Switch × Bool) :=
  if text = ['-', helpLetter] then
    if switches.contains .help then some (.help, true) else none
  else
    (switches.find? fun switch => switch.spelling.toList = text).map fun switch => (switch, false)

/-- The switches whose spelling starts with a text. -/
def startingWith (switches : List Switch) (text : List Char) : List Switch :=
  switches.filter fun switch => (Text.after? text switch.spelling.toList).isSome

/-- An argument that starts with a dash and is no switch. -/
def dashed (chars : List Char) : Argument :=
  let text := String.ofList chars
  if isNumber (chars.drop 1) || chars.contains ' ' then .operand text else .unknown text

/-- An argument that starts with two dashes and may be a shortened switch. -/
def shortened (switches : List Switch) (chars : List Char) : Except Misuse Argument :=
  let (start, attached) :=
    match Text.cut? '=' chars with
    | some (start, text) => (start, some text)
    | none => (chars, none)
  match startingWith switches start with
  | [] => .ok (dashed chars)
  | [switch] => .ok (.ofSwitch switch attached false)
  | several => .error (.ambiguous (String.ofList chars) several)

/-- What an argument is, other than two dashes. -/
def ofText (switches : List Switch) (text : String) : Except Misuse Argument :=
  let chars := text.toList
  if chars.head? ≠ some '-' ∨ chars = ['-'] then .ok (.operand text)
  else
    match spelled? switches chars with
    | some (switch, byLetter) => .ok (.ofSwitch switch none byLetter)
    | none =>
        let spelledInFront :=
          (Text.cut? '=' chars).bind fun (name, attached) =>
            (spelled? switches name).map fun (switch, byLetter) =>
              Argument.ofSwitch switch (some attached) byLetter
        match spelledInFront with
        | some argument => .ok argument
        | none =>
            if chars.take 2 = ['-', '-'] then shortened switches chars
            else if chars.take 2 = ['-', helpLetter] ∧ switches.contains .help then
              .ok (.ofSwitch .help (some (chars.drop 2)) true)
            else .ok (dashed chars)

/-- What the arguments of a row are. Behind two dashes there are only operands. -/
def ofTexts (switches : List Switch) : List String → Except Misuse (List Argument)
  | [] => .ok []
  | text :: rest =>
      if text = "--" then .ok (.separator :: rest.map .operand)
      else do
        let argument ← ofText switches text
        return argument :: (← ofTexts switches rest)

end Argument

end CommandLine

end RbacManifest
