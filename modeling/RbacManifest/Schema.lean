import RbacManifest.Failure
import RbacManifest.Value.Holding

/-!
# The form of configurations

A configuration may have sections, and a section may have fields of certain types. What the form
does not mention is allowed and ignored, and null stands for what is missing. `Schema.check`
reports the first part that has the wrong type, in the order of the form.
-/

namespace RbacManifest

namespace Schema

inductive FieldType
  | text
  | truthValue
  /-- A mapping from texts to texts. -/
  | texts
  deriving DecidableEq, Repr

/-- The sections of a configuration with their fields. -/
def sections : List (String × List (String × FieldType)) :=
  [("generate",
      [("name", .text), ("inputDir", .text), ("outputDir", .text), ("labels", .texts)]),
    ("global", [("debug", .truthValue)])]

/-- Whether a value is a number with more digits than a numeral may have. -/
def isTooLong : Value → Bool
  | .int value => Nat.pow 10 Numeral.mostDigits ≤ value.natAbs
  | _ => false

/-- Why an entry with a key is not allowed in a mapping from texts to texts. It cannot be named if
its key is a number that no numeral can be written for. -/
def entryFailure (place : String) (key : Value) : Failure :=
  if isTooLong key then .configurationValue (.longInteger none)
  else .configurationType s!"{place}.{key.display}" "str"

/-- Checks that the entries of a mapping are pairs of texts. -/
def checkTexts (place : String) : Entries → Except Failure Unit
  | [] => .ok ()
  | (key, value) :: rest =>
      match key, value with
      | .text _, .text _ => checkTexts place rest
      | _, _ => .error (entryFailure place key)

def checkField (place : String) (type : FieldType) (value : Value) : Except Failure Unit :=
  match type, value with
  | _, .null => .ok ()
  | .text, .text _ => .ok ()
  | .text, _ => .error (.configurationType place "str")
  | .truthValue, .bool _ => .ok ()
  | .truthValue, _ => .error (.configurationType place "bool")
  | .texts, .mapping entries => checkTexts place (Entries.opened entries)
  | .texts, _ => .error (.configurationType place "dict")

def checkFields (place : String) (entries : Entries) :
    List (String × FieldType) → Except Failure Unit
  | [] => .ok ()
  | (name, type) :: rest => do
      match entries.get? name with
      | none => pure ()
      | some value => checkField s!"{place}.{name}" type value
      checkFields place entries rest

def checkSections (entries : Entries) :
    List (String × List (String × FieldType)) → Except Failure Unit
  | [] => .ok ()
  | (name, fields) :: rest => do
      match entries.get? name with
      | none | some .null => pure ()
      | some (.mapping content) => checkFields name (Entries.opened content) fields
      | some _ => throw (.configurationType name "dict")
      checkSections entries rest

def check (entries : Entries) : Except Failure Unit :=
  checkSections entries.opened sections

end Schema

end RbacManifest
