import RbacManifest.Options
import RbacManifest.Text.LowerCase

/-!
# Defaults from the environment

Variables of the environment give defaults for the options that can be named in them, and say
whether the log shows everything.
-/

namespace RbacManifest

abbrev Environment := List (String × String)

/-- What holds for options that are given nowhere else. -/
structure Defaults where
  name : String
  inputDirectory : String
  outputDirectory : String
  debug : Bool
  deriving DecidableEq, Repr

namespace Environment

def wordsForTrue : List String := ["y", "yes", "t", "true", "on", "1"]

def wordsForFalse : List String := ["n", "no", "f", "false", "off", "0"]

/-- The truth value that a variable states. An empty one states false. -/
def truthValue (text : String) : Except Failure Bool :=
  let word := Text.lowered text
  if text = "" then .ok false
  else if wordsForTrue.contains word then .ok true
  else if wordsForFalse.contains word then .ok false
  else .error (.truthValue word)

/-- The defaults in an environment. -/
def defaults (environment : Environment) : Except Failure Defaults := do
  let usual : Options := {}
  let debug ←
    match environment.lookup "RBAC_GENERATOR_DEBUG" with
    | none => pure false
    | some text => truthValue text
  return {
    name := (environment.lookup "RBAC_GENERATOR_NAME").getD usual.name
    inputDirectory := (environment.lookup "RBAC_GENERATOR_INPUT_DIR").getD usual.inputDirectory
    outputDirectory :=
      (environment.lookup "RBAC_GENERATOR_OUTPUT_DIR").getD usual.outputDirectory
    debug }

end Environment

end RbacManifest
