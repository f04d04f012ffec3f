import RbacManifest.CommandLine.Request

/-!
# Help texts

The texts that explain the command line, for the program and for its command.
-/

namespace RbacManifest

namespace CommandLine

/-- Lines as one text, each with its end. -/
def linesText (lines : List String) : String :=
  String.join (lines.map (· ++ "\n"))

namespace Scope

/-- How the program is named in a scope. -/
def title : Scope → String
  | program => "rbac-generator"
  | command => "rbac-generator generate"

/-- The form of a command line. -/
def usage : Scope → String
  | program => linesText ["usage: rbac-generator [-h] \x7bgenerate\x7d ..."]
  | command =>
      linesText [
        "usage: rbac-generator generate [-h] [--debug] [--config CONFIG] [--name NAME]",
        "                               [--input-dir INPUT_DIR]",
        "                               [--output-dir OUTPUT_DIR] [--label KEY=VALUE]"]

/-- What the help says behind the form of a command line. -/
def explanation : Scope → String
  | program =>
      linesText [
        "",
        "RBAC Generator - Generate RBAC manifests from RBAC annotations in source files",
        "",
        "positional arguments:",
        "  \x7bgenerate\x7d  Available commands",
        "    generate  Generate RBAC manifests",
        "",
        "options:",
        "  -h, --help  show this help message and exit",
        "",
        "Examples:",
        "  rbac-generator generate",
        "  rbac-generator generate --name manager --input-dir ./pkg --output-dir ./config",
        "  rbac-generator generate --label app.kubernetes.io/name=my-operator --config rbac.yaml",
        "        "]
  | command =>
      linesText [
        "",
        "Generate ClusterRole and ClusterRoleBinding manifests from RBAC annotations",
        "",
        "options:",
        "  -h, --help            show this help message and exit",
        "  --debug               Enable debug logging",
        "  --config CONFIG       Configuration file path",
        "  --name NAME           Name to be used as prefix in identifier for manifests",
        "                        (default: manager)",
        "  --input-dir INPUT_DIR",
        "                        Input directory pointing to annotated source files",
        "                        (default: ./pkg)",
        "  --output-dir OUTPUT_DIR",
        "                        Output directory where generated manifests will be",
        "                        saved (default: ./config)",
        "  --label KEY=VALUE     Label added to both manifests (repeatable)"]

def help (scope : Scope) : String :=
  scope.usage ++ scope.explanation

end Scope

def ScopedMisuse.report (misuse : ScopedMisuse) : String :=
  misuse.scope.usage ++ s!"{misuse.scope.title}: error: {misuse.misuse.message}\n"

end CommandLine

end RbacManifest
