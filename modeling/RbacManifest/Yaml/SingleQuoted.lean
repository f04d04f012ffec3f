import RbacManifest.Yaml.Gap

/-!
# Values between apostrophes

Between apostrophes every character stands for itself, except that an apostrophe is written twice
and that gaps over lines are folded.
-/

namespace RbacManifest

namespace Yaml

namespace SingleQuoted

/-- Reads the rest of a value behind a gap, up to its closing apostrophe. -/
def read (gap : Gap) : List Cell → Option (List Char × List Cell)
  | [] => none
  | cell :: rest =>
      let c := cell.char
      if c = endMark then none
      else if c = ' ' ∨ c = '\t' then read (gap.addBlank c) rest
      else if isBreak c then
        if Cell.isDocumentMark rest then none else read (gap.addBreak c) rest
      else if c = '\'' then
        match rest with
        | [] => some (gap.text, [])
        | next :: more =>
            if next.char = '\'' then
              (read Gap.empty more).map fun (text, rest) => (gap.text ++ '\'' :: text, rest)
            else some (gap.text, next :: more)
      else (read Gap.empty rest).map fun (text, rest) => (gap.text ++ c :: text, rest)

end SingleQuoted

end Yaml

end RbacManifest
