import RbacManifest.Yaml.Cell

/-!
# Gaps inside a value

A value may go on over several lines. The blanks and line ends between two of its characters form
a gap. A gap within a line stands for itself; in a gap over lines the blanks do not count, a
single line end stands for a space, and further line ends stand for themselves.
-/

namespace RbacManifest

namespace Yaml

/-- What is read between two characters of a value. -/
inductive Gap
  /-- Blanks within a line, the last one first. -/
  | blanks (reversed : List Char)
  /-- Line ends: the first one, unless it was escaped, and the further ones, the last one first. -/
  | lines (first : Option Char) (reversed : List Char)
  deriving DecidableEq, Repr

namespace Gap

def empty : Gap := blanks []

/-- A line end as it counts in a value. -/
def lineEnd (c : Char) : Char :=
  if c.toNat = 0x85 then '\n' else c

def addBlank (c : Char) : Gap → Gap
  | blanks reversed => blanks (c :: reversed)
  | lines first reversed => lines first reversed

def addBreak (c : Char) : Gap → Gap
  | blanks _ => lines (some (lineEnd c)) []
  | lines first reversed => lines first (lineEnd c :: reversed)

/-- What a gap stands for. -/
def text : Gap → List Char
  | blanks reversed => reversed.reverse
  | lines none reversed => reversed.reverse
  | lines (some first) reversed =>
      if first ≠ '\n' then first :: reversed.reverse
      else if reversed.isEmpty then [' ']
      else reversed.reverse

/-- Whether a gap goes over lines. -/
def isLines : Gap → Bool
  | blanks _ => false
  | lines _ _ => true

def isEmpty : Gap → Bool
  | blanks reversed => reversed.isEmpty
  | lines _ _ => false

end Gap

end Yaml

end RbacManifest
