import RbacManifest.Yaml.Cell

/-!
# Writing values with folded lines

Plain values and values between apostrophes are broken where a single space stands to the right
of the column `Folded.width`. Line ends of the value itself are written twice where reading would
make a space of them.
-/

namespace RbacManifest

namespace Yaml

namespace Folded

/-- The column behind which lines are broken. -/
def width : Nat := 80

/-- A line end and the indentation of the next line. -/
def newLine (indent : Nat) : List Char :=
  '\n' :: List.replicate indent ' '

/-- Whether the rest of a text starts with a character of the given kind. -/
def startsWith (condition : Char → Bool) (rest : List Char) : Bool :=
  rest.head?.any condition

/-- The characters of a plain value, written from a column on. The character before them is
given. -/
def plain (indent column : Nat) (before : Char) : List Char → List Char
  | [] => []
  | c :: rest =>
      if c = ' ' ∧ before ≠ ' ' ∧ width < column ∧ startsWith (· ≠ ' ') rest then
        newLine indent ++ plain indent indent c rest
      else c :: plain indent (column + 1) c rest

/-- The characters of a value between apostrophes, written from a column on. The character before
them is given, if there is one. Lines are broken only where that is asked for. -/
def quoted (splits : Bool) (indent column : Nat) (before : Option Char) :
    List Char → List Char
  | [] => []
  | c :: rest =>
      if isBreak c then
        let doubled := c = '\n' && !before.any isBreak
        let indentation :=
          if startsWith isBreak rest then [] else List.replicate indent ' '
        (if doubled then ['\n', c] else [c]) ++ indentation
          ++ quoted splits indent indent (some c) rest
      else if c = ' ' ∧ before.any (· ≠ ' ') ∧ width < column ∧ splits
          ∧ startsWith (· ≠ ' ') rest then
        newLine indent ++ quoted splits indent indent (some c) rest
      else if c = '\'' then
        '\'' :: '\'' :: quoted splits indent (column + 2) (some c) rest
      else c :: quoted splits indent (column + 1) (some c) rest

end Folded

end Yaml

end RbacManifest
