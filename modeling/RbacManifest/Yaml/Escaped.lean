import RbacManifest.Text.Hex
import RbacManifest.Yaml.Folded

/-!
# Writing values between double quotes

Between double quotes every character can be written, if need be by its number. A line may end
anywhere behind a backslash; the indentation of the next line is not part of the value, so a space
at its start needs a backslash of its own.
-/

namespace RbacManifest

namespace Yaml

namespace Escaped

/-- The characters that have an escape of one letter, with their letters. -/
def letters : List (Char × Char) :=
  [('\x00', '0'), ('\x07', 'a'), ('\x08', 'b'), ('\t', 't'), ('\n', 'n'), ('\x0b', 'v'),
    ('\x0c', 'f'), ('\r', 'r'), ('\x1b', 'e'), ('"', '"'), ('\\', '\\'), ('\u0085', 'N'),
    ('\u00a0', '_'), ('\u2028', 'L'), ('\u2029', 'P')]

/-- Whether a character is written as it is. -/
def isLiteral (c : Char) : Bool :=
  let code := c.toNat
  ((0x20 ≤ code && code ≤ 0x7E) || (0xA0 ≤ code && code ≤ 0xD7FF)
      || (0xE000 ≤ code && code ≤ 0xFFFD))
    && !(c = '"' || c = '\\' || code = 0x2028 || code = 0x2029 || c = byteOrderMark)

def escape (c : Char) : List Char :=
  match letters.lookup c with
  | some letter => ['\\', letter]
  | none =>
      if c.toNat < 0x100 then '\\' :: 'x' :: Text.hex Text.upperHexDigit 2 c.toNat
      else if c.toNat < 0x10000 then '\\' :: 'u' :: Text.hex Text.upperHexDigit 4 c.toNat
      else '\\' :: 'U' :: Text.hex Text.upperHexDigit 8 c.toNat

/-- A line end inside the value, in front of the rest of the value. -/
def continuation (indent : Nat) (rest : List Char) : List Char :=
  '\\' :: Folded.newLine indent ++ (if Folded.startsWith (· = ' ') rest then ['\\'] else [])

/-- The column behind a continuation. -/
def continuationColumn (indent : Nat) (rest : List Char) : Nat :=
  if Folded.startsWith (· = ' ') rest then indent + 1 else indent

/-- What stands before the rest of a value. -/
inductive Before
  /-- Nothing: the value begins. -/
  | start
  | literal
  | escape
  deriving DecidableEq, Repr

/-- Whether a line may be broken in front of a character that is written as it is. -/
def breaksBefore (before : Before) (c : Char) : Bool :=
  match before with
  | .start => false
  | .literal => c = ' '
  | .escape => true

/-- The characters of a value, written from a column on. Lines are broken only where that is asked
for. -/
def write (splits : Bool) (indent column : Nat) (before : Before) : List Char → List Char
  | [] => []
  | c :: rest =>
      if isLiteral c then
        if splits && breaksBefore before c && !rest.isEmpty && Folded.width < column then
          continuation indent (c :: rest)
            ++ c :: write splits indent (continuationColumn indent (c :: rest) + 1) .literal rest
        else c :: write splits indent (column + 1) .literal rest
      else
        let chars := escape c
        let behind := column + chars.length
        if splits && before ≠ .start && !rest.isEmpty && Folded.width + 1 < behind then
          chars ++ continuation indent rest
            ++ write splits indent (continuationColumn indent rest) .escape rest
        else chars ++ write splits indent behind .escape rest

end Escaped

end Yaml

end RbacManifest
