/-!
# Texts with places

The reader of a document looks at characters together with the places where they stand: the
layout of lines and columns is part of a document's form. `Cell.place` writes the places beside
the characters once and for all and closes the text with an end mark, so that reading is a walk
along a list.

A line ends with a line feed, a next line, a line separator or a paragraph separator; other line
ends are unified before a document is read.
-/

namespace RbacManifest

namespace Yaml

/-- The character of the mark behind a text. It is not among the characters of documents. -/
def endMark : Char := '\x00'

/-- Whether a character ends a line. -/
def isBreak (c : Char) : Bool :=
  c = '\n' ∨ c.toNat = 0x85 ∨ c.toNat = 0x2028 ∨ c.toNat = 0x2029

/-- Whether a character ends a line or the text. -/
def isBreakOrEnd (c : Char) : Bool :=
  isBreak c || c = endMark

/-- Whether a character is a space, ends a line or ends the text. -/
def isSpaceOrEnd (c : Char) : Bool :=
  c = ' ' || isBreakOrEnd c

/-- Whether a character is a space or a tab, ends a line or ends the text. -/
def isBlankOrEnd (c : Char) : Bool :=
  c = '\t' || isSpaceOrEnd c

/-- Whether a character may stand in a document. -/
def isDocumentChar (c : Char) : Bool :=
  let code := c.toNat
  code = 0x9 || code = 0xA || code = 0xD || (0x20 ≤ code && code ≤ 0x7E) || code = 0x85
    || (0xA0 ≤ code && code ≤ 0xFFFD) || 0x10000 ≤ code

/-- The mark that may stand before the first character of a text, and takes no column. -/
def byteOrderMark : Char := '\ufeff'

/-- A character at its place. -/
structure Cell where
  char : Char
  line : Nat
  column : Nat
  /-- The number of characters before this one. -/
  index : Nat
  deriving DecidableEq, Repr

namespace Cell

/-- A text beside its places, from a given place on, with an end mark behind it. -/
def place (line column index : Nat) : List Char → List Cell
  | [] => [⟨endMark, line, column, index⟩]
  | c :: rest =>
      ⟨c, line, column, index⟩ ::
        (if isBreak c then place (line + 1) 0 (index + 1) rest
        else if c = byteOrderMark then place line column (index + 1) rest
        else place line (column + 1) (index + 1) rest)

def peek : List Cell → Char
  | [] => endMark
  | cell :: _ => cell.char

def peekSecond : List Cell → Char
  | _ :: cell :: _ => cell.char
  | _ => endMark

/-- The cells at the start that satisfy a condition, as characters, and the cells behind them. -/
def span (condition : Char → Bool) : List Cell → List Char × List Cell
  | [] => ([], [])
  | cell :: rest =>
      if condition cell.char then
        let (chars, rest) := span condition rest
        (cell.char :: chars, rest)
      else ([], cell :: rest)

/-- The cells behind those at the start that satisfy a condition. -/
def skip (condition : Char → Bool) (cells : List Cell) : List Cell :=
  cells.dropWhile fun cell => condition cell.char

/-- Whether a line starts with three given characters that stand alone. -/
def isLineMark (mark : Char) : List Cell → Bool
  | first :: second :: third :: rest =>
      first.char = mark && second.char = mark && third.char = mark && isBlankOrEnd (peek rest)
  | _ => false

/-- Whether a line starts with the mark that begins or the mark that ends a document. -/
def isDocumentMark (cells : List Cell) : Bool :=
  isLineMark '-' cells || isLineMark '.' cells

end Cell

end Yaml

end RbacManifest
