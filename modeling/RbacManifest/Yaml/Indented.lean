import RbacManifest.Yaml.Gap

/-!
# Indented values

A value behind a bar or a greater-than sign consists of the following lines that are indented far
enough. Behind a bar the line ends stand for themselves; behind a greater-than sign single line
ends between lines of text stand for spaces.
-/

namespace RbacManifest

namespace Yaml

namespace Indented

/-- What becomes of the line ends behind the last line of text. -/
inductive Chomping
  /-- The first one is kept. -/
  | clip
  /-- None is kept. -/
  | strip
  /-- All are kept. -/
  | keep
  deriving DecidableEq, Repr

/-- The indicators behind the bar or the greater-than sign. -/
structure Header where
  chomping : Chomping := .clip
  /-- The indentation of the lines, relative to the surrounding collection. -/
  increment : Option Nat := none

def chomping? (c : Char) : Option Chomping :=
  if c = '+' then some .keep else if c = '-' then some .strip else none

def increment? (c : Char) : Option Nat :=
  if '1' ≤ c ∧ c ≤ '9' then some (c.toNat - 0x30) else none

def readIndicators (cells : List Cell) : Header × List Cell :=
  match chomping? (Cell.peek cells) with
  | some chomping =>
      let cells := cells.drop 1
      match increment? (Cell.peek cells) with
      | some increment => (⟨chomping, some increment⟩, cells.drop 1)
      | none => (⟨chomping, none⟩, cells)
  | none =>
      match increment? (Cell.peek cells) with
      | some increment =>
          let cells := cells.drop 1
          match chomping? (Cell.peek cells) with
          | some chomping => (⟨chomping, some increment⟩, cells.drop 1)
          | none => (⟨.clip, some increment⟩, cells)
      | none => ({}, cells)

/-- Reads the rest of the header line, which holds at most a comment. -/
def endHeader? (cells : List Cell) : Option (List Cell) :=
  if !isSpaceOrEnd (Cell.peek cells) then none
  else
    let cells := Cell.skip (· = ' ') cells
    let cells := if Cell.peek cells = '#' then Cell.skip (!isBreakOrEnd ·) cells else cells
    if !isBreakOrEnd (Cell.peek cells) then none
    else if isBreak (Cell.peek cells) then some (cells.drop 1)
    else some cells

/-- Reads the line ends in front of the first line of text and finds the greatest column that the
spaces in front of it reach. -/
def leading (reversed : List Char) (greatest : Nat) : List Cell → List Char × Nat × List Cell
  | [] => (reversed, greatest, [])
  | cell :: rest =>
      if cell.char = ' ' then leading reversed (max greatest (cell.column + 1)) rest
      else if isBreak cell.char then leading (Gap.lineEnd cell.char :: reversed) greatest rest
      else (reversed, greatest, cell :: rest)

/-- Where in a value the reader is. -/
inductive Mode
  /-- In a line, which starts with a character other than a blank or not. -/
  | line (startsWithText : Bool)
  /-- Behind the end of a line, of which it is known whether it started with text, and further
  line ends, the last one first. -/
  | between (lineEnd : Option Char) (startsWithText : Bool) (reversed : List Char)

/-- What stands for the line ends between two lines of text. -/
def joint (folded : Bool) (lineEnd : Option Char) (textBefore textBehind : Bool)
    (reversed : List Char) : List Char :=
  match lineEnd with
  | none => reversed.reverse
  | some first =>
      if folded && first = '\n' && textBefore && textBehind then
        (if reversed.isEmpty then [' '] else reversed.reverse)
      else first :: reversed.reverse

/-- What is kept of the line ends behind the last line of text. -/
def tail (chomping : Chomping) (lineEnd : Option Char) (reversed : List Char) : List Char :=
  match chomping with
  | .strip => []
  | .clip => lineEnd.toList
  | .keep => lineEnd.toList ++ reversed.reverse

/-- Reads lines that are indented to a column. -/
def readLines (folded : Bool) (chomping : Chomping) (column : Nat) (mode : Mode) :
    List Cell → List Char × List Cell
  | [] => ([], [])
  | cell :: rest =>
      let c := cell.char
      match mode with
      | .line startsWithText =>
          if isBreak c then
            readLines folded chomping column
              (.between (some (Gap.lineEnd c)) startsWithText []) rest
          else if c = endMark then ([], cell :: rest)
          else
            let (text, rest) := readLines folded chomping column (.line startsWithText) rest
            (c :: text, rest)
      | .between lineEnd textBefore reversed =>
          if c = ' ' ∧ cell.column < column then
            readLines folded chomping column (.between lineEnd textBefore reversed) rest
          else if isBreak c then
            readLines folded chomping column
              (.between lineEnd textBefore (Gap.lineEnd c :: reversed)) rest
          else if cell.column = column ∧ c ≠ endMark then
            let textBehind := c ≠ ' ' ∧ c ≠ '\t'
            let before := joint folded lineEnd textBefore textBehind reversed
            let (text, rest) := readLines folded chomping column (.line textBehind) rest
            (before ++ c :: text, rest)
          else (tail chomping lineEnd reversed, cell :: rest)

/-- Reads a value behind its bar or greater-than sign, inside a collection that is indented to
the given column, or to `-1` outside of all collections. -/
def read? (folded : Bool) (outer : Int) (cells : List Cell) :
    Option (List Char × List Cell) := do
  let (header, cells) := readIndicators cells
  let cells ← endHeader? cells
  let least := (max 1 (outer + 1)).toNat
  match header.increment with
  | some increment =>
      return readLines folded header.chomping (least + increment - 1) (.between none false []) cells
  | none =>
      let (reversed, greatest, cells) := leading [] 0 cells
      return readLines folded header.chomping (max least greatest) (.between none false reversed)
        cells

end Indented

end Yaml

end RbacManifest
