import RbacManifest.Yaml.DoubleQuoted
import RbacManifest.Yaml.Indented
import RbacManifest.Yaml.Plain
import RbacManifest.Yaml.SingleQuoted
import RbacManifest.Text.Utf8
import RbacManifest.Yaml.Token

/-!
# Reading tokens

`Token.ofText` reads the tokens of a text. Collections that are given by indentation begin and
end where the column of the next token says so; the state of the reading keeps the columns of the
open ones, the depth of the brackets around the next token, and the places where a key may still
turn out to have begun. Such a place is given up when its line ends or after 1024 characters.
-/

namespace RbacManifest

namespace Yaml

/-- A place where a key may have begun. -/
structure PossibleKey where
  /-- The number of brackets around it. -/
  depth : Nat
  index : Nat
  line : Nat
  column : Nat
  /-- Whether something other than a key cannot stand there. -/
  required : Bool

/-- The state between two tokens. -/
structure Scan where
  rest : List Cell
  /-- The number of brackets around the next token. -/
  depth : Nat := 0
  /-- The column of the innermost collection that is given by indentation. -/
  indent : Int := -1
  /-- The columns of the collections around it, the innermost one first. -/
  outer : List Int := []
  /-- Whether a key may begin at the next token. -/
  keyAllowed : Bool := true
  /-- The places where a key may have begun, at most one for each depth. -/
  possible : List PossibleKey := []

namespace Scan

/-- The greatest distance between the first character of a key and its colon. -/
def longestKey : Nat := 1024

/-- What one step of the reading gives. -/
inductive Step
  /-- Lexemes, and the state behind them. -/
  | more (lexemes : List Lexeme) (state : Scan)
  /-- Lexemes, after which there is nothing more. -/
  | last (lexemes : List Lexeme)
  /-- The text is no token there. -/
  | failed (fault : Fault)

def Step.malformed : Step := .failed .malformed

/-- Skips spaces, comments and line ends in front of a token; tells whether a line ended. -/
def skipGap (inComment : Bool) : List Cell → List Cell × Bool
  | [] => ([], false)
  | cell :: rest =>
      if isBreak cell.char then ((skipGap false rest).1, true)
      else if inComment then
        if cell.char = endMark then (cell :: rest, false) else skipGap true rest
      else if cell.char = ' ' then skipGap false rest
      else if cell.char = '#' then skipGap true rest
      else (cell :: rest, false)

/-- Skips what stands in front of the next token. -/
def toToken (state : Scan) : Scan :=
  let cells :=
    match state.rest with
    | cell :: rest => if cell.index = 0 ∧ cell.char = byteOrderMark then rest else cell :: rest
    | [] => []
  let (rest, endedLine) := skipGap false cells
  { state with rest, keyAllowed := state.keyAllowed || (endedLine && state.depth = 0) }

/-- The column of the next token. -/
def column (state : Scan) : Nat :=
  match state.rest with
  | cell :: _ => cell.column
  | [] => 0

/-- Whether no key can reach a cell from a place where it may have begun. -/
def isStale (cell : Cell) (key : PossibleKey) : Bool :=
  key.line ≠ cell.line || longestKey < cell.index - key.index

/-- Gives up the places from which no key can reach the next token. Fails if a key was required
at one of them. -/
def dropStale? (state : Scan) : Option Scan :=
  match state.rest with
  | [] => some state
  | cell :: _ =>
      if state.possible.any fun key => isStale cell key && key.required then none
      else some { state with possible := state.possible.filter fun key => !isStale cell key }

/-- The first place from which a key can still reach the end of the token before. -/
def awaited? (state : Scan) : Option Nat :=
  match state.rest with
  | [] => none
  | cell :: _ => ((state.possible.filter fun key => !isStale cell key).map (·.index)).min?

/-- Closes the collections that a column lies to the left of, and tells how many these are. -/
def closeTo (column : Int) (indent : Int) : List Int → Nat × Int × List Int
  | [] => (0, indent, [])
  | next :: outer =>
      if column < indent then
        let (count, indent, outer) := closeTo column next outer
        (count + 1, indent, outer)
      else (0, indent, next :: outer)

/-- Closes the collections that the next token lies to the left of. -/
def unwind (column : Int) (state : Scan) : List Lexeme × Scan :=
  if state.depth ≠ 0 then ([], state)
  else
    let (count, indent, outer) := closeTo column state.indent state.outer
    (List.replicate count (.token .blockEnd), { state with indent, outer })

/-- Opens a collection at a column to the right of the innermost one; tells whether it did. -/
def openAt (column : Nat) (state : Scan) : Bool × Scan :=
  if state.indent < column then
    (true, { state with indent := column, outer := state.indent :: state.outer })
  else (false, state)

/-- Gives up the place at the present depth. Fails if a key was required there. -/
def dropPossible? (state : Scan) : Option Scan :=
  if state.possible.any fun key => key.depth = state.depth && key.required then none
  else some { state with possible := state.possible.filter (·.depth ≠ state.depth) }

/-- Notes that a key may begin at the next token. -/
def notePossible? (state : Scan) : Option (List Lexeme × Scan) :=
  if !state.keyAllowed then some ([], state)
  else do
    let state ← state.dropPossible?
    match state.rest with
    | [] => some ([], state)
    | cell :: _ =>
        let key : PossibleKey :=
          { depth := state.depth, index := cell.index, line := cell.line, column := cell.column
            required := state.depth = 0 ∧ state.indent = cell.column }
        some ([.mark cell.index], { state with possible := key :: state.possible })

/-- The step that reads a token whose first character is one of the indicators of collections
with brackets. -/
def bracket (state : Scan) (token : Token) (opens : Bool) : Step :=
  if opens then
    match state.notePossible? with
    | none => .malformed
    | some (marks, state) =>
        .more (marks ++ [.token token])
          { state with rest := state.rest.drop 1, depth := state.depth + 1, keyAllowed := true }
  else
    match state.dropPossible? with
    | none => .malformed
    | some state =>
        if state.depth = 0 then .malformed
        else
          .more [.token token]
            { state with rest := state.rest.drop 1, depth := state.depth - 1, keyAllowed := false }

def comma (state : Scan) : Step :=
  match state.dropPossible? with
  | none => .malformed
  | some state =>
      .more [.token .comma] { state with rest := state.rest.drop 1, keyAllowed := true }

/-- The step that reads the dash before a member of a list. -/
def entry (state : Scan) : Step :=
  if state.depth = 0 && !state.keyAllowed then .malformed
  else
    let (opens, state) := if state.depth = 0 then openAt state.column state else (false, state)
    match state.dropPossible? with
    | none => .malformed
    | some state =>
        .more ((if opens then [.token .blockList] else []) ++ [.token .entry])
          { state with rest := state.rest.drop 1, keyAllowed := true }

/-- The step that reads the question mark before a key. -/
def questionMark (state : Scan) : Step :=
  if state.depth = 0 && !state.keyAllowed then .malformed
  else
    let (opens, state) := if state.depth = 0 then openAt state.column state else (false, state)
    match state.dropPossible? with
    | none => .malformed
    | some state =>
        .more ((if opens then [.token .blockMapping] else []) ++ [.token .key])
          { state with rest := state.rest.drop 1, keyAllowed := state.depth = 0 }

/-- The step that reads the colon behind a key. -/
def colon (state : Scan) : Step :=
  match state.possible.find? (·.depth = state.depth) with
  | some key =>
      let state := { state with possible := state.possible.filter (·.depth ≠ state.depth) }
      let (opens, state) := if state.depth = 0 then openAt key.column state else (false, state)
      .more [.colon key.index opens]
        { state with rest := state.rest.drop 1, keyAllowed := false }
  | none =>
      if state.depth = 0 && !state.keyAllowed then .malformed
      else
        let (opens, state) := if state.depth = 0 then openAt state.column state else (false, state)
        .more ((if opens then [.token .blockMapping] else []) ++ [.token .value])
          { state with rest := state.rest.drop 1, keyAllowed := state.depth = 0 }

/-- Whether a character may stand in the name of an anchor, a directive or a handle. -/
def isNameChar (c : Char) : Bool :=
  c.isAlphanum || c = '-' || c = '_'

/-- The step that reads a token at which a key may begin. -/
def atPossibleKey (state : Scan) (read : List Cell → Except Fault (Token × List Cell × Bool)) :
    Step :=
  match state.notePossible? with
  | none => .malformed
  | some (marks, state) =>
      match read state.rest with
      | .error fault => .failed fault
      | .ok (token, rest, keyAllowed) =>
          .more (marks ++ [.token token]) { state with rest, keyAllowed }

/-- Reads the name behind the indicator of an anchor or an alias. -/
def readName (token : String → Token) (cells : List Cell) :
    Except Fault (Token × List Cell × Bool) :=
  let (name, rest) := Cell.span isNameChar (cells.drop 1)
  let c := Cell.peek rest
  if name.isEmpty || !(isBlankOrEnd c || "?:,]\x7d%@`".toList.contains c) then
    .error .malformed
  else .ok (token (String.ofList name), rest, false)

/-- Reads the bytes of percent escapes. -/
def readPercent (bytes : List UInt8) : List Cell → Option (List UInt8 × List Cell)
  | percent :: high :: low :: rest =>
      if percent.char = '%' then
        match Text.hexValue? high.char, Text.hexValue? low.char with
        | some first, some second => readPercent (UInt8.ofNat (first * 16 + second) :: bytes) rest
        | _, _ => none
      else some (bytes.reverse, percent :: high :: low :: rest)
  | rest => if Cell.peek rest = '%' then none else some (bytes.reverse, rest)

/-- Whether a character may stand in a tag. -/
def isTagChar (c : Char) : Bool :=
  c.isAlphanum || "-;/?:@&=+$,_.!~*'()[]%".toList.contains c

/-- Reads the characters of a tag. Percent escapes stand for the bytes of characters. -/
def readTagChars : (fuel : Nat) → List Cell → Option (List Char × List Cell)
  | 0, rest => some ([], rest)
  | fuel + 1, rest =>
      let c := Cell.peek rest
      if c = '%' then do
        let (bytes, rest) ← readPercent [] rest
        let chars ← (Text.decode bytes).toOption
        let (more, rest) ← readTagChars fuel rest
        return (chars ++ more, rest)
      else if isTagChar c then do
        let (more, rest) ← readTagChars fuel (rest.drop 1)
        return (c :: more, rest)
      else some ([], rest)

/-- Reads the part of a tag that is not its handle, which may not be empty. -/
def readSuffix (cells : List Cell) : Option (String × List Cell) := do
  let (chars, rest) ← readTagChars cells.length cells
  let isEmpty := !isTagChar (Cell.peek cells)
  if isEmpty then none else return (String.ofList chars, rest)

/-- Reads the handle of a tag. -/
def readHandle (cells : List Cell) : Option (String × List Cell) :=
  if Cell.peek cells ≠ '!' then none
  else
    let rest := cells.drop 1
    if Cell.peek rest = ' ' then some ("!", rest)
    else
      let (name, rest) := Cell.span isNameChar rest
      if Cell.peek rest = '!' then
        some (String.ofList ('!' :: name ++ ['!']), rest.drop 1)
      else none

/-- Whether a second exclamation mark follows before the next space or line end. -/
def hasHandle (cells : List Cell) : Bool :=
  (Cell.span (!isSpaceOrEnd ·) cells).1.contains '!'

/-- Reads a tag without what has to follow it. -/
def readTagParts (cells : List Cell) : Option (Option String × String × List Cell) := do
  let c := Cell.peekSecond cells
  if c = '<' then
    let (suffix, rest) ← readSuffix (cells.drop 2)
    if Cell.peek rest = '>' then return (none, suffix, rest.drop 1) else none
  else if isBlankOrEnd c then return (none, "!", cells.drop 1)
  else if hasHandle (cells.drop 1) then
    let (handle, rest) ← readHandle cells
    let (suffix, rest) ← readSuffix rest
    return (some handle, suffix, rest)
  else
    let (suffix, rest) ← readSuffix (cells.drop 1)
    return (some "!", suffix, rest)

def readTag (cells : List Cell) : Except Fault (Token × List Cell × Bool) :=
  match readTagParts cells with
  | none => .error .malformed
  | some (handle, suffix, rest) =>
      if isSpaceOrEnd (Cell.peek rest) then .ok (.tag handle suffix, rest, false)
      else .error .malformed

def readQuoted (cells : List Cell) : Except Fault (Token × List Cell × Bool) :=
  let content := cells.drop 1
  if Cell.peek cells = '"' then
    match DoubleQuoted.read (.text Gap.empty) content with
    | .ok (text, rest) => .ok (.scalar text false, rest, false)
    | .error fault => .error fault
  else
    match SingleQuoted.read Gap.empty content with
    | some (text, rest) => .ok (.scalar text false, rest, false)
    | none => .error .malformed

def readPlain (depth : Nat) (indent : Int) (cells : List Cell) :
    Except Fault (Token × List Cell × Bool) :=
  let value := PlainText.read (depth ≠ 0) (indent + 1) Gap.empty cells
  .ok (.scalar value.text true, value.rest, value.endsLine)

/-- The step that reads a value behind a bar or a greater-than sign. -/
def indented (state : Scan) : Step :=
  match state.dropPossible? with
  | none => .malformed
  | some state =>
      match Indented.read? (Cell.peek state.rest = '>') state.indent (state.rest.drop 1) with
      | none => .malformed
      | some (text, rest) =>
          .more [.token (.scalar text false)] { state with rest, keyAllowed := true }

/-- What is read, if anything is. -/
def orMalformed {α : Type} : Option α → Except Fault α
  | some found => .ok found
  | none => .error .malformed

/-- Reads one of the numbers of a version. -/
def readNumber (cells : List Cell) : Except Fault (Nat × List Cell) :=
  let (digits, rest) := Cell.span Char.isDigit cells
  if digits.isEmpty then .error .malformed
  else if Numeral.mostDigits < digits.length then .error (.longInteger (some digits.length))
  else orMalformed ((Numeral.ofDigits? 10 0 digits).map (·, rest))

/-- Reads the version behind its directive. -/
def readVersion (cells : List Cell) : Except Fault (Token × List Cell) := do
  let (major, rest) ← readNumber (Cell.skip (· = ' ') cells)
  if Cell.peek rest ≠ '.' then .error .malformed
  else
    let (_, rest) ← readNumber (rest.drop 1)
    if isSpaceOrEnd (Cell.peek rest) then return (.version major, rest) else .error .malformed

/-- Reads the handle and its meaning behind a directive. -/
def readTagHandle (cells : List Cell) : Option (Token × List Cell) := do
  let (handle, rest) ← readHandle (Cell.skip (· = ' ') cells)
  if Cell.peek rest ≠ ' ' then none
  else
    let (meaning, rest) ← readSuffix (Cell.skip (· = ' ') rest)
    if isSpaceOrEnd (Cell.peek rest) then return (.tagHandle handle meaning, rest) else none

/-- Reads a directive without the rest of its line. -/
def readDirective (cells : List Cell) : Except Fault (Token × List Cell) :=
  let (name, rest) := Cell.span isNameChar (cells.drop 1)
  if name.isEmpty || !isSpaceOrEnd (Cell.peek rest) then .error .malformed
  else if name = "YAML".toList then readVersion rest
  else if name = "TAG".toList then orMalformed (readTagHandle rest)
  else .ok (.directive, Cell.skip (!isBreakOrEnd ·) rest)

/-- Reads a directive and the rest of its line, which holds nothing more. -/
def readDirectiveLine (cells : List Cell) : Except Fault (Token × List Cell) := do
  let (token, rest) ← readDirective cells
  return (token, ← orMalformed (Indented.endHeader? rest))

def directive (state : Scan) : Step :=
  let (closed, state) := state.unwind (-1)
  match state.dropPossible? with
  | none => .malformed
  | some state =>
      match readDirectiveLine state.rest with
      | .error fault => .failed fault
      | .ok (token, rest) =>
          .more (closed ++ [.token token]) { state with rest, keyAllowed := false }

/-- The step that reads the mark that begins or the mark that ends a document. -/
def documentMark (state : Scan) (token : Token) : Step :=
  let (closed, state) := state.unwind (-1)
  match state.dropPossible? with
  | none => .malformed
  | some state =>
      .more (closed ++ [.token token])
        { state with rest := state.rest.drop 3, keyAllowed := false }

/-- The last step, at the end of the text. -/
def finish (state : Scan) : Step :=
  let (closed, state) := state.unwind (-1)
  match state.dropPossible? with
  | none => .malformed
  | some _ => .last closed

/-- Whether a plain value can begin with a character. -/
def startsPlain (depth : Nat) (c next : Char) : Bool :=
  !(isBlankOrEnd c || "-?:,[]\x7b\x7d#&*!|>'\"%@`".toList.contains c)
    || (!isBlankOrEnd next && (c = '-' || (depth = 0 && (c = '?' || c = ':'))))

/-- The step that reads the token that begins at the next character. -/
def dispatch (state : Scan) : Step :=
  let c := Cell.peek state.rest
  let next := Cell.peekSecond state.rest
  if c = endMark then state.finish
  else if c = '%' ∧ state.column = 0 then state.directive
  else if state.column = 0 ∧ Cell.isLineMark '-' state.rest then state.documentMark .documentStart
  else if state.column = 0 ∧ Cell.isLineMark '.' state.rest then state.documentMark .documentEnd
  else if c = '[' then state.bracket .listStart true
  else if c = '\x7b' then state.bracket .mappingStart true
  else if c = ']' then state.bracket .listEnd false
  else if c = '\x7d' then state.bracket .mappingEnd false
  else if c = ',' then state.comma
  else if c = '-' ∧ isBlankOrEnd next then state.entry
  else if c = '?' ∧ (state.depth ≠ 0 ∨ isBlankOrEnd next) then state.questionMark
  else if c = ':' ∧ (state.depth ≠ 0 ∨ isBlankOrEnd next) then state.colon
  else if c = '*' then state.atPossibleKey (readName .alias)
  else if c = '&' then state.atPossibleKey (readName .anchor)
  else if c = '!' then state.atPossibleKey readTag
  else if (c = '|' ∨ c = '>') ∧ state.depth = 0 then state.indented
  else if c = '\'' ∨ c = '"' then state.atPossibleKey readQuoted
  else if startsPlain state.depth c next then
    state.atPossibleKey (readPlain state.depth state.indent)
  else .malformed

def next (state : Scan) : Step :=
  match state.toToken.dropStale? with
  | none => .malformed
  | some state =>
      let (closed, state) := state.unwind state.column
      match state.dispatch with
      | .more lexemes state => .more (closed ++ lexemes) state
      | .last lexemes => .last (closed ++ lexemes)
      | .failed fault => .failed fault

/-- The lexemes that at most the given number of steps read. -/
def lexemes : (steps : Nat) → Scan → List Lexeme
  | 0, _ => []
  | steps + 1, state =>
      match state.next with
      | .more lexemes rest => lexemes ++ Scan.lexemes steps rest
      | .last lexemes => lexemes
      | .failed fault => [.broken state.awaited? fault]

end Scan

/-- The tokens of a text. Every step reads at least one character, so there are no more steps
than characters and the end. -/
def Token.ofText (text : List Char) : List Token :=
  let cells := Cell.place 0 0 0 text
  Token.ofLexemes (Scan.lexemes (cells.length + 1) { rest := cells })

end Yaml

end RbacManifest
