import RbacManifest.Text.Hex
import RbacManifest.Yaml.Fault
import RbacManifest.Yaml.Gap

/-!
# Values between double quotes

Between double quotes a backslash starts an escape: a letter for a control character, the number
of a code point, or the end of a line, which together with the indentation of the next line
stands for nothing.

A code point may be one half of a pair of surrogates, which is no character of a text here. The
replacement character is read in its place.
-/

namespace RbacManifest

namespace Yaml

namespace DoubleQuoted

/-- The escapes of one letter, with the characters that they stand for. -/
def letters : List (Char × Char) :=
  [('0', '\x00'), ('a', '\x07'), ('b', '\x08'), ('t', '\t'), ('\t', '\t'), ('n', '\n'),
    ('v', '\x0b'), ('f', '\x0c'), ('r', '\r'), ('e', '\x1b'), (' ', ' '), ('"', '"'),
    ('\\', '\\'), ('/', '/'), ('N', '\u0085'), ('_', '\u00a0'), ('L', '\u2028'),
    ('P', '\u2029')]

/-- How many digits follow a letter that starts the number of a code point. -/
def places? (letter : Char) : Option Nat :=
  if letter = 'x' then some 2
  else if letter = 'u' then some 4
  else if letter = 'U' then some 8
  else none

/-- The least number that is too great for a code point. -/
def codePoints : Nat := 0x110000

/-- The character that is read in the place of half a pair of surrogates. -/
def replacement : Char := '\uFFFD'

def character (code : Nat) : Except Fault Char :=
  if codePoints ≤ code then .error (.codePoint code)
  else if code.isValidChar then .ok (Char.ofNat code)
  else .ok replacement

/-- A result with more characters in front of it. -/
def prepend (chars : List Char) :
    Except Fault (List Char × List Cell) → Except Fault (List Char × List Cell)
  | .ok (text, rest) => .ok (chars ++ text, rest)
  | .error fault => .error fault

/-- What is being read. -/
inductive Mode
  /-- Characters, behind a gap. -/
  | text (gap : Gap)
  /-- The letter behind a backslash. -/
  | escape
  /-- The remaining digits of a code point, whose value so far is known. -/
  | number (places : Nat) (value : Nat)

/-- Reads the rest of a value up to its closing quote. -/
def read (mode : Mode) : List Cell → Except Fault (List Char × List Cell)
  | [] => .error .malformed
  | cell :: rest =>
      let c := cell.char
      match mode with
      | .text gap =>
          if c = endMark then .error .malformed
          else if c = ' ' ∨ c = '\t' then read (.text (gap.addBlank c)) rest
          else if isBreak c then
            if Cell.isDocumentMark rest then .error .malformed
            else read (.text (gap.addBreak c)) rest
          else if c = '"' then .ok (gap.text, rest)
          else if c = '\\' then prepend gap.text (read .escape rest)
          else prepend (gap.text ++ [c]) (read (.text Gap.empty) rest)
      | .escape =>
          match places? c with
          | some places => read (.number (places - 1) 0) rest
          | none =>
              if isBreak c then
                if Cell.isDocumentMark rest then .error .malformed
                else read (.text (.lines none [])) rest
              else
                match letters.lookup c with
                | some meaning => prepend [meaning] (read (.text Gap.empty) rest)
                | none => .error .malformed
      | .number places value =>
          match Text.hexValue? c with
          | none => .error .malformed
          | some digit =>
              let value := value * 16 + digit
              match places with
              | places + 1 => read (.number places value) rest
              | 0 =>
                  match character value with
                  | .ok c => prepend [c] (read (.text Gap.empty) rest)
                  | .error fault => .error fault

end DoubleQuoted

end Yaml

end RbacManifest
