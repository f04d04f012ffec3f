import RbacManifest.Number.Numeral
import RbacManifest.Text.Split
import RbacManifest.Yaml.Cell

/-!
# Types of values

A value has a type, which a tag states. A plain value without a tag is a number, a truth value, a
date or null if its text looks like one, and a text otherwise. `Tag.ofPlain` decides that; it is
also what tells when a text has to be written between quotes to stay a text.
-/

namespace RbacManifest

namespace Yaml

/-- The type of a value. -/
inductive Tag
  | null
  | bool
  | int
  | float
  | text
  | binary
  | time
  | list
  | mapping
  | set
  /-- A list of pairs of which no two have the same key. -/
  | orderedMapping
  /-- A list of pairs. -/
  | pairs
  /-- The key under which entries of other mappings are taken over. -/
  | merge
  /-- The key of the entry that stands for its mapping where a single value is needed. -/
  | principal
  /-- A type that means nothing to this reader. -/
  | unknown
  deriving DecidableEq, Repr

namespace Tag

/-- The tags that state the types. -/
def names : List (String × Tag) :=
  [("null", null), ("bool", bool), ("int", int), ("float", float), ("str", text),
    ("binary", binary), ("timestamp", time), ("seq", list), ("map", mapping), ("set", set),
    ("omap", orderedMapping), ("pairs", pairs), ("merge", merge), ("value", principal)]

/-- The type that a written tag states. -/
def ofString (tag : String) : Tag :=
  match Text.after? "tag:yaml.org,2002:".toList tag.toList with
  | none => unknown
  | some name => (names.lookup (String.ofList name)).getD unknown

/-- Whether a text is not empty and all its characters satisfy a condition. -/
def isRow (condition : Char → Bool) (chars : List Char) : Bool :=
  !chars.isEmpty && chars.all condition

/-- Whether a character is a decimal digit or an underscore. -/
def isDigitOrLine (c : Char) : Bool :=
  c.isDigit || c = '_'

/-- Whether a text is a digit with digits and underscores behind it. -/
def isDigits : List Char → Bool
  | [] => false
  | c :: rest => c.isDigit && rest.all isDigitOrLine

/-- Whether a text is a number below sixty, in one or two digits. -/
def isSixtieth : List Char → Bool
  | [ones] => ones.isDigit
  | [tens, ones] => ('0' ≤ tens && tens ≤ '5') && ones.isDigit
  | _ => false

/-- Whether a text without a sign looks like a whole number. -/
def isWhole : List Char → Bool
  | '0' :: 'b' :: rest => isRow (fun c => c = '0' || c = '1' || c = '_') rest
  | '0' :: 'x' :: rest => isRow (fun c => (Text.hexValue? c).isSome || c = '_') rest
  | '0' :: rest => rest.all fun c => ('0' ≤ c && c ≤ '7') || c = '_'
  | chars =>
      match Text.pieces ':' chars with
      | first :: others => isDigits first && others.all isSixtieth
      | [] => false

/-- Whether a text is nothing, or an exponent with its sign. -/
def isExponent : List Char → Bool
  | [] => true
  | e :: sign :: digits =>
      (e = 'e' || e = 'E') && (sign = '-' || sign = '+') && isRow Char.isDigit digits
  | _ => false

/-- Whether a text without a sign looks like a decimal number that starts with a digit. -/
def isDecimal (chars : List Char) : Bool :=
  match Text.cut? '.' chars with
  | none => false
  | some (whole, rest) =>
      let exponent := rest.dropWhile isDigitOrLine
      match Text.pieces ':' whole with
      | [whole] => isDigits whole && isExponent exponent
      | first :: others => isDigits first && others.all isSixtieth && exponent.isEmpty
      | [] => false

/-- Whether a text looks like a decimal number that starts with a point, or is a word for what is
no number. -/
def isFraction : List Char → Bool
  | '.' :: rest =>
      (isDigits (rest.takeWhile isDigitOrLine) && isExponent (rest.dropWhile isDigitOrLine))
        || ["nan", "NaN", "NAN"].contains (String.ofList rest)
  | _ => false

/-- Whether a text without a sign is a word for what is greater than all numbers. -/
def isInfinity (chars : List Char) : Bool :=
  [".inf", ".Inf", ".INF"].contains (String.ofList chars)

/-- The words that are truth values. -/
def truthWords : List String :=
  ["yes", "Yes", "YES", "no", "No", "NO", "true", "True", "TRUE", "false", "False", "FALSE",
    "on", "On", "ON", "off", "Off", "OFF"]

/-- The parts of a written time, as far as they are given. -/
structure TimeParts where
  year : List Char
  month : List Char
  day : List Char
  /-- Hour, minute and second. -/
  clock : Option (List Char × List Char × List Char) := none
  fraction : List Char := []
  /-- The distance from universal time in minutes. -/
  offset : Option Int := none

/-- The digits at the start of a text, if there are as many as is allowed. -/
def digits? (least most : Nat) (chars : List Char) : Option (List Char × List Char) :=
  let digits := (chars.take most).takeWhile Char.isDigit
  if digits.length < least then none else some (digits, chars.drop digits.length)

/-- What follows a character at the start of a text. -/
def behind? (c : Char) (chars : List Char) : Option (List Char) :=
  Text.after? [c] chars

/-- The number that a row of digits stands for. -/
def number (digits : List Char) : Nat :=
  (Numeral.ofDigits? 10 0 digits).getD 0

def isSpaceOrTab (c : Char) : Bool :=
  c = ' ' || c = '\t'

/-- The distance from universal time that ends a written time; nothing states none. -/
def offset? (chars : List Char) : Option (Option Int) :=
  match chars with
  | [] => some none
  | chars =>
      match chars.dropWhile isSpaceOrTab with
      | ['Z'] => some (some 0)
      | sign :: rest => do
          if sign ≠ '-' ∧ sign ≠ '+' then none
          else
            let (hours, rest) ← digits? 1 2 rest
            let minutes ←
              match rest with
              | [] => some []
              | rest => do
                  let (minutes, rest) ← digits? 2 2 (← behind? ':' rest)
                  if rest.isEmpty then some minutes else none
            let size : Int := number hours * 60 + number minutes
            return some (if sign = '-' then -size else size)
      | [] => none

/-- The parts of a written date or time. -/
def timeParts? (chars : List Char) : Option TimeParts := do
  let (year, rest) ← digits? 4 4 chars
  let (month, rest) ← digits? 1 2 (← behind? '-' rest)
  let (day, rest) ← digits? 1 2 (← behind? '-' rest)
  match rest with
  | [] => return { year, month, day }
  | c :: more =>
      if !(c = 'T' || c = 't' || isSpaceOrTab c) then none
      else
        let rest := if isSpaceOrTab c then rest.dropWhile isSpaceOrTab else more
        let (hour, rest) ← digits? 1 2 rest
        let (minute, rest) ← digits? 2 2 (← behind? ':' rest)
        let (second, rest) ← digits? 2 2 (← behind? ':' rest)
        let (fraction, rest) :=
          match rest with
          | '.' :: rest => (rest.takeWhile Char.isDigit, rest.dropWhile Char.isDigit)
          | rest => ([], rest)
        let offset ← offset? rest
        return { year, month, day, clock := some (hour, minute, second), fraction, offset }

/-- Whether a text looks like a date or a time. A date alone has two digits for the month and for
the day. -/
def isTime (chars : List Char) : Bool :=
  match timeParts? chars with
  | none => false
  | some parts =>
      parts.clock.isSome || (parts.month.length = 2 && parts.day.length = 2)

/-- A text without a line feed behind other characters. -/
def withoutLineEnd (chars : List Char) : List Char :=
  if chars.getLast? = some '\n' ∧ chars ≠ ['\n'] then chars.dropLast else chars

/-- The type of a plain value without a tag. -/
def ofPlain (chars : List Char) : Tag :=
  let chars := withoutLineEnd chars
  let (_, unsigned) := Numeral.sign chars
  if truthWords.contains (String.ofList chars) then bool
  else if isDecimal unsigned || isFraction chars || isInfinity unsigned then float
  else if isWhole unsigned then int
  else if chars = "<<".toList then merge
  else if ["", "~", "null", "Null", "NULL"].contains (String.ofList chars) then null
  else if isTime chars then time
  else if chars = "=".toList then principal
  else .text

end Tag

end Yaml

end RbacManifest
