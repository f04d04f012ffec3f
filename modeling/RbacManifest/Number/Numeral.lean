import RbacManifest.Number.Binary64
import RbacManifest.Text.Blank
import RbacManifest.Text.Digit
import RbacManifest.Text.Hex

/-!
# Numerals

The texts that stand for numbers: whole numbers in base two, eight, ten and sixteen, and decimal
numbers with a point or an exponent. There may be white space around a numeral and a sign in
front of it, and decimal digits may be those of any script.
-/

namespace RbacManifest

namespace Numeral

/-- Why a text is no whole number. -/
inductive Fault
  /-- The text is no numeral of the base. -/
  | malformed
  /-- The numeral has this many decimal digits, which is more than `mostDigits`. -/
  | tooLong (digits : Nat)
  deriving DecidableEq, Repr

/-- The greatest number of digits that a numeral in base ten may have. -/
def mostDigits : Nat := 4300

/-- Whether a character may stand around a numeral. -/
def isAround (c : Char) : Bool :=
  Text.isBlank c && (c.toNat < 0x1C || 0x1F < c.toNat)

/-- A numeral without the white space around it, with the digits of all scripts replaced by the
ordinary ones. -/
def plain (text : List Char) : List Char :=
  let inner := ((text.dropWhile isAround).reverse.dropWhile isAround).reverse
  inner.map fun c =>
    match Text.decimalValue? c with
    | some value => Char.ofNat (0x30 + value)
    | none => c

/-- A numeral without its sign, and whether the sign is a minus. -/
def sign : List Char → Bool × List Char
  | '-' :: rest => (true, rest)
  | '+' :: rest => (false, rest)
  | text => (false, text)

/-- The value of a digit in a base. -/
def digit? (base : Nat) (c : Char) : Option Nat :=
  (Text.hexValue? c).filter (· < base)

/-- A whole number without the letters that name its base. -/
def withoutBase (base : Nat) : List Char → List Char
  | '0' :: letter :: rest =>
      if base = 16 ∧ letter.toLower = 'x' ∨ base = 8 ∧ letter.toLower = 'o' ∨
          base = 2 ∧ letter.toLower = 'b' then rest
      else '0' :: letter :: rest
  | text => text

/-- The value of a row of digits in a base, continuing from a value already read. -/
def ofDigits? (base : Nat) (value : Nat) : List Char → Option Nat
  | [] => some value
  | c :: rest =>
      match digit? base c with
      | some digit => ofDigits? base (value * base + digit) rest
      | none => none

/-- The whole number that a text stands for in a base. -/
def integer (base : Nat) (text : List Char) : Except Fault Int :=
  let (negative, unsigned) := sign (plain text)
  let digits := withoutBase base unsigned
  let places := (digits.takeWhile fun c => (digit? base c).isSome).length
  if base = 10 ∧ mostDigits < places then .error (.tooLong places)
  else if digits.isEmpty then .error .malformed
  else
    match ofDigits? base 0 digits with
    | some value => .ok (if negative then -(value : Int) else value)
    | none => .error .malformed

/-- The digits at the start of a text and what follows them. -/
def leadingDigits (text : List Char) : List Char × List Char :=
  (text.takeWhile Char.isDigit, text.dropWhile Char.isDigit)

/-- The exponent that the rest of a decimal number states. Nothing stands for zero. -/
def exponent? : List Char → Option Int
  | [] => some 0
  | letter :: rest =>
      if letter = 'e' ∨ letter = 'E' then
        let (negative, digits) := sign rest
        if digits.isEmpty then none
        else (ofDigits? 10 0 digits).map fun value => if negative then -(value : Int) else value
      else none

/-- The floating point number that a text stands for. -/
def decimal? (text : List Char) : Option Binary64 :=
  let (negative, unsigned) := sign (plain text)
  let word := unsigned.map Char.toLower
  if word = "inf".toList ∨ word = "infinity".toList then some (.infinite negative)
  else if word = "nan".toList then some .nan
  else
    let (whole, rest) := leadingDigits unsigned
    let (fraction, rest) :=
      match rest with
      | '.' :: rest => leadingDigits rest
      | rest => ([], rest)
    if whole.isEmpty && fraction.isEmpty then none
    else do
      let digits ← ofDigits? 10 0 (whole ++ fraction)
      let exponent ← exponent? rest
      return Binary64.ofDecimal negative digits (exponent - fraction.length)

end Numeral

end RbacManifest
