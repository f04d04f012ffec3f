/-!
# Hexadecimal numerals

Code points and bytes are written in base sixteen with a fixed number of places, and read back
from escapes and numerals.
-/

namespace RbacManifest

namespace Text

/-- The digit of a value below sixteen, in lower case. -/
def hexDigit (value : Nat) : Char :=
  if value < 10 then Char.ofNat (0x30 + value) else Char.ofNat (0x57 + value)

/-- The digit of a value below sixteen, in upper case. -/
def upperHexDigit (value : Nat) : Char :=
  if value < 10 then Char.ofNat (0x30 + value) else Char.ofNat (0x37 + value)

/-- The lowest `places` digits of a number in base sixteen, the most significant first. -/
def hex (digit : Nat → Char) : (places : Nat) → Nat → List Char
  | 0, _ => []
  | places + 1, value => hex digit places (value / 16) ++ [digit (value % 16)]

/-- The value of a digit in base sixteen, of either case. -/
def hexValue? (c : Char) : Option Nat :=
  if '0' ≤ c ∧ c ≤ '9' then some (c.toNat - 0x30)
  else if 'a' ≤ c ∧ c ≤ 'f' then some (c.toNat - 0x57)
  else if 'A' ≤ c ∧ c ≤ 'F' then some (c.toNat - 0x37)
  else none

/-- The value of a row of digits in base sixteen, continuing from a value already read. -/
def ofHex? (value : Nat) : List Char → Option Nat
  | [] => some value
  | c :: rest =>
      match hexValue? c with
      | some digit => ofHex? (value * 16 + digit) rest
      | none => none

end Text

end RbacManifest
