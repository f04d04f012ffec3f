import RbacManifest.Number.Binary64

/-!
# The shortest decimal text of a number

A floating point number is written with the fewest decimal digits that read back as the same
number, and with the nearest such digits. The point stands among the digits for exponents from
`-4` up to `15`; beyond them the exponent is written out.
-/

namespace RbacManifest

namespace Binary64

/-- The digits `d` and the exponent `e` of `d * 10 ^ e`. -/
structure Decimal where
  digits : Nat
  exponent : Int
  deriving DecidableEq, Repr

/-- A positive ratio divided by a power of ten, as a ratio. -/
def scaledDownByTen (numerator denominator : Nat) (exponent : Int) : Nat × Nat :=
  if 0 ≤ exponent then (numerator, denominator * Nat.pow 10 exponent.toNat)
  else (numerator * Nat.pow 10 (-exponent).toNat, denominator)

/-- The exponent of ten below or at a positive ratio, from a first guess that is too small by at
most a few. -/
def decimalMagnitude (numerator denominator : Nat) : (tries : Nat) → Int → Int
  | 0, guess => guess
  | tries + 1, guess =>
      let (top, bottom) := scaledDownByTen numerator denominator (guess + 1)
      if top < bottom then guess
      else decimalMagnitude numerator denominator tries (guess + 1)

/-- Of the two decimals with a given exponent on either side of a positive number, the one that
reads back as the number, and the nearer one if both do. -/
def decimalOn? (significand : Nat) (exponent : Int) (scale : Int) : Option Decimal :=
  let (numerator, denominator) := toRatio false significand exponent
  let (top, bottom) := scaledDownByTen numerator.natAbs denominator scale
  let lower := top / bottom
  let reads (digits : Nat) := ofDecimal false digits scale = .finite false significand exponent
  let upperIsNearer := bottom < 2 * (top % bottom) ∨ (2 * (top % bottom) = bottom ∧ lower % 2 = 1)
  let (near, far) := if upperIsNearer then (lower + 1, lower) else (lower, lower + 1)
  if reads near then some ⟨near, scale⟩ else if reads far then some ⟨far, scale⟩ else none

/-- The first decimal that reads back as a positive number, trying more and more digits. -/
def shortestFrom (significand : Nat) (exponent : Int) (magnitude : Int) :
    (tries : Nat) → Nat → Decimal
  | 0, _ => ⟨0, 0⟩
  | tries + 1, places =>
      match decimalOn? significand exponent (magnitude - places) with
      | some decimal => decimal
      | none => shortestFrom significand exponent magnitude tries (places + 1)

/-- A decimal without zeros at the end of its digits. -/
def Decimal.stripped : (tries : Nat) → Decimal → Decimal
  | 0, decimal => decimal
  | tries + 1, decimal =>
      if decimal.digits ≠ 0 ∧ decimal.digits % 10 = 0 then
        Decimal.stripped tries ⟨decimal.digits / 10, decimal.exponent + 1⟩
      else decimal

/-- The shortest decimal that reads back as a positive finite number. -/
def shortest (significand : Nat) (exponent : Int) : Decimal :=
  let (numerator, denominator) := toRatio false significand exponent
  let bits : Int := (numerator.natAbs.log2 : Int) - denominator.log2
  let guess := bits * 30103 / 100000 - 2
  let magnitude := decimalMagnitude numerator.natAbs denominator 6 guess
  (shortestFrom significand exponent magnitude 18 0).stripped 20

/-- The text of a decimal: positional for exponents from `-4` up to `15`, and with the exponent
behind an `e` otherwise. -/
def Decimal.text (decimal : Decimal) : String :=
  let digits := (Nat.repr decimal.digits).toList
  let leading : Int := (digits.length : Int) - 1 + decimal.exponent
  let zeros (count : Int) := List.replicate count.toNat '0'
  let chars :=
    if -4 ≤ leading ∧ leading < 16 then
      if 0 ≤ decimal.exponent then digits ++ zeros decimal.exponent ++ ['.', '0']
      else if 0 ≤ leading then
        digits.take (leading.toNat + 1) ++ '.' :: digits.drop (leading.toNat + 1)
      else ['0', '.'] ++ zeros (-leading - 1) ++ digits
    else
      let size := (Nat.repr leading.natAbs).toList
      let size := if size.length < 2 then '0' :: size else size
      let fraction := if digits.length = 1 then [] else '.' :: digits.drop 1
      digits.take 1 ++ fraction ++ ['e', if leading < 0 then '-' else '+'] ++ size
  String.ofList chars

def text : Binary64 → String
  | .nan => "nan"
  | .infinite false => "inf"
  | .infinite true => "-inf"
  | .finite negative significand exponent =>
      let digits :=
        if significand = 0 then "0.0" else (shortest significand exponent).text
      if negative then "-" ++ digits else digits

end Binary64

end RbacManifest
