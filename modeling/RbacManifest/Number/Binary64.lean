/-!
# Binary floating point numbers

Numbers of 64 bits with a significand of 53 bits, as whole numbers: a finite number is a
significand times a power of two. `Binary64.ofRatio` is the one place where a number is rounded,
to the nearest one and to the even significand of two that are equally near.
-/

namespace RbacManifest

/-- A floating point number. -/
inductive Binary64
  /-- The number `significand * 2 ^ exponent`, or its negative. The significand is below `2 ^ 53`,
  the exponent at least `-1074`, and the significand at least `2 ^ 52` unless the exponent is the
  least one. -/
  | finite (negative : Bool) (significand : Nat) (exponent : Int)
  | infinite (negative : Bool)
  | nan
  deriving DecidableEq, Repr

namespace Binary64

def leastExponent : Int := -1074

def greatestExponent : Int := 971

/-- The quotient of two numbers, rounded to the nearest whole number, and to the even one of two
that are equally near. -/
def roundedQuotient (numerator denominator : Nat) : Nat :=
  let quotient := numerator / denominator
  let twice := 2 * (numerator % denominator)
  if denominator < twice ∨ (twice = denominator ∧ quotient % 2 = 1) then quotient + 1
  else quotient

/-- The ratio of two numbers divided by a power of two, as a ratio. -/
def scaledDown (numerator denominator : Nat) (exponent : Int) : Nat × Nat :=
  if 0 ≤ exponent then (numerator, denominator * Nat.pow 2 exponent.toNat)
  else (numerator * Nat.pow 2 (-exponent).toNat, denominator)

/-- The number nearest to a ratio, or to its negative. The denominator is not zero. -/
def ofRatio (negative : Bool) (numerator denominator : Nat) : Binary64 :=
  if numerator = 0 then .finite negative 0 leastExponent
  else
    let guess : Int := (numerator.log2 : Int) - denominator.log2 - 52
    let (top, bottom) := scaledDown numerator denominator guess
    let exponent := max leastExponent (if top < bottom * Nat.pow 2 52 then guess - 1 else guess)
    let (top, bottom) := scaledDown numerator denominator exponent
    let significand := roundedQuotient top bottom
    if significand = Nat.pow 2 53 then
      if greatestExponent ≤ exponent then .infinite negative
      else .finite negative (Nat.pow 2 52) (exponent + 1)
    else if greatestExponent < exponent then .infinite negative
    else .finite negative significand exponent

/-- The number nearest to a whole number. -/
def ofInt (value : Int) : Binary64 :=
  ofRatio (value < 0) value.natAbs 1

/-- The number nearest to `digits * 10 ^ exponent`, or to its negative. -/
def ofDecimal (negative : Bool) (digits : Nat) (exponent : Int) : Binary64 :=
  if digits = 0 then .finite negative 0 leastExponent
  else
    let places := (Nat.repr digits).length
    if 400 < places + exponent then .infinite negative
    else if places + exponent < -400 then .finite negative 0 leastExponent
    else if 0 ≤ exponent then ofRatio negative (digits * Nat.pow 10 exponent.toNat) 1
    else ofRatio negative digits (Nat.pow 10 (-exponent).toNat)

def neg : Binary64 → Binary64
  | .finite negative significand exponent => .finite (!negative) significand exponent
  | .infinite negative => .infinite (!negative)
  | .nan => .nan

/-- A finite number as a whole number over a power of two. -/
def toRatio (negative : Bool) (significand : Nat) (exponent : Int) : Int × Nat :=
  let size : Nat := if 0 ≤ exponent then significand * Nat.pow 2 exponent.toNat else significand
  let bottom : Nat := if 0 ≤ exponent then 1 else Nat.pow 2 (-exponent).toNat
  (if negative then -(size : Int) else size, bottom)

/-- The rounded sum of two numbers. A sum of zero is positive unless both terms are negative
zeros. -/
def add : Binary64 → Binary64 → Binary64
  | .nan, _ => .nan
  | _, .nan => .nan
  | .infinite left, .infinite right => if left = right then .infinite left else .nan
  | .infinite left, _ => .infinite left
  | _, .infinite right => .infinite right
  | .finite leftNegative leftSignificand leftExponent,
    .finite rightNegative rightSignificand rightExponent =>
      let (leftTop, leftBottom) := toRatio leftNegative leftSignificand leftExponent
      let (rightTop, rightBottom) := toRatio rightNegative rightSignificand rightExponent
      let top := leftTop * rightBottom + rightTop * leftBottom
      if top = 0 then
        .finite (leftNegative && rightNegative && leftSignificand = 0 && rightSignificand = 0) 0
          leastExponent
      else ofRatio (top < 0) top.natAbs (leftBottom * rightBottom)

/-- The rounded product of two numbers. -/
def mul : Binary64 → Binary64 → Binary64
  | .nan, _ => .nan
  | _, .nan => .nan
  | .infinite left, .infinite right => .infinite (left != right)
  | .infinite left, .finite right significand _ =>
      if significand = 0 then .nan else .infinite (left != right)
  | .finite left significand _, .infinite right =>
      if significand = 0 then .nan else .infinite (left != right)
  | .finite leftNegative leftSignificand leftExponent,
    .finite rightNegative rightSignificand rightExponent =>
      let (leftTop, leftBottom) := toRatio leftNegative leftSignificand leftExponent
      let (rightTop, rightBottom) := toRatio rightNegative rightSignificand rightExponent
      ofRatio (leftNegative != rightNegative) (leftTop * rightTop).natAbs
        (leftBottom * rightBottom)

/-- A number for comparison with numbers of any kind. -/
inductive Extended
  /-- A ratio of two whole numbers; the second one is positive. -/
  | ratio (numerator : Int) (denominator : Nat)
  | infinite (negative : Bool)
  | nan
  deriving DecidableEq, Repr

/-- A floating point number for comparison with numbers of any kind. -/
def extended : Binary64 → Extended
  | .finite negative significand exponent =>
      let (numerator, denominator) := toRatio negative significand exponent
      .ratio numerator denominator
  | .infinite negative => .infinite negative
  | .nan => .nan

/-- Whether two numbers are equal, where what is no number is equal to itself. -/
def Extended.same : Extended → Extended → Bool
  | .ratio leftTop leftBottom, .ratio rightTop rightBottom =>
      leftTop * rightBottom = rightTop * leftBottom
  | left, right => left = right

/-- Whether a number is less than another. What is no number is neither less nor greater. -/
def Extended.less : Extended → Extended → Bool
  | .nan, _ => false
  | _, .nan => false
  | .ratio leftTop leftBottom, .ratio rightTop rightBottom =>
      leftTop * rightBottom < rightTop * leftBottom
  | .infinite left, .infinite right => left && !right
  | .infinite left, .ratio _ _ => left
  | .ratio _ _, .infinite right => !right

end Binary64

end RbacManifest
