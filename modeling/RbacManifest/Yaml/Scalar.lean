import RbacManifest.Number.Binary64
import RbacManifest.Text.Base64
import RbacManifest.Text.LowerCase
import RbacManifest.Value
import RbacManifest.Yaml.Fault
import RbacManifest.Yaml.Tag

/-!
# Single values

`Tag.value` reads the text of a single value as its type demands. Numbers may have underscores
among their digits, and several parts in base sixty between colons.
-/

namespace RbacManifest

namespace Yaml

namespace Tag

/-- The truth values, by their words in lower case. -/
def truths : List (String × Bool) :=
  [("yes", true), ("no", false), ("true", true), ("false", false), ("on", true), ("off", false)]

def boolValue (chars : List Char) : Except Fault Value :=
  let word := String.ofList (Text.lower chars)
  match truths.lookup word with
  | some value => .ok (.bool value)
  | none => .error (.notTruth word)

/-- A whole number as a value, or the fault of its numeral. -/
def numeral (base : Nat) (chars : List Char) : Except Fault Int :=
  match Numeral.integer base chars with
  | .ok value => .ok value
  | .error .malformed => .error (.notInteger base (String.ofList chars))
  | .error (.tooLong digits) => .error (.longInteger (some digits))

/-- The value of parts in base sixty, the greatest one first. -/
def sixties (parts : List Int) : Int :=
  parts.foldl (fun value part => value * 60 + part) 0

/-- Reads a whole number without its sign. -/
def unsignedInt (chars : List Char) : Except Fault Int :=
  match chars with
  | [] => .error .emptyNumber
  | ['0'] => .ok 0
  | '0' :: 'b' :: digits => numeral 2 digits
  | '0' :: 'x' :: digits => numeral 16 digits
  | '0' :: digits => numeral 8 ('0' :: digits)
  | chars => do
      if chars.contains ':' then
        let parts ← (Text.pieces ':' chars).mapM (numeral 10)
        return sixties parts
      else numeral 10 chars

def intValue (chars : List Char) : Except Fault Value := do
  let (negative, unsigned) := Numeral.sign (chars.filter (· ≠ '_'))
  let value ← unsignedInt unsigned
  return .int (if negative then -value else value)

/-- A decimal number, or the fault of its numeral. -/
def decimal (chars : List Char) : Except Fault Binary64 :=
  match Numeral.decimal? chars with
  | some value => .ok value
  | none => .error (.notDecimal (String.ofList chars))

/-- The rounded sum of parts in base sixty, the least one first. Fails when the weight of a part
is too great to be a decimal number. -/
def decimalSixties (sum : Binary64) (weight : Nat) : List Binary64 → Except Fault Binary64
  | [] => .ok sum
  | part :: rest =>
      match Binary64.ofInt weight with
      | .infinite _ => .error .tooManyParts
      | factor => decimalSixties (sum.add (part.mul factor)) (weight * 60) rest

/-- Reads a decimal number without its sign. -/
def unsignedFloat (chars : List Char) : Except Fault Binary64 :=
  if chars = ".inf".toList then .ok (.infinite false)
  else if chars = ".nan".toList then .ok .nan
  else if chars.contains ':' then do
    let parts ← (Text.pieces ':' chars).mapM decimal
    decimalSixties (.ofInt 0) 1 parts.reverse
  else decimal chars

def floatValue (chars : List Char) : Except Fault Value :=
  match Text.lower (chars.filter (· ≠ '_')) with
  | [] => .error .emptyNumber
  | chars => do
      let (negative, unsigned) := Numeral.sign chars
      let value ← unsignedFloat unsigned
      return .float (if negative then value.neg else value)

/-- Reads bytes that are written as text. -/
def binaryValue (chars : List Char) : Except Fault Value :=
  if chars.any fun c => 0x7F < c.toNat then .error .malformed
  else
    match Text.Base64.decode? chars with
    | some bytes => .ok (.bytes bytes)
    | none => .error .malformed

/-- The microseconds that the digits behind the point of a time stand for. -/
def microseconds (fraction : List Char) : Nat :=
  let digits := fraction.take 6
  number (digits ++ List.replicate (6 - digits.length) '0')

def timeValue (chars : List Char) : Except Fault Value :=
  match timeParts? (withoutLineEnd chars) with
  | none => .error .notTime
  | some parts =>
      let year := number parts.year
      let month := number parts.month
      let day := number parts.day
      let value :=
        match parts.clock with
        | none => (Calendar.date year month day).map Value.date
        | some (hour, minute, second) =>
            (Calendar.dateTime year month day (number hour) (number minute) (number second)
              (microseconds parts.fraction) parts.offset).map Value.time
      value.mapError .calendar

/-- Reads a single value of a type. -/
def value : Tag → List Char → Except Fault Value
  | null, _ => .ok .null
  | bool, chars => boolValue chars
  | int, chars => intValue chars
  | float, chars => floatValue chars
  | .text, chars => .ok (.text (String.ofList chars))
  | binary, chars => binaryValue chars
  | time, chars => timeValue chars
  | _, _ => .error .malformed

end Tag

end Yaml

end RbacManifest
