import RbacManifest.Calendar
import RbacManifest.Number.Numeral
import RbacManifest.Text.Quoted

/-!
# Why a document cannot be read

Most faults are faults of the document's form, and they are all alike to the reader of a
configuration file. The others concern something whose form is right, but which does not exist: a
number with too many digits, a day that the calendar does not have, a code point beyond the last
one.
-/

namespace RbacManifest

namespace Yaml

/-- A reason why a document cannot be read. -/
inductive Fault
  /-- The document is not well formed, or it uses a tag or an alias that means nothing. -/
  | malformed
  /-- An escape names a code point beyond the last one. -/
  | codePoint (value : Nat)
  /-- A value is tagged as a whole number, but is no numeral of the base. -/
  | notInteger (base : Nat) (text : String)
  /-- A whole number has too many digits for a numeral. How many they are is known if one is read,
  and not if one is to be written. -/
  | longInteger (digits : Option Nat)
  /-- A value is tagged as a number, but has no characters that could be one. -/
  | emptyNumber
  /-- A value is tagged as a decimal number, but is none. -/
  | notDecimal (text : String)
  /-- A value is tagged as a truth value, but is none. -/
  | notTruth (text : String)
  /-- A number has more parts between colons than a decimal number can have. -/
  | tooManyParts
  /-- A value is tagged as a time, but is none. -/
  | notTime
  /-- A mapping is tagged as a time. -/
  | timeInMapping
  /-- A date or a time that does not exist. -/
  | calendar (fault : Calendar.Fault)
  /-- What stands for a single value is the value itself, so that nothing ever stands for it. -/
  | endless
  deriving DecidableEq, Repr

/-- The wording of a fault; faults of form have none of their own. -/
def Fault.message : Fault → String
  | .malformed => ""
  | .codePoint value =>
      if value < 0x80000000 then "chr() arg not in range(0x110000)"
      else "Python int too large to convert to C int"
  | .notInteger base text =>
      s!"invalid literal for int() with base {base}: " ++
        String.ofList ((Text.quotedText text.toList).take 200)
  | .longInteger digits =>
      let count :=
        match digits with
        | some digits => s!": value has {digits} digits"
        | none => ""
      s!"Exceeds the limit ({Numeral.mostDigits} digits) for integer string conversion{count}; " ++
        "use sys.set_int_max_str_digits() to increase the limit"
  | .emptyNumber => "string index out of range"
  | .notDecimal text => s!"could not convert string to float: {Text.quoted text}"
  | .notTruth text => Text.quoted text
  | .tooManyParts => "int too large to convert to float"
  | .timeInMapping => "expected string or bytes-like object, got 'list'"
  | .notTime => "'NoneType' object has no attribute 'groupdict'"
  | .calendar fault => fault.message
  | .endless => "maximum recursion depth exceeded"

/-- The name of the error that a fault comes with. -/
def Fault.errorName : Fault → String
  | .malformed => "YAMLError"
  | .codePoint value => if value < 0x80000000 then "ValueError" else "OverflowError"
  | .notInteger _ _ | .longInteger _ | .notDecimal _ | .calendar _ => "ValueError"
  | .emptyNumber => "IndexError"
  | .notTruth _ => "KeyError"
  | .tooManyParts => "OverflowError"
  | .notTime => "AttributeError"
  | .timeInMapping => "TypeError"
  | .endless => "RecursionError"

end Yaml

end RbacManifest
