import RbacManifest.Number.Shortest
import RbacManifest.Value
import RbacManifest.Yaml.Node

/-!
# Nodes of values

`Node.ofValue` gives a value that is to be written its types and texts. Mappings are sorted by
their keys where the keys can be compared, so that equal mappings are written alike. Kinds and
values that are no data cannot be written.
-/

namespace RbacManifest

namespace Value

/-- Whether a value is a text that is less than another one. -/
def lessText (left right : Value) : Bool :=
  match left.text?, right.text? with
  | some left, some right => left < right
  | _, _ => false

/-- Whether a value is a number that is less than another one. -/
def lessNumber (left right : Value) : Bool :=
  match left.number?, right.number? with
  | some left, some right => left.less right
  | _, _ => false

end Value

namespace Entries

variable {α : Type}

/-- Puts an entry before the first entry whose key is not less than its own. -/
def insertBy (less : Value → Value → Bool) (entry : Value × α) :
    List (Value × α) → List (Value × α)
  | [] => [entry]
  | other :: rest =>
      if less other.1 entry.1 then other :: insertBy less entry rest
      else entry :: other :: rest

/-- Entries in the order of their keys. -/
def sortBy (less : Value → Value → Bool) (entries : List (Value × α)) : List (Value × α) :=
  entries.foldr (insertBy less) []

/-- Entries in the order of their keys if all keys are texts or all are numbers, and in their own
order otherwise. -/
def sorted (entries : List (Value × α)) : List (Value × α) :=
  if entries.all fun entry => entry.1.text?.isSome then sortBy Value.lessText entries
  else if entries.all fun entry => entry.1.number?.isSome then sortBy Value.lessNumber entries
  else entries

end Entries

namespace Yaml

/-- The text of a decimal number. It has a point even where the shortest text has none. -/
def floatText (value : Binary64) : List Char :=
  match value with
  | .nan => ".nan".toList
  | .infinite negative => if negative then "-.inf".toList else ".inf".toList
  | value =>
      let text := value.text.toList
      if text.contains '.' then text
      else text.flatMap fun c => if c = 'e' then ['.', '0', 'e'] else [c]

namespace Node

/-- What is written for a part of a value, or the first part that cannot be written. -/
abbrev Writing (α : Type) := Except Value α

/-- What is written for the members of a row. -/
def Writing.all {α : Type} : List (Writing α) → Writing (List α)
  | [] => .ok []
  | writing :: rest => do
      let first ← writing
      return first :: (← all rest)

mutual

def ofValue : Value → Writing Node
  | .null => .ok (scalar .null "null".toList)
  | .bool value => .ok (scalar .bool (if value then "true".toList else "false".toList))
  | .int value => .ok (scalar .int (toString value).toList)
  | .float value => .ok (scalar .float (floatText value))
  | .text value => .ok (scalar .text value.toList)
  | .date value => .ok (scalar .time value.text.toList)
  | .time value => .ok (scalar .time (value.text " ").toList)
  | .list items => (Writing.all (ofValues items)).map (list .list)
  | .tuple items => (Writing.all (ofValues items)).map (list .list)
  | .mapping entries =>
      let written := Entries.sorted (ofPairs entries)
      (Writing.all (written.map (·.2))).map (mapping .mapping)
  | value => .error value

def ofValues : List Value → List (Writing Node)
  | [] => []
  | value :: rest => ofValue value :: ofValues rest

/-- The nodes of the entries of a mapping, with the keys by which they are sorted. -/
def ofPairs : List (Value × Value) → List (Value × Writing (Node × Node))
  | [] => []
  | (key, value) :: rest =>
      (key, do return (← ofValue key, ← ofValue value)) :: ofPairs rest

end

end Node

end Yaml

end RbacManifest
