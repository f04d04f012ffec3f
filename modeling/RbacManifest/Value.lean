import RbacManifest.Calendar
import RbacManifest.Number.Binary64
import RbacManifest.Value.Holder

/-!
# Values

The values that a configuration file or a manifest is made of: single values, lists and mappings.
Labels and names of resources may be any value, and only rendering decides which of them can be
written. A mapping keeps its entries in the order in which their keys were first put.
-/

namespace RbacManifest

/-- The kinds of the manifests that are generated. -/
inductive ResourceKind
  | clusterRole
  | clusterRoleBinding
  deriving DecidableEq, Repr

def ResourceKind.name : ResourceKind → String
  | .clusterRole => "ClusterRole"
  | .clusterRoleBinding => "ClusterRoleBinding"

inductive Value
  | null
  | bool (value : Bool)
  | int (value : Int)
  | float (value : Binary64)
  | text (value : String)
  | bytes (value : List UInt8)
  | date (value : Date)
  | time (value : DateTime)
  /-- The kind of a manifest, which can stand where a text can. -/
  | kind (value : ResourceKind)
  /-- A value that is no data. -/
  | object
  | list (items : List Value)
  | tuple (items : List Value)
  | set (members : List Value)
  | mapping (entries : List (Value × Value))
  /-- Stands for a list or a mapping around this place. -/
  | enclosing (holder : Holder)

abbrev Entries := List (Value × Value)

namespace Value

instance : Inhabited Value := ⟨null⟩

/-- The name of a value's type in messages. -/
def typeName : Value → String
  | null => "NoneType"
  | bool _ => "bool"
  | int _ => "int"
  | float _ => "float"
  | text _ => "str"
  | bytes _ => "bytes"
  | date _ => "date"
  | time _ => "datetime"
  | kind _ => "ResourceKind"
  | object => "object"
  | list _ => "list"
  | tuple _ => "tuple"
  | set _ => "set"
  | mapping _ => "dict"
  | enclosing holder => if holder.isMapping then "dict" else "list"

/-- Whether a value counts as given: neither null nor false, zero or empty. -/
def isGiven : Value → Bool
  | null => false
  | bool value => value
  | int value => value ≠ 0
  | float (.finite _ significand _) => significand ≠ 0
  | text value => value ≠ ""
  | bytes value => !value.isEmpty
  | list items => !items.isEmpty
  | tuple items => !items.isEmpty
  | set members => !members.isEmpty
  | mapping entries => !entries.isEmpty
  | _ => true

/-- Whether a value can be the key of a mapping. -/
def isKey : Value → Bool
  | list _ => false
  | set _ => false
  | mapping _ => false
  | enclosing _ => false
  | _ => true

/-- The text that a value is, if it is one. -/
def text? : Value → Option String
  | text value => some value
  | kind value => some value.name
  | _ => none

/-- The number that a value is, if it is one: a truth value counts as zero or one. -/
def number? : Value → Option Binary64.Extended
  | bool value => some (.ratio (if value then 1 else 0) 1)
  | int value => some (.ratio value 1)
  | float value => some value.extended
  | _ => none

/-- Whether two values are the same key of a mapping. Numbers are the same key when they are
equal, whatever their types, and so are a kind and its name. -/
def sameKey : Value → Value → Bool
  | null, null => true
  | bytes left, bytes right => left = right
  | date left, date right => left = right
  | time left, time right => left.same right
  | left, right =>
      match left.text?, right.text? with
      | some left, some right => left = right
      | none, none =>
          match left.number?, right.number? with
          | some left, some right => left.same right
          | _, _ => false
      | _, _ => false

end Value

namespace Entries

/-- Puts a value under a key. The entry stays where the key was first put. -/
def put (key value : Value) : Entries → Entries
  | [] => [(key, value)]
  | (other, old) :: rest =>
      if other.sameKey key then (other, value) :: rest
      else (other, old) :: put key value rest

/-- Puts all entries of a list, in their order, so that of two values under a key the later one
is kept. -/
def putAll (entries : Entries) (more : Entries) : Entries :=
  more.foldl (fun entries entry => entries.put entry.1 entry.2) entries

/-- The value under a text. -/
def get? (entries : Entries) (key : String) : Option Value :=
  (entries.find? fun entry => entry.1.sameKey (.text key)).map (·.2)

end Entries

end RbacManifest
