import RbacManifest.Number.Shortest
import RbacManifest.Text.Quoted
import RbacManifest.Value

/-!
# Values in messages

How messages show a value: a text as it is, and everything else, in particular a text inside a
list or a mapping, so that its type can be told.
-/

namespace RbacManifest

namespace Value

/-- Bytes as messages show them: printable ones as characters and the others as numbers. -/
def describeBytes (bytes : List UInt8) : String :=
  let chars := bytes.map fun b => Char.ofNat b.toNat
  let quote := Text.quoteFor chars
  let inner := chars.flatMap fun c =>
    if c.toNat < 0x80 then Text.quotedChar quote c
    else ['\\', 'x'] ++ Text.hex Text.hexDigit 2 c.toNat
  String.ofList ('b' :: quote :: inner ++ [quote])

mutual

/-- A value as messages show it inside other values. -/
def describe : Value → String
  | null => "None"
  | bool value => if value then "True" else "False"
  | int value => toString value
  | float value => value.text
  | text value => Text.quoted value
  | bytes value => describeBytes value
  | date value => value.text
  | time value => value.text " "
  | kind .clusterRole => "<ResourceKind.CLUSTER_ROLE: 'ClusterRole'>"
  | kind .clusterRoleBinding => "<ResourceKind.CLUSTER_ROLE_BINDING: 'ClusterRoleBinding'>"
  | object => "<object object>"
  | list items => Text.bracketed (describeAll items)
  | tuple [] => "()"
  | tuple items => Text.parenthesized (describeAll items)
  | set [] => "set()"
  | set members => "\x7b" ++ Text.commaSeparated (describeAll members) ++ "\x7d"
  | mapping entries => "\x7b" ++ Text.commaSeparated (describeEntries entries) ++ "\x7d"
  | enclosing holder => if holder.isMapping then "\x7b...\x7d" else "[...]"

/-- The members of a list as messages show them. -/
def describeAll : List Value → List String
  | [] => []
  | value :: rest => value.describe :: describeAll rest

/-- The entries of a mapping as messages show them. -/
def describeEntries : List (Value × Value) → List String
  | [] => []
  | (key, value) :: rest => (key.describe ++ ": " ++ value.describe) :: describeEntries rest

end

/-- A value as messages show it on its own. -/
def display : Value → String
  | text value => value
  | kind value => value.name
  | value => value.describe

end Value

end RbacManifest
