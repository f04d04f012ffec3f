import RbacManifest.Yaml.Escaped
import RbacManifest.Yaml.Node
import RbacManifest.Yaml.Style

/-!
# Writing documents

`Node.write` writes a value by indentation. The entries of a mapping stand one below the other, a
key and the value behind a colon; so do the members of a list, behind dashes. Keys that are empty,
long or have line ends stand behind a question mark on lines of their own. What stands behind a
dash, a question mark or the colon of such a key may begin on the same line.
-/

namespace RbacManifest

namespace Yaml

namespace Node

/-- The distance between the columns of a collection and of the collections in it. -/
def indentation : Nat := 2

/-- A single value, written from a column on. Further lines are indented; lines are broken only
where that is asked for. -/
def writeScalar (splits : Bool) (indent column : Nat) (tag : Tag) (text : List Char) :
    List Char :=
  match Style.choose tag text with
  | .plain =>
      if splits then Folded.plain indent column ' ' text else text
  | .quoted => '\'' :: Folded.quoted splits indent (column + 1) none text ++ ['\'']
  | .escaped => '"' :: Escaped.write splits indent (column + 1) .start text ++ ['"']

/-- The length of the shortest text that states a type. -/
def tagLength : Tag → Nat
  | .float => 7
  | .bool | .null => 6
  | .time => 11
  | _ => 5

/-- The least length, with its type, of a key that is not written in front of its colon. -/
def longKey : Nat := 128

/-- A key as it is written in front of its colon, if it is short enough for that. -/
def shortKey? (indent : Nat) : Node → Option (List Char)
  | scalar tag text =>
      if text.length + tagLength tag < longKey && !text.isEmpty && !text.any isBreak then
        some (writeScalar false 0 indent tag text)
      else none
  | _ => none

mutual

/-- A value behind a dash, a question mark or a colon, from a column on. `indent` is the column of
the collection around it. A collection begins on the same line only where that is asked for; a
list behind the colon of a short key is not indented. -/
def write (sameLine : Bool) (indent column : Nat) : Node → List Char
  | scalar tag text =>
      ' ' :: writeScalar true (indent + indentation) (column + 1) tag text
  | list _ [] => " []".toList
  | mapping _ [] => " \x7b\x7d".toList
  | list _ items =>
      if sameLine then ' ' :: writeItems true (indent + indentation) items
      else writeItems false indent items
  | mapping _ entries =>
      if sameLine then ' ' :: writeEntries true (indent + indentation) entries
      else writeEntries false (indent + indentation) entries
  | enclosing _ => []

/-- The members of a list behind their dashes, each on a line of its own. The first line may be
there already. -/
def writeItems (onLine : Bool) (indent : Nat) : List Node → List Char
  | [] => []
  | node :: rest =>
      (if onLine then [] else Folded.newLine indent) ++
        '-' :: write true indent (indent + 1) node ++ writeItems false indent rest

/-- The entries of a mapping, each on lines of its own. The first line may be there already. -/
def writeEntries (onLine : Bool) (indent : Nat) : List (Node × Node) → List Char
  | [] => []
  | (key, value) :: rest =>
      (if onLine then [] else Folded.newLine indent) ++
        (match shortKey? indent key with
          | some written => written ++ ':' :: write false indent (indent + written.length + 1) value
          | none =>
              '?' :: write true indent (indent + 1) key ++ Folded.newLine indent ++
                ':' :: write true indent (indent + 1) value) ++
        writeEntries false indent rest

end

/-- A document with the given entries. -/
def writeDocument (entries : List (Node × Node)) : List Char :=
  writeEntries true 0 entries ++ ['\n']

end Node

end Yaml

end RbacManifest
