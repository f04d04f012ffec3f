import RbacManifest.Value.Holding
import RbacManifest.Yaml.Node
import RbacManifest.Yaml.Scalar
import RbacManifest.Yaml.Scan

/-!
# Reading documents

`Yaml.load` reads the value that a text holds. Collections are filled from the outside to the
inside: of several faults in a document the one inside the fewest collections is reported, and of
those equally deep the first one.

A mapping may take over the entries of other mappings under the merge key; its own entries count
more. Entries of a mapping around it are taken over only when they are looked up, and a list around
it has none to be taken over. The keys of a mapping are single values.
-/

namespace RbacManifest

namespace Yaml

/-- A fault, and the number of collections that are filled before it shows. -/
structure DeepFault where
  depth : Nat
  fault : Fault
  deriving DecidableEq, Repr

/-- What is read at a place of a document. -/
abbrev Reading (α : Type) := Except DeepFault α

namespace Reading

/-- A fault that shows at once. -/
def fault {α : Type} (fault : Fault) : Reading α :=
  .error ⟨0, fault⟩

/-- A collection from what is read when it is filled. -/
def filled {α β : Type} (make : α → β) : Reading α → Reading β
  | .ok content => .ok (make content)
  | .error deep => .error ⟨deep.depth + 1, deep.fault⟩

/-- Two readings in the same collection, with the fault that shows first. -/
def both {α β γ : Type} (combine : α → β → γ) : Reading α → Reading β → Reading γ
  | .ok left, .ok right => .ok (combine left right)
  | .ok _, .error deep => .error deep
  | .error deep, .ok _ => .error deep
  | .error left, .error right => .error (if right.depth < left.depth then right else left)

/-- The readings in a collection, with the fault that shows first. -/
def all {α : Type} : List (Reading α) → Reading (List α)
  | [] => .ok []
  | reading :: rest => both List.cons reading (all rest)

/-- A reading as the key of a mapping. A collection is no key, whatever is inside it. -/
def asKey : Reading Value → Reading Value
  | .ok value => if value.isKey then .ok value else fault .malformed
  | .error ⟨0, f⟩ => fault f
  | .error _ => fault .malformed

/-- The readings of the entries of a mapping. -/
def entries (readings : List (Reading Value × Reading Value)) : Reading Entries :=
  (all (readings.map fun (key, value) => both Prod.mk (asKey key) value)).map
    fun list => Entries.putAll [] list

end Reading

namespace Reading

/-- Readings inside a collection as they stand outside of it. -/
def outOf (readings : List (Reading Value × Reading Value)) (whole : Reading Value) :
    List (Reading Value × Reading Value) :=
  match whole with
  | .ok whole => readings.map fun (key, value) => (key, value.map fun value => value.outOf whole)
  | .error _ => readings

/-- The readings of entries that are taken over from a mapping around the place. -/
def taken (holder : Holder) : Reading Value × Reading Value :=
  (.ok (Entries.taken holder).1, .ok (Entries.taken holder).2)

/-- Whether a reading is that of the entries that a mapping takes over from itself, which adds
nothing to them. -/
def isOwn : Reading Value × Reading Value → Bool
  | (.ok .object, .ok (.enclosing holder)) => holder.distance = 0
  | _ => false

end Reading

/-- Whether a type is one of single values. -/
def Tag.isSingle : Tag → Bool
  | .null | .bool | .int | .float | .text | .binary | .time => true
  | _ => false

namespace Node

mutual

/-- The text of the single value that a node is or that stands for it: a mapping may have an entry
for its principal value. `inner` is the number of mappings for which the node stands. It may be one
of these, and then there is no end to it. -/
def single (inner : Nat) : Node → Except Fault (List Char)
  | scalar _ text => .ok text
  | mapping _ entries => principal (inner + 1) entries
  | list _ _ => .error .malformed
  | enclosing holder => .error (if holder.distance < inner then .endless else .malformed)

/-- The text of the first principal value among the entries of a mapping. -/
def principal (inner : Nat) : List (Node × Node) → Except Fault (List Char)
  | [] => .error .malformed
  | (key, value) :: rest =>
      if key.tag = .principal then value.single inner else principal inner rest

end

/-- Reads a node as a single value of a type. -/
def readSingle (tag : Tag) (node : Node) : Reading Value :=
  match node.single 0 with
  | .error fault => .error ⟨0, fault⟩
  | .ok text =>
      match tag, node with
      | .time, mapping _ _ => .error ⟨0, .timeInMapping⟩
      | tag, _ => (tag.value text).mapError fun fault => ⟨0, fault⟩

/-- The readings of the entries of a mapping: those that are taken over from other mappings and
those of its own. -/
structure Contents where
  taken : List (Reading Value × Reading Value)
  own : List (Reading Value × Reading Value)

/-- All entries of a mapping; those that it takes over come first. -/
def Contents.all (contents : Contents) : List (Reading Value × Reading Value) :=
  contents.taken ++ contents.own

def keys (entries : Entries) : List Value :=
  entries.map (·.1)

mutual

def read : Node → Reading Value
  | scalar tag text =>
      if tag.isSingle then readSingle tag (scalar tag text)
      else if tag = .merge ∨ tag = .principal ∨ tag = .unknown then .error ⟨0, .malformed⟩
      else .error ⟨1, .malformed⟩
  | list tag items =>
      match tag with
      | .list => Reading.filled Value.list (Reading.all (readAll items))
      | .orderedMapping | .pairs => Reading.filled Value.list (Reading.all (readPairs items))
      | .mapping | .set => .error ⟨1, .malformed⟩
      | _ => .error ⟨0, .malformed⟩
  | mapping tag entries =>
      match tag with
      | .mapping =>
          match readEntries entries with
          | some contents => Reading.filled Value.mapping (Reading.entries contents.all)
          | none => .error ⟨1, .malformed⟩
      | .set =>
          match readEntries entries with
          | some contents =>
              Reading.filled (fun entries => .set (keys entries)) (Reading.entries contents.all)
          | none => .error ⟨1, .malformed⟩
      | .list | .orderedMapping | .pairs => .error ⟨1, .malformed⟩
      | tag =>
          if tag.isSingle then readSingle tag (mapping tag entries) else .error ⟨0, .malformed⟩
  | enclosing holder => .ok (.enclosing holder)

def readAll : List Node → List (Reading Value)
  | [] => []
  | node :: rest => node.read :: readAll rest

/-- Reads the members of a list of pairs, each of which is a mapping with one entry. -/
def readPairs : List Node → List (Reading Value)
  | [] => []
  | mapping _ [(key, value)] :: rest =>
      Reading.both (fun key value => .tuple [key, value]) key.read value.read :: readPairs rest
  | _ :: rest => .error ⟨0, .malformed⟩ :: readPairs rest

/-- Reads the entries of a mapping; `none` if it takes over entries from what is no mapping. -/
def readEntries : List (Node × Node) → Option Contents
  | [] => some ⟨[], []⟩
  | (key, value) :: rest =>
      if key.tag = .merge then do
        let taken ← readTaken value
        let contents ← readEntries rest
        let others := taken.filter fun reading => !Reading.isOwn reading
        return { contents with taken := others ++ contents.taken }
      else do
        let key := if key.tag = .principal then readSingle .text key else key.read
        let contents ← readEntries rest
        return { contents with own := (key, value.read) :: contents.own }

/-- Reads the entries that are taken over from a mapping or from a list of mappings. Of several
mappings the first one counts most, so it comes last. -/
def readTaken : Node → Option (List (Reading Value × Reading Value))
  | mapping _ entries => do
      let contents ← readEntries entries
      return Reading.outOf contents.all ((Reading.entries contents.all).map .mapping)
  | list _ items => do
      let taken ← readTakenAll items
      return Reading.outOf taken.reverse.flatten ((Reading.all (readAll items)).map .list)
  | enclosing holder => if holder.isMapping then some [Reading.taken holder] else none
  | scalar _ _ => none

/-- Reads the entries that are taken over from each mapping of a list. -/
def readTakenAll : List Node → Option (List (List (Reading Value × Reading Value)))
  | [] => some []
  | mapping _ entries :: rest => do
      let contents ← readEntries entries
      let others ← readTakenAll rest
      return Reading.outOf contents.all ((Reading.entries contents.all).map .mapping) :: others
  | enclosing holder :: rest => do
      let others ← readTakenAll rest
      if holder.isMapping then some ([Reading.taken holder] :: others) else none
  | _ => none

end

end Node

/-- The tree of the document that a text holds, if it holds one. -/
def document (text : List Char) : Except Fault (Option Tree) :=
  if text.all isDocumentChar then Tree.ofTokens? (Token.ofText text) else .error .malformed

/-- The value that a text holds. A text without a document holds null. -/
def load (text : List Char) : Except Fault Value := do
  match ← document text with
  | none => return .null
  | some tree =>
      let (node, _) ← Node.ofTree [] tree
      node.read.mapError (·.fault)

end Yaml

end RbacManifest
