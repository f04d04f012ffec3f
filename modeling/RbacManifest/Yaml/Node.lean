import RbacManifest.Value.Holder
import RbacManifest.Yaml.Tag
import RbacManifest.Yaml.Tree

/-!
# Values with their types

A node is a value of a document together with its type. `Node.ofTree` gives every value its type
and puts the values that aliases refer to in their places. An alias inside the very value that it
refers to has nothing to be replaced by, and stays as a node that stands for the value around it.
What a name stands for is kept as it stands at the place that is read, so it changes whenever a
collection begins or ends.
-/

namespace RbacManifest

namespace Yaml

/-- A value with its type. -/
inductive Node
  | scalar (tag : Tag) (text : List Char)
  | list (tag : Tag) (items : List Node)
  | mapping (tag : Tag) (entries : List (Node × Node))
  /-- Stands for a list or a mapping around this place. -/
  | enclosing (holder : Holder)

namespace Node

def tag : Node → Tag
  | scalar tag _ => tag
  | list tag _ => tag
  | mapping tag _ => tag
  | enclosing holder => if holder.isMapping then .mapping else .list

mutual

/-- A node in which other nodes are put for holders. `inner` is the number of collections of the
node itself around a holder. -/
def replaceHolders (new : Nat → Holder → Node) (inner : Nat) : Node → Node
  | scalar tag text => scalar tag text
  | list tag items => list tag (replaceHoldersAll new (inner + 1) items)
  | mapping tag entries => mapping tag (replaceHoldersEntries new (inner + 1) entries)
  | enclosing holder => new inner holder

/-- The members of a list in which other nodes are put for holders. -/
def replaceHoldersAll (new : Nat → Holder → Node) (inner : Nat) : List Node → List Node
  | [] => []
  | node :: rest => node.replaceHolders new inner :: replaceHoldersAll new inner rest

/-- The entries of a mapping in which other nodes are put for holders. -/
def replaceHoldersEntries (new : Nat → Holder → Node) (inner : Nat) :
    List (Node × Node) → List (Node × Node)
  | [] => []
  | (key, value) :: rest =>
      (key.replaceHolders new inner, value.replaceHolders new inner)
        :: replaceHoldersEntries new inner rest

end

/-- A node as it stands further inside the collections around it. -/
def deeper (steps : Nat) (node : Node) : Node :=
  node.replaceHolders (fun inner holder => enclosing (holder.deeper steps inner)) 0

/-- A node inside a collection, as it stands outside of it: the collection is put for what stood for
it. -/
def outOf (node whole : Node) : Node :=
  node.replaceHolders (fun inner holder =>
    match holder.without? inner with
    | some holder => enclosing holder
    | none => whole.deeper inner) 0

/-- The values that names stand for. Of two values for a name the first one counts. -/
abbrev Anchors := List (String × Node)

/-- Lets a name stand for a value. -/
def Anchors.add (name : Option String) (node : Node) (anchors : Anchors) : Anchors :=
  match name with
  | none => anchors
  | some name => (name, node) :: anchors

/-- What the names stand for inside a collection that begins, which may have a name itself. -/
def Anchors.entering (name : Option String) (isMapping : Bool) (anchors : Anchors) : Anchors :=
  Anchors.add name (enclosing ⟨isMapping, 0⟩)
    (anchors.map fun (name, node) => (name, node.deeper 1))

/-- What the names stand for behind a collection that ends. -/
def Anchors.leaving (whole : Node) (anchors : Anchors) : Anchors :=
  anchors.map fun (name, node) => (name, node.outOf whole)

/-- Whether a name, if there is one, is not taken. -/
def Anchors.isFree (name : Option String) (anchors : Anchors) : Bool :=
  match name with
  | none => true
  | some name => (anchors.lookup name).isNone

/-- The type of a single value: the one that its tag states, and without a tag the one that its
text suggests. The tag of a lone exclamation mark lets the text decide even between quotes. -/
def scalarTag (properties : Properties) (text : List Char) (isPlain : Bool) : Tag :=
  match properties.tag with
  | none => if isPlain then Tag.ofPlain text else .text
  | some "!" => Tag.ofPlain text
  | some tag => Tag.ofString tag

/-- The type of a collection. -/
def collectionTag (properties : Properties) (usual : Tag) : Tag :=
  match properties.tag with
  | none => usual
  | some "!" => usual
  | some tag => Tag.ofString tag

mutual

/-- Gives a value and all values inside it their types, knowing what the names stand for that were
given before it. -/
def ofTree (anchors : Anchors) : Tree → Except Fault (Node × Anchors)
  | .alias name =>
      match anchors.lookup name with
      | some node => .ok (node, anchors)
      | none => .error .malformed
  | .scalar properties text isPlain =>
      if !anchors.isFree properties.anchor then .error .malformed
      else
        let node := scalar (scalarTag properties text isPlain) text
        .ok (node, anchors.add properties.anchor node)
  | .list properties items =>
      if !anchors.isFree properties.anchor then .error .malformed
      else do
        let (nodes, anchors) ← ofTrees (anchors.entering properties.anchor false) items
        let node := list (collectionTag properties .list) nodes
        return (node, anchors.leaving node)
  | .mapping properties entries =>
      if !anchors.isFree properties.anchor then .error .malformed
      else do
        let (nodes, anchors) ← ofEntries (anchors.entering properties.anchor true) entries
        let node := mapping (collectionTag properties .mapping) nodes
        return (node, anchors.leaving node)

/-- Gives the members of a list their types. -/
def ofTrees (anchors : Anchors) : List Tree → Except Fault (List Node × Anchors)
  | [] => .ok ([], anchors)
  | tree :: rest => do
      let (node, anchors) ← ofTree anchors tree
      let (nodes, anchors) ← ofTrees anchors rest
      return (node :: nodes, anchors)

/-- Gives the keys and the values of a mapping their types. -/
def ofEntries (anchors : Anchors) :
    List (Tree × Tree) → Except Fault (List (Node × Node) × Anchors)
  | [] => .ok ([], anchors)
  | (key, value) :: rest => do
      let (key, anchors) ← ofTree anchors key
      let (value, anchors) ← ofTree anchors value
      let (nodes, anchors) ← ofEntries anchors rest
      return ((key, value) :: nodes, anchors)

end

end Node

end Yaml

end RbacManifest
