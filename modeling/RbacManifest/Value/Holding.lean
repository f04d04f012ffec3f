import RbacManifest.Value

/-!
# Values that hold themselves

A collection that is found inside itself goes on without end, and a holder stands for it there.
`Entries.opened` gives the entries of such a mapping as they are looked up: the mapping has been put
in the place of its holders, so no value among them needs the mapping around it.
-/

namespace RbacManifest

namespace Value

mutual

/-- A value in which other values are put for holders. `inner` is the number of collections of the
value itself around a holder. -/
def replaceHolders (new : Nat → Holder → Value) (inner : Nat) : Value → Value
  | enclosing holder => new inner holder
  | list items => list (replaceHoldersAll new (inner + 1) items)
  | tuple items => tuple (replaceHoldersAll new (inner + 1) items)
  | mapping entries => mapping (replaceHoldersEntries new (inner + 1) entries)
  | value => value

/-- The members of a list in which other values are put for holders. -/
def replaceHoldersAll (new : Nat → Holder → Value) (inner : Nat) : List Value → List Value
  | [] => []
  | value :: rest => value.replaceHolders new inner :: replaceHoldersAll new inner rest

/-- The entries of a mapping in which other values are put for holders. No key is a collection. -/
def replaceHoldersEntries (new : Nat → Holder → Value) (inner : Nat) :
    List (Value × Value) → List (Value × Value)
  | [] => []
  | (key, value) :: rest =>
      (key, value.replaceHolders new inner) :: replaceHoldersEntries new inner rest

end

/-- A value as it stands further inside the collections around it. -/
def deeper (steps : Nat) (value : Value) : Value :=
  value.replaceHolders (fun inner holder => enclosing (holder.deeper steps inner)) 0

/-- A value inside a collection, as it stands outside of it: the collection is put for what stood
for it. -/
def outOf (value whole : Value) : Value :=
  value.replaceHolders (fun inner holder =>
    match holder.without? inner with
    | some holder => enclosing holder
    | none => whole.deeper inner) 0

end Value

namespace Entries

/-- An entry that stands for the entries of a mapping around it, which are taken over. Its key is no
data, so that it is not the key of any other entry. -/
def taken (holder : Holder) : Value × Value :=
  (.object, .enclosing holder)

/-- The entries of a mapping as they stand outside of it. -/
def outward (entries : Entries) : Entries :=
  entries.map fun (key, value) => (key, value.outOf (.mapping entries))

/-- The entries that an entry stands for. -/
def given : Value × Value → Entries
  | (.object, .mapping entries) => outward entries
  | entry => [entry]

/-- The entries of a mapping that no collection is around, with all those that it takes over. -/
def settled (entries : Entries) : Entries :=
  putAll [] (entries.flatMap given)

/-- The entries of a mapping that no collection is around, as they are looked up. -/
def opened (entries : Entries) : Entries :=
  (settled entries).outward

end Entries

end RbacManifest
