/-!
# Ordered lists without repetition

Fields whose order carries no meaning are kept in one canonical form: increasing, each member
once. Inserting one member at a time builds the form from any list.
-/

namespace RbacManifest

namespace Ordered

variable {α : Type} [DecidableEq α] [LT α] [DecidableLT α]

/-- Puts a member at its place in an increasing list, unless it is there already. -/
def insert (member : α) : List α → List α
  | [] => [member]
  | other :: rest =>
      if member = other then other :: rest
      else if member < other then member :: other :: rest
      else other :: insert member rest

/-- Puts all members of a list at their places in an increasing list. -/
def insertAll (members : List α) (ordered : List α) : List α :=
  members.foldr insert ordered

/-- The members of a list in increasing order, each once. -/
def ofList (members : List α) : List α :=
  insertAll members []

/-- Puts a keyed member before the first one whose key is not less than its own. -/
def insertKeyed {β : Type} (member : α × β) : List (α × β) → List (α × β)
  | [] => [member]
  | other :: rest =>
      if other.1 < member.1 then other :: insertKeyed member rest else member :: other :: rest

/-- Keyed members in the order of their keys. -/
def ofKeyed {β : Type} (members : List (α × β)) : List (α × β) :=
  members.foldr insertKeyed []

end Ordered

end RbacManifest
