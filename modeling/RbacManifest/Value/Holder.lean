/-!
# Collections around a place

A value may be found inside itself. There it is not repeated: a holder stands for it, which says how
far outside the collection is that it stands for.
-/

namespace RbacManifest

/-- A list or a mapping around a place. -/
structure Holder where
  isMapping : Bool
  /-- How many other collections around the place lie inside this one. -/
  distance : Nat
  deriving DecidableEq, Repr

namespace Holder

/-- A collection as it is referred to from further inside. The innermost collections around the
place, `inner` of them, are those that the reference keeps its distance to. -/
def deeper (steps inner : Nat) (holder : Holder) : Holder :=
  if holder.distance < inner then holder
  else { holder with distance := holder.distance + steps }

/-- A collection as it is referred to when one of the collections around the place is gone, the one
behind the innermost `inner`. There is none if it is the one that is gone. -/
def without? (inner : Nat) (holder : Holder) : Option Holder :=
  if holder.distance < inner then some holder
  else if holder.distance = inner then none
  else some { holder with distance := holder.distance - 1 }

end Holder

end RbacManifest
