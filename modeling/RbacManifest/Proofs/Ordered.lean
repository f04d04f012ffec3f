import Mathlib.Data.List.Sort
import RbacManifest.Ordered

/-!
# Canonical lists

`Ordered.ofList` puts every list into one form that depends on its members alone: the result is
increasing, it has the members of the list, and it is the only increasing list that has them.
-/

namespace RbacManifest

namespace Ordered

variable {α : Type} [DecidableEq α] [LT α] [DecidableLT α]

@[simp]
theorem mem_insert {member new : α} {ordered : List α} :
    member ∈ insert new ordered ↔ member = new ∨ member ∈ ordered := by
  induction ordered with
  | nil => simp [insert]
  | cons other rest ih =>
      simp only [insert]
      split
      · next same =>
        subst same
        simp
      · split
        · simp
        · simp [ih, or_left_comm]

@[simp]
theorem mem_insertAll {member : α} {members ordered : List α} :
    member ∈ insertAll members ordered ↔ member ∈ members ∨ member ∈ ordered := by
  induction members with
  | nil => simp [insertAll]
  | cons first rest ih =>
      change member ∈ insert first (insertAll rest ordered) ↔ _
      simp [ih, or_assoc]

@[simp]
theorem mem_ofList {member : α} {members : List α} :
    member ∈ ofList members ↔ member ∈ members := by
  simp [ofList]

@[simp]
theorem ofList_eq_nil_iff {members : List α} : ofList members = [] ↔ members = [] := by
  simp [List.eq_nil_iff_forall_not_mem]

omit [DecidableEq α] in
theorem mem_insertKeyed {β : Type} {member new : α × β} {ordered : List (α × β)} :
    member ∈ insertKeyed new ordered ↔ member = new ∨ member ∈ ordered := by
  induction ordered with
  | nil => simp [insertKeyed]
  | cons other rest ih =>
      rw [insertKeyed]
      split
      · rw [List.mem_cons, List.mem_cons, ih, or_left_comm]
      · exact List.mem_cons

omit [DecidableEq α] in
@[simp]
theorem mem_ofKeyed {β : Type} {member : α × β} {members : List (α × β)} :
    member ∈ ofKeyed members ↔ member ∈ members := by
  induction members with
  | nil => simp [ofKeyed]
  | cons first rest ih =>
      change member ∈ insertKeyed first (ofKeyed rest) ↔ _
      rw [mem_insertKeyed, ih, List.mem_cons]

section Increasing

variable [order : IsStrictTotalOrder α (· < ·)]

theorem increasing_insert {new : α} {ordered : List α}
    (increasing : ordered.Pairwise (· < ·)) : (insert new ordered).Pairwise (· < ·) := by
  induction ordered with
  | nil => simp [insert]
  | cons other rest ih =>
      rcases List.pairwise_cons.mp increasing with ⟨other_lt, rest_increasing⟩
      simp only [insert]
      split
      · exact increasing
      · next differs =>
        split
        · next new_lt =>
          refine List.pairwise_cons.mpr ⟨?_, increasing⟩
          intro member member_mem
          rcases List.mem_cons.mp member_mem with rfl | member_mem
          · exact new_lt
          · exact order.trans _ _ _ new_lt (other_lt member member_mem)
        · next not_lt =>
          have other_lt_new : other < new := by
            by_contra not_gt
            exact differs (order.trichotomous new other not_lt not_gt)
          refine List.pairwise_cons.mpr ⟨?_, ih rest_increasing⟩
          intro member member_mem
          rcases mem_insert.mp member_mem with rfl | member_mem
          · exact other_lt_new
          · exact other_lt member member_mem

theorem increasing_insertAll {members ordered : List α}
    (increasing : ordered.Pairwise (· < ·)) :
    (insertAll members ordered).Pairwise (· < ·) := by
  induction members with
  | nil => exact increasing
  | cons first rest ih => exact increasing_insert ih

theorem increasing_ofList (members : List α) : (ofList members).Pairwise (· < ·) :=
  increasing_insertAll List.Pairwise.nil

/-- Two lists have one canonical form exactly when they have the same members. -/
theorem ofList_eq_ofList_iff {left right : List α} :
    ofList left = ofList right ↔ ∀ member, member ∈ left ↔ member ∈ right := by
  constructor
  · intro equal member
    rw [← mem_ofList, equal, mem_ofList]
  · intro same
    apply (increasing_ofList left).eq_of_mem_iff (increasing_ofList right)
    simpa using same

omit [DecidableEq α] in
theorem increasing_insertKeyed {β : Type} {new : α × β} {ordered : List (α × β)}
    (isNew : ∀ member ∈ ordered, member.1 ≠ new.1)
    (increasing : ordered.Pairwise fun first second => first.1 < second.1) :
    (insertKeyed new ordered).Pairwise fun first second => first.1 < second.1 := by
  induction ordered with
  | nil => simp [insertKeyed]
  | cons other rest ih =>
      rcases List.pairwise_cons.mp increasing with ⟨other_lt, rest_increasing⟩
      rcases List.forall_mem_cons.mp isNew with ⟨other_ne, rest_ne⟩
      rw [insertKeyed]
      split
      · next other_lt_new =>
        apply List.pairwise_cons.mpr
        refine ⟨?_, ih rest_ne rest_increasing⟩
        intro member isMember
        rcases mem_insertKeyed.mp isMember with rfl | isMember
        · exact other_lt_new
        · exact other_lt member isMember
      · next not_lt =>
        have new_lt_other : new.1 < other.1 := by
          by_contra not_gt
          exact other_ne (order.trichotomous _ _ not_lt not_gt)
        apply List.pairwise_cons.mpr
        refine ⟨?_, increasing⟩
        intro member isMember
        rcases List.mem_cons.mp isMember with rfl | isMember
        · exact new_lt_other
        · exact order.trans _ _ _ new_lt_other (other_lt member isMember)

omit [DecidableEq α] in
/-- Members with different keys come in the order of these. -/
theorem increasing_ofKeyed {β : Type} {members : List (α × β)}
    (distinct : (members.map (·.1)).Nodup) :
    (ofKeyed members).Pairwise fun first second => first.1 < second.1 := by
  induction members with
  | nil => exact List.Pairwise.nil
  | cons first rest ih =>
      rw [List.map_cons, List.nodup_cons] at distinct
      apply increasing_insertKeyed
      · intro member isMember same
        apply distinct.1
        rw [← same]
        exact List.mem_map_of_mem (mem_ofKeyed.mp isMember)
      · exact ih distinct.2

end Increasing

omit [DecidableEq α] in
/-- Only the keys say where members are put. -/
theorem ofKeyed_map {β γ : Type} (change : α × β → γ) (members : List (α × β)) :
    ofKeyed (members.map fun member => (member.1, change member)) =
      (ofKeyed members).map fun member => (member.1, change member) := by
  have insertKeyed_map (new : α × β) (ordered : List (α × β)) :
      insertKeyed (new.1, change new) (ordered.map fun member => (member.1, change member)) =
        (insertKeyed new ordered).map fun member => (member.1, change member) := by
    induction ordered with
    | nil => rfl
    | cons other rest ih =>
        simp only [List.map_cons, insertKeyed]
        split
        · rw [List.map_cons, ih]
        · rfl
  induction members with
  | nil => rfl
  | cons first rest ih =>
      change insertKeyed _ (ofKeyed (rest.map _)) = _
      rw [ih]
      exact insertKeyed_map first (ofKeyed rest)

end Ordered

end RbacManifest
