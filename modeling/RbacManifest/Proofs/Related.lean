import Mathlib.Data.List.Forall2

/-!
# Lists that are related member by member

Small additions to the theory of `List.Forall₂`.
-/

namespace RbacManifest

namespace Related

variable {α β : Type} {first second : α → β → Prop} {left : List α} {right : List β}

theorem exists_of_mem {x : α} (related : List.Forall₂ first left right) (isMember : x ∈ left) :
    ∃ y ∈ right, first x y := by
  induction related with
  | nil => simp at isMember
  | cons heads_related _ ih =>
      rcases List.mem_cons.mp isMember with rfl | isMember
      · exact ⟨_, by simp, heads_related⟩
      · rcases ih isMember with ⟨y, y_mem, y_related⟩
        exact ⟨y, by simp [y_mem], y_related⟩

theorem congr_of_mem (same : ∀ x ∈ left, ∀ y ∈ right, (first x y ↔ second x y)) :
    List.Forall₂ first left right ↔ List.Forall₂ second left right := by
  induction left generalizing right with
  | nil => simp
  | cons x rest ih =>
      cases right with
      | nil => simp
      | cons y others =>
          rw [List.forall₂_cons, List.forall₂_cons, same x (by simp) y (by simp), ih]
          exact fun x x_mem y y_mem => same x (by simp [x_mem]) y (by simp [y_mem])

theorem map_eq_map_iff {write : α → β} {left right : List α} :
    left.map write = right.map write ↔
      List.Forall₂ (fun left right => write left = write right) left right := by
  rw [← List.forall₂_eq_eq_eq, List.forall₂_map_left_iff, List.forall₂_map_right_iff]

end Related

end RbacManifest
