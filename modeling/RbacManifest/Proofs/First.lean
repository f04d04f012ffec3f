import Mathlib.Data.List.Basic

/-!
# First members

The first member of a list that has a property, and walks over lists that stop at a failure. Such a
walk fails with the failure of the first member that has one: `Except.mapM_eq_error_iff`. Checks of
which each reports the first member of a list do so together when they are made one after the other:
`ReportsFirst.append`.
-/

namespace RbacManifest

variable {α β ε : Type} {property : α → Prop} {first member : α} {rest members : List α}

/-- Whether a member of a list is the first one with a property. -/
def IsFirst (property : α → Prop) (members : List α) (member : α) : Prop :=
  ∃ before behind, members = before ++ member :: behind ∧ (∀ other ∈ before, ¬property other) ∧
    property member

namespace IsFirst

theorem not_nil : ¬IsFirst property [] member := by
  rintro ⟨before, behind, none, _⟩
  simp at none

theorem cons_iff :
    IsFirst property (first :: rest) member ↔
      (member = first ∧ property first) ∨ (¬property first ∧ IsFirst property rest member) := by
  constructor
  · rintro ⟨before, behind, split, fail, holds⟩
    rcases List.cons_eq_append_iff.mp split with ⟨rfl, same⟩ | ⟨others, rfl, rest_eq⟩
    · cases same
      exact Or.inl ⟨rfl, holds⟩
    · rw [List.forall_mem_cons] at fail
      exact Or.inr ⟨fail.1, others, behind, rest_eq, fail.2, holds⟩
  · rintro (⟨rfl, holds⟩ | ⟨fails, before, behind, rfl, fail, holds⟩)
    · exact ⟨[], rest, rfl, by simp, holds⟩
    · exact ⟨first :: before, behind, rfl, List.forall_mem_cons.mpr ⟨fails, fail⟩, holds⟩

theorem exists_of_mem (someHolds : ∃ member ∈ members, property member) :
    ∃ member, IsFirst property members member := by
  induction members with
  | nil => simp at someHolds
  | cons first rest ih =>
      by_cases holds : property first
      · exact ⟨first, cons_iff.mpr (Or.inl ⟨rfl, holds⟩)⟩
      · rw [List.exists_mem_cons_iff] at someHolds
        rcases ih (someHolds.resolve_left holds) with ⟨member, isFirst⟩
        exact ⟨member, cons_iff.mpr (Or.inr ⟨holds, isFirst⟩)⟩

theorem append_iff :
    IsFirst property (members ++ rest) member ↔
      IsFirst property members member ∨
        ((∀ other ∈ members, ¬property other) ∧ IsFirst property rest member) := by
  induction members with
  | nil => simp [not_nil]
  | cons first members ih =>
      rw [List.cons_append, cons_iff, cons_iff, List.forall_mem_cons, ih]
      tauto

theorem congr {other : α → Prop} (same : ∀ member ∈ members, property member ↔ other member) :
    IsFirst property members member ↔ IsFirst other members member := by
  induction members with
  | nil => simp only [not_nil]
  | cons first rest ih =>
      rw [List.forall_mem_cons] at same
      rw [cons_iff, cons_iff, same.1, ih same.2]

theorem mem (isFirst : IsFirst property members member) : member ∈ members := by
  rcases isFirst with ⟨before, behind, rfl, _⟩
  simp

theorem holds (isFirst : IsFirst property members member) : property member := by
  rcases isFirst with ⟨_, _, _, _, holds⟩
  exact holds

end IsFirst

/-! ## Walks that stop at a failure -/

variable {read : α → Except ε β}

theorem Except.mapM_eq_ok {result : α → β}
    (reads : ∀ member ∈ members, read member = .ok (result member)) :
    members.mapM read = .ok (members.map result) := by
  induction members with
  | nil => rfl
  | cons first rest ih =>
      rw [List.forall_mem_cons] at reads
      rw [List.mapM_cons, reads.1, ih reads.2]
      rfl

theorem Except.exists_mapM_iff :
    (∃ results, members.mapM read = .ok results) ↔ ∀ member ∈ members, ∃ result,
      read member = .ok result := by
  induction members with
  | nil => exact ⟨by simp, fun _ => ⟨[], rfl⟩⟩
  | cons first rest ih =>
      rw [List.forall_mem_cons, ← ih, List.mapM_cons]
      cases read first with
      | error failure => simp [bind, Except.bind]
      | ok value => cases List.mapM read rest <;> simp [bind, Except.bind, pure, Except.pure]

theorem Except.mapM_eq_error_iff {failure : ε} :
    members.mapM read = .error failure ↔
      ∃ member, IsFirst (fun member => ∃ failure, read member = .error failure) members member ∧
        read member = .error failure := by
  induction members with
  | nil => simp [IsFirst.not_nil, pure, Except.pure]
  | cons first rest ih =>
      simp only [IsFirst.cons_iff]
      rw [List.mapM_cons]
      cases outcome : read first with
      | error other =>
          simp only [bind, Except.bind, Except.error.injEq, exists_eq', and_true, not_true_eq_false,
            false_and, or_false, exists_eq_left, outcome]
      | ok value =>
          simp only [reduceCtorEq, exists_false, and_false, not_false_eq_true, true_and, false_or]
          rw [← ih]
          cases List.mapM read rest <;> simp [bind, Except.bind, pure, Except.pure]

/-! ## Checks that are made one after the other -/

/-- Whether a check passes if no member of a list has a property, and otherwise fails because of the
first one that has it. -/
structure ReportsFirst (property : α → Prop) (failure : α → ε) (members : List α)
    (check : Except ε Unit) : Prop where
  passes : (∀ member ∈ members, ¬property member) → check = .ok ()
  fails : ∀ member, IsFirst property members member → check = .error (failure member)

namespace ReportsFirst

variable {failure : α → ε} {check next : Except ε Unit}

theorem of_forall_not (absent : ∀ member ∈ members, ¬property member) :
    ReportsFirst property failure members (.ok ()) where
  passes _ := rfl
  fails member isFirst := absurd isFirst.holds (absent member isFirst.mem)

/-- Nothing behind a member with the property is looked at. -/
theorem of_holds (holds : property first) :
    ReportsFirst property failure (first :: rest) (.error (failure first)) where
  passes absent := absurd holds (absent first (by simp))
  fails member isFirst := by
    rcases IsFirst.cons_iff.mp isFirst with ⟨rfl, _⟩ | ⟨fails, _⟩
    · rfl
    · exact absurd holds fails

/-- A member without the property can be passed by. -/
theorem cons (fails : ¬property first) (reports : ReportsFirst property failure rest check) :
    ReportsFirst property failure (first :: rest) check where
  passes absent := reports.passes (List.forall_mem_cons.mp absent).2
  fails member isFirst := by
    rcases IsFirst.cons_iff.mp isFirst with ⟨_, holds⟩ | ⟨_, isFirst_rest⟩
    · exact absurd holds fails
    · exact reports.fails member isFirst_rest

/-- The second check is made only if the first one has passed, which looks at the members in
front. -/
theorem append (reports : ReportsFirst property failure members check)
    (next_reports : ReportsFirst property failure rest next) :
    ReportsFirst property failure (members ++ rest) (check >>= fun _ => next) where
  passes absent := by
    rw [List.forall_mem_append] at absent
    rw [reports.passes absent.1]
    exact next_reports.passes absent.2
  fails member isFirst := by
    rcases IsFirst.append_iff.mp isFirst with isFirst_front | ⟨absent, isFirst_rest⟩
    · rw [reports.fails member isFirst_front]
      rfl
    · rw [reports.passes absent]
      exact next_reports.fails member isFirst_rest

theorem eq_ok_iff (reports : ReportsFirst property failure members check) :
    check = .ok () ↔ ∀ member ∈ members, ¬property member := by
  constructor
  · intro passed
    by_contra present
    push Not at present
    rcases IsFirst.exists_of_mem present with ⟨member, isFirst⟩
    rw [reports.fails member isFirst] at passed
    cases passed
  · exact reports.passes

end ReportsFirst

end RbacManifest
