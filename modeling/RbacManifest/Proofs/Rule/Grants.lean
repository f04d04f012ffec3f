import Mathlib.Data.Finset.Card
import Mathlib.Data.String.Basic
import RbacManifest.Proofs.Ordered
import RbacManifest.Rule.Aggregate

/-!
# What merged rules allow

Merging keeps two things about a list of rules: which canonical targets occur, and which verbs are
allowed on each of them. `Grants.mem_targets_ofRules` and `Grants.allows_ofRules` say that nothing
else enters and nothing is lost, `Grants.isCanonical_ofRules` that the result is in canonical form,
and `Grants.IsCanonical.ext` that a canonical form holds no more than these two things.
-/

namespace RbacManifest

namespace Target

theorem lt_iff_fields_lt {left right : Target} : left < right ↔ left.fields < right.fields :=
  Iff.rfl

theorem fields_injective : Function.Injective fields := by
  intro left right same
  cases left
  cases right
  simpa [fields] using same

instance isStrictTotalOrder_lt : IsStrictTotalOrder Target (· < ·) where
  irrefl target := by
    rw [lt_iff_fields_lt]
    exact irrefl target.fields
  trans first second third := by
    simp only [lt_iff_fields_lt]
    exact Trans.trans
  trichotomous left right := by
    simp only [lt_iff_fields_lt]
    intro not_lt not_gt
    exact fields_injective (Std.Trichotomous.trichotomous _ _ not_lt not_gt)

end Target

namespace Grants

/-- The targets on which something is granted. -/
def targets (grants : Grants) : List Target :=
  grants.map (·.1)

/-- Whether a verb is allowed on a target. -/
def Allows (grants : Grants) (target : Target) (verb : String) : Prop :=
  ∃ verbs, (target, verbs) ∈ grants ∧ verb ∈ verbs

/-- Targets come in increasing order, and so do the verbs of each of them. -/
structure IsCanonical (grants : Grants) : Prop where
  targets_increasing : grants.targets.Pairwise (· < ·)
  verbs_increasing : ∀ grant ∈ grants, grant.2.Pairwise (· < ·)

@[simp]
theorem targets_cons {target : Target} {verbs : List String} {grants : Grants} :
    targets ((target, verbs) :: grants) = target :: grants.targets := rfl

@[simp]
theorem not_allows_nil {target : Target} {verb : String} : ¬Allows [] target verb := by
  simp [Allows]

@[simp]
theorem allows_cons {target other : Target} {verbs : List String} {grants : Grants}
    {verb : String} :
    Allows ((other, verbs) :: grants) target verb ↔
      (target = other ∧ verb ∈ verbs) ∨ grants.Allows target verb := by
  simp only [Allows, List.mem_cons, Prod.mk.injEq]
  constructor
  · rintro ⟨allowed, ⟨rfl, rfl⟩ | present, verb_mem⟩
    · exact Or.inl ⟨rfl, verb_mem⟩
    · exact Or.inr ⟨allowed, present, verb_mem⟩
  · rintro (⟨rfl, verb_mem⟩ | ⟨allowed, present, verb_mem⟩)
    · exact ⟨verbs, Or.inl ⟨rfl, rfl⟩, verb_mem⟩
    · exact ⟨allowed, Or.inr present, verb_mem⟩

theorem Allows.target_mem {grants : Grants} {target : Target} {verb : String}
    (allows : grants.Allows target verb) : target ∈ grants.targets := by
  rcases allows with ⟨verbs, present, _⟩
  exact List.mem_map.mpr ⟨(target, verbs), present, rfl⟩

@[simp]
theorem mem_targets_add {target new : Target} {verbs : List String} {grants : Grants} :
    target ∈ (grants.add new verbs).targets ↔ target = new ∨ target ∈ grants.targets := by
  induction grants with
  | nil => simp [add, targets]
  | cons grant rest ih =>
      rcases grant with ⟨other, allowed⟩
      simp only [add]
      split
      · next same =>
        subst same
        simp
      · split
        · simp
        · simp [ih, or_left_comm]

@[simp]
theorem allows_add {target new : Target} {verbs : List String} {grants : Grants}
    {verb : String} :
    (grants.add new verbs).Allows target verb ↔
      (target = new ∧ verb ∈ verbs) ∨ grants.Allows target verb := by
  induction grants with
  | nil => simp [add]
  | cons grant rest ih =>
      rcases grant with ⟨other, allowed⟩
      simp only [add]
      split
      · next same =>
        subst same
        simp only [allows_cons, Ordered.mem_insertAll]
        tauto
      · split
        · simp
        · simp [ih, or_left_comm]

theorem IsCanonical.nodup_targets {grants : Grants} (canonical : grants.IsCanonical) :
    grants.targets.Nodup :=
  canonical.targets_increasing.imp ne_of_irrefl

theorem isCanonical_nil : IsCanonical [] :=
  ⟨List.Pairwise.nil, by simp⟩

theorem isCanonical_cons {target : Target} {verbs : List String} {grants : Grants} :
    IsCanonical ((target, verbs) :: grants) ↔
      (∀ other ∈ grants.targets, target < other) ∧ verbs.Pairwise (· < ·) ∧
        grants.IsCanonical := by
  constructor
  · rintro ⟨targets_increasing, verbs_increasing⟩
    rcases List.pairwise_cons.mp targets_increasing with ⟨target_lt, rest_increasing⟩
    refine ⟨target_lt, verbs_increasing (target, verbs) (by simp), rest_increasing, ?_⟩
    intro grant grant_mem
    exact verbs_increasing grant (by simp [grant_mem])
  · rintro ⟨target_lt, verbs_increasing, canonical⟩
    refine ⟨List.pairwise_cons.mpr ⟨target_lt, canonical.targets_increasing⟩, ?_⟩
    intro grant grant_mem
    rcases List.mem_cons.mp grant_mem with rfl | grant_mem
    · exact verbs_increasing
    · exact canonical.verbs_increasing grant grant_mem

theorem isCanonical_add {target : Target} {verbs : List String} {grants : Grants}
    (canonical : grants.IsCanonical) : (grants.add target verbs).IsCanonical := by
  induction grants with
  | nil =>
      exact isCanonical_cons.mpr ⟨by simp [targets], Ordered.increasing_ofList verbs, canonical⟩
  | cons grant rest ih =>
      rcases grant with ⟨other, allowed⟩
      rcases isCanonical_cons.mp canonical with ⟨other_lt, allowed_increasing, rest_canonical⟩
      simp only [add]
      split
      · exact isCanonical_cons.mpr
          ⟨other_lt, Ordered.increasing_insertAll allowed_increasing, rest_canonical⟩
      · next differs =>
        split
        · next target_lt =>
          refine isCanonical_cons.mpr ⟨?_, Ordered.increasing_ofList verbs, canonical⟩
          intro later later_mem
          rcases List.mem_cons.mp later_mem with rfl | later_mem
          · exact target_lt
          · exact Trans.trans target_lt (other_lt later later_mem)
        · next not_lt =>
          have other_lt_target : other < target := by
            by_contra not_gt
            exact differs (Std.Trichotomous.trichotomous target other not_lt not_gt)
          refine isCanonical_cons.mpr ⟨?_, allowed_increasing, ih rest_canonical⟩
          intro later later_mem
          rcases mem_targets_add.mp later_mem with rfl | later_mem
          · exact other_lt_target
          · exact other_lt later later_mem

/-- A canonical form is determined by its targets and by what is allowed on them. -/
theorem IsCanonical.ext {left right : Grants} (left_canonical : left.IsCanonical)
    (right_canonical : right.IsCanonical)
    (same_targets : ∀ target, target ∈ left.targets ↔ target ∈ right.targets)
    (same_verbs : ∀ target verb, left.Allows target verb ↔ right.Allows target verb) :
    left = right := by
  have targets_eq : left.targets = right.targets :=
    left_canonical.targets_increasing.eq_of_mem_iff right_canonical.targets_increasing same_targets
  clear same_targets
  induction left generalizing right with
  | nil =>
      symm
      simpa [targets] using targets_eq
  | cons grant rest ih =>
      rcases grant with ⟨target, verbs⟩
      cases right with
      | nil => simp [targets] at targets_eq
      | cons grant others =>
          rcases grant with ⟨other, allowed⟩
          simp only [targets_cons, List.cons.injEq] at targets_eq
          rcases targets_eq with ⟨rfl, targets_eq⟩
          rcases isCanonical_cons.mp left_canonical with
            ⟨target_lt, verbs_increasing, rest_canonical⟩
          rcases isCanonical_cons.mp right_canonical with
            ⟨target_lt_others, allowed_increasing, others_canonical⟩
          -- The head's target occurs in neither tail, so the hypothesis splits into head and tail.
          have not_rest : ∀ verb, ¬Allows rest target verb :=
            fun verb allows => irrefl target (target_lt target allows.target_mem)
          have not_others : ∀ verb, ¬Allows others target verb :=
            fun verb allows => irrefl target (target_lt_others target allows.target_mem)
          have verbs_eq : verbs = allowed := by
            apply verbs_increasing.eq_of_mem_iff allowed_increasing
            intro verb
            simpa [not_rest, not_others] using same_verbs target verb
          have rest_eq : rest = others := by
            apply ih rest_canonical others_canonical _ targets_eq
            intro later verb
            by_cases same : later = target
            · subst same
              simp [not_rest, not_others]
            · simpa [same] using same_verbs later verb
          rw [verbs_eq, rest_eq]

/-! ## Grants of rules -/

theorem isCanonical_foldl {rules : List Rule} {grants : Grants} (canonical : grants.IsCanonical) :
    IsCanonical (rules.foldl (fun grants rule => grants.add rule.target.canonical rule.verbs)
      grants) := by
  induction rules generalizing grants with
  | nil => exact canonical
  | cons rule rest ih => exact ih (isCanonical_add canonical)

theorem mem_targets_foldl {target : Target} {rules : List Rule} {grants : Grants} :
    target ∈ targets (rules.foldl
        (fun grants rule => grants.add rule.target.canonical rule.verbs) grants) ↔
      (∃ rule ∈ rules, rule.target.canonical = target) ∨ target ∈ grants.targets := by
  induction rules generalizing grants with
  | nil => simp
  | cons rule rest ih => simp [ih, eq_comm, or_assoc, or_left_comm]

theorem allows_foldl {target : Target} {verb : String} {rules : List Rule} {grants : Grants} :
    Allows (rules.foldl (fun grants rule => grants.add rule.target.canonical rule.verbs) grants)
        target verb ↔
      (∃ rule ∈ rules, rule.target.canonical = target ∧ verb ∈ rule.verbs) ∨
        grants.Allows target verb := by
  induction rules generalizing grants with
  | nil => simp
  | cons rule rest ih => simp [ih, eq_comm, or_assoc, or_left_comm]

theorem isCanonical_ofRules (rules : List Rule) : (ofRules rules).IsCanonical :=
  isCanonical_foldl isCanonical_nil

/-- The targets of merged rules are those of the rules in canonical form. -/
theorem mem_targets_ofRules {target : Target} {rules : List Rule} :
    target ∈ (ofRules rules).targets ↔ ∃ rule ∈ rules, rule.target.canonical = target := by
  refine mem_targets_foldl.trans ?_
  simp [targets]

/-- Merged rules allow on a target what one of the rules allows on it. -/
theorem allows_ofRules {target : Target} {verb : String} {rules : List Rule} :
    (ofRules rules).Allows target verb ↔
      ∃ rule ∈ rules, rule.target.canonical = target ∧ verb ∈ rule.verbs := by
  refine allows_foldl.trans ?_
  simp

theorem mem_toRules {rule : Rule} {grants : Grants} :
    rule ∈ grants.toRules ↔ (rule.target, rule.verbs) ∈ grants ∧ rule.source = none := by
  rcases rule with ⟨target, verbs, source⟩
  simp only [toRules, List.mem_map, Prod.exists, Rule.mk.injEq]
  constructor
  · rintro ⟨_, _, present, rfl, rfl, rfl⟩
    exact ⟨present, rfl⟩
  · rintro ⟨present, rfl⟩
    exact ⟨target, verbs, present, rfl, rfl, rfl⟩

theorem toRules_injective : Function.Injective toRules := by
  apply List.map_injective_iff.mpr
  rintro ⟨target, verbs⟩ ⟨other, allowed⟩ same
  simpa using same

end Grants

/-- Merging leaves one rule for each canonical target of the rules. -/
theorem Rule.length_aggregate (rules : List Rule) :
    (aggregate rules).length = (rules.map fun rule => rule.target.canonical).toFinset.card := by
  have distinct := (Grants.isCanonical_ofRules rules).nodup_targets
  have targets_eq : (Grants.ofRules rules).targets.toFinset =
      (rules.map fun rule => rule.target.canonical).toFinset := by
    ext target
    simp only [List.mem_toFinset, List.mem_map]
    exact Grants.mem_targets_ofRules
  rw [← targets_eq, List.toFinset_card_of_nodup distinct]
  simp [aggregate, Grants.toRules, Grants.targets]

end RbacManifest
