import Mathlib.Tactic.MkIffOfInductiveProp
import RbacManifest.Generate
import RbacManifest.Proofs.FailureKind
import RbacManifest.Proofs.Rule.Merged
import RbacManifest.Proofs.Rule.Violation

/-!
# Kinds of rules

A rule that may be granted is either about resources or about URLs, and merging does not mix the
two: each entry comes from rules of its own kind. The check of rules therefore lets through what it
should, and merged rules along with them, `Plan.checkRules_isExact`.
-/

namespace RbacManifest

namespace Target

/-- Whether a target names resources with their API groups, and no URLs. -/
@[mk_iff]
structure IsOnResources (target : Target) : Prop where
  resources : target.resources ≠ []
  apiGroups : target.apiGroups ≠ []
  urls : target.urls = []

/-- Whether a target names URLs alone. -/
@[mk_iff]
structure IsOnUrls (target : Target) : Prop where
  urls : target.urls ≠ []
  resources : target.resources = []
  apiGroups : target.apiGroups = []
  resourceNames : target.resourceNames = []

@[simp]
theorem isOnResources_canonical {target : Target} :
    target.canonical.IsOnResources ↔ target.IsOnResources := by
  simp [isOnResources_iff, canonical]

@[simp]
theorem isOnUrls_canonical {target : Target} : target.canonical.IsOnUrls ↔ target.IsOnUrls := by
  simp [isOnUrls_iff, canonical]

end Target

namespace Rule

/-- The rules of a list that an entry of the merged rules comes from. -/
def origins (entry : Rule) (rules : List Rule) : List Rule :=
  rules.filter fun rule => rule.target.canonical = entry.target

variable {rule entry : Rule} {rules : List Rule}

theorem mem_origins_iff :
    rule ∈ entry.origins rules ↔ rule ∈ rules ∧ rule.target.canonical = entry.target := by
  simp [origins]

theorem isGrantable_iff :
    rule.IsGrantable ↔ rule.verbs ≠ [] ∧ (rule.target.IsOnResources ∨ rule.target.IsOnUrls) := by
  rw [Target.isOnResources_iff, Target.isOnUrls_iff]
  constructor
  · intro grantable
    exact ⟨grantable.verbs, grantable.target⟩
  · rintro ⟨verbs, target⟩
    exact ⟨verbs, target⟩

/-- An entry is its origins taken together. -/
theorem splitsInto_origins (isEntry : entry ∈ aggregate rules) :
    entry.SplitsInto (entry.origins rules) := by
  constructor
  · rcases exists_entry_iff.mp ⟨entry, isEntry, rfl⟩ with ⟨rule, isRule, target_eq⟩
    exact List.ne_nil_of_mem (mem_origins_iff.mpr ⟨isRule, target_eq⟩)
  · intro part isPart
    rw [(mem_origins_iff.mp isPart).2, canonical_of_mem_aggregate isEntry]
  · intro verb
    rw [mem_verbs_iff isEntry]
    simp only [mem_origins_iff, and_assoc]

/-- An entry is about resources, or about URLs, exactly as its origins are. -/
theorem isOn_iff_of_mem_origins (isOrigin : rule ∈ entry.origins rules) :
    (entry.target.IsOnResources ↔ rule.target.IsOnResources) ∧
      (entry.target.IsOnUrls ↔ rule.target.IsOnUrls) := by
  rw [← (mem_origins_iff.mp isOrigin).2]
  exact ⟨Target.isOnResources_canonical, Target.isOnUrls_canonical⟩

theorem isGrantable_of_mem_aggregate (grantable : ∀ rule ∈ rules, rule.IsGrantable)
    (isEntry : entry ∈ aggregate rules) : entry.IsGrantable := by
  have splits := splitsInto_origins isEntry
  rcases List.exists_mem_of_ne_nil _ splits.nonempty with ⟨origin, isOrigin⟩
  rcases isGrantable_iff.mp (grantable origin (mem_origins_iff.mp isOrigin).1) with ⟨verbs, kind⟩
  rcases List.exists_mem_of_ne_nil _ verbs with ⟨verb, isVerb⟩
  apply isGrantable_iff.mpr
  constructor
  · exact List.ne_nil_of_mem ((splits.verbs verb).mpr ⟨origin, isOrigin, isVerb⟩)
  · rcases isOn_iff_of_mem_origins isOrigin with ⟨onResources_iff, onUrls_iff⟩
    rw [onResources_iff, onUrls_iff]
    exact kind

end Rule

namespace Plan

variable {rules : List Rule} {failure : Failure}

theorem checkRules_eq_ok_iff : checkRules rules = .ok () ↔ ∀ rule ∈ rules, rule.IsGrantable := by
  rw [← Rule.firstViolation?_eq_none_iff, checkRules]
  split
  · next passes => simp [passes]
  · next fails => simp [fails]

theorem checkRules_eq_error_iff :
    checkRules rules = .error failure ↔ ∃ rule violation,
      IsFirst (fun rule => ¬rule.IsGrantable) rules rule ∧ rule.violation? = some violation ∧
        failure = .rule rule violation := by
  simp only [← and_assoc, ← Rule.firstViolation?_eq_some_iff, checkRules]
  split
  · next passes => simp [passes]
  · next fails => simp [fails, eq_comm]

/-- Rules pass the check exactly if all of them may be granted. Otherwise the failure is about the
first one that may not, and names its place. What passes is merged into rules that pass, and each
of these comes from rules of its own kind alone. -/
theorem checkRules_isExact (rules : List Rule) :
    (checkRules rules = .ok () ↔ ∀ rule ∈ rules, rule.IsGrantable) ∧
    (∀ failure, checkRules rules = .error failure →
      failure.kind = .invalidRule ∧
        ∃ rule violation, IsFirst (fun rule => ¬rule.IsGrantable) rules rule ∧
          rule.violation? = some violation ∧ failure = .rule rule violation ∧
          failure.message = s!"{rule.describePlace}: {violation.message}") ∧
    (checkRules rules = .ok () →
      checkRules (Rule.aggregate rules) = .ok () ∧
      ∀ entry ∈ Rule.aggregate rules,
        entry.SplitsInto (entry.origins rules) ∧
          (entry.target.IsOnResources →
            ∀ rule ∈ entry.origins rules, rule.target.IsOnResources) ∧
          (entry.target.IsOnUrls → ∀ rule ∈ entry.origins rules, rule.target.IsOnUrls)) := by
  refine ⟨checkRules_eq_ok_iff, ?_, ?_⟩
  · intro failure failed
    rcases checkRules_eq_error_iff.mp failed with ⟨rule, violation, first, broken, rfl⟩
    exact ⟨rfl, rule, violation, first, broken, rfl, rfl⟩
  · intro passes
    rw [checkRules_eq_ok_iff] at passes ⊢
    constructor
    · intro entry isEntry
      exact Rule.isGrantable_of_mem_aggregate passes isEntry
    · intro entry isEntry
      refine ⟨Rule.splitsInto_origins isEntry, ?_, ?_⟩
      · intro onResources rule isOrigin
        exact (Rule.isOn_iff_of_mem_origins isOrigin).1.mp onResources
      · intro onUrls rule isOrigin
        exact (Rule.isOn_iff_of_mem_origins isOrigin).2.mp onUrls

end Plan

end RbacManifest
