import RbacManifest.Proofs.Related
import RbacManifest.Proofs.Rule.Grants

/-!
# Merged rules as a canonical form

Merging forgets the order of rules and of members, repetitions, and how the verbs on a target are
spread over rules. `Rule.aggregate_eq_aggregate_iff` says that it forgets nothing else: two lists of
rules are merged alike exactly when the same targets occur in them with the same verbs. From this
follows what may be done to a list of rules without a change of the result.
-/

namespace RbacManifest

namespace Target

/-- Two targets have one canonical form exactly when their fields have the same members. -/
theorem canonical_eq_canonical_iff {left right : Target} :
    left.canonical = right.canonical ↔
      (∀ group, group ∈ left.apiGroups ↔ group ∈ right.apiGroups) ∧
        (∀ resource, resource ∈ left.resources ↔ resource ∈ right.resources) ∧
        (∀ name, name ∈ left.resourceNames ↔ name ∈ right.resourceNames) ∧
        ∀ url, url ∈ left.urls ↔ url ∈ right.urls := by
  simp only [canonical, Target.mk.injEq, Ordered.ofList_eq_ofList_iff]

end Target

namespace Rule

/-- Whether two lists of rules have rules for the same targets. -/
def SameTargets (left right : List Rule) : Prop :=
  ∀ target, (∃ rule ∈ left, rule.target.canonical = target) ↔
    ∃ rule ∈ right, rule.target.canonical = target

/-- Whether two lists of rules allow the same verbs on every target. -/
def SameVerbs (left right : List Rule) : Prop :=
  ∀ target verb, (∃ rule ∈ left, rule.target.canonical = target ∧ verb ∈ rule.verbs) ↔
    ∃ rule ∈ right, rule.target.canonical = target ∧ verb ∈ rule.verbs

/-- Whether the fields of two rules have the same members, in whatever order and however often. The
places of the rules do not matter. -/
structure SameMembers (left right : Rule) : Prop where
  apiGroups : ∀ group, group ∈ left.target.apiGroups ↔ group ∈ right.target.apiGroups
  resources : ∀ resource, resource ∈ left.target.resources ↔ resource ∈ right.target.resources
  resourceNames : ∀ name, name ∈ left.target.resourceNames ↔ name ∈ right.target.resourceNames
  urls : ∀ url, url ∈ left.target.urls ↔ url ∈ right.target.urls
  verbs : ∀ verb, verb ∈ left.verbs ↔ verb ∈ right.verbs

/-- Whether a rule is split into several: all of them have its target, and their verbs together are
its verbs. -/
structure SplitsInto (rule : Rule) (parts : List Rule) : Prop where
  nonempty : parts ≠ []
  sameTarget : ∀ part ∈ parts, part.target.canonical = rule.target.canonical
  verbs : ∀ verb, verb ∈ rule.verbs ↔ ∃ part ∈ parts, verb ∈ part.verbs

/-- Two lists of rules are merged alike exactly when they have the same targets and allow the same
verbs on each of them. -/
theorem aggregate_eq_aggregate_iff {left right : List Rule} :
    aggregate left = aggregate right ↔ SameTargets left right ∧ SameVerbs left right := by
  constructor
  · intro equal
    have grants_eq : Grants.ofRules left = Grants.ofRules right :=
      Grants.toRules_injective equal
    constructor
    · intro target
      rw [← Grants.mem_targets_ofRules, grants_eq, Grants.mem_targets_ofRules]
    · intro target verb
      rw [← Grants.allows_ofRules, grants_eq, Grants.allows_ofRules]
  · rintro ⟨sameTargets, sameVerbs⟩
    have grants_eq : Grants.ofRules left = Grants.ofRules right := by
      apply (Grants.isCanonical_ofRules left).ext (Grants.isCanonical_ofRules right)
      · intro target
        rw [Grants.mem_targets_ofRules, Grants.mem_targets_ofRules]
        exact sameTargets target
      · intro target verb
        rw [Grants.allows_ofRules, Grants.allows_ofRules]
        exact sameVerbs target verb
    rw [aggregate, aggregate, grants_eq]

theorem aggregate_eq_of_mem_iff {left right : List Rule}
    (same : ∀ rule, rule ∈ left ↔ rule ∈ right) : aggregate left = aggregate right :=
  aggregate_eq_aggregate_iff.mpr
    ⟨fun _ => by simp only [same], fun _ _ => by simp only [same]⟩

theorem SameMembers.symm {left right : Rule} (same : SameMembers left right) :
    SameMembers right left where
  apiGroups group := (same.apiGroups group).symm
  resources resource := (same.resources resource).symm
  resourceNames name := (same.resourceNames name).symm
  urls url := (same.urls url).symm
  verbs verb := (same.verbs verb).symm

theorem SameMembers.canonical_eq {left right : Rule} (same : SameMembers left right) :
    left.target.canonical = right.target.canonical :=
  Target.canonical_eq_canonical_iff.mpr
    ⟨same.apiGroups, same.resources, same.resourceNames, same.urls⟩

theorem exists_target_of_partners {left right : List Rule}
    (partners : List.Forall₂ SameMembers left right) {target : Target} :
    (∃ rule ∈ left, rule.target.canonical = target) →
      ∃ rule ∈ right, rule.target.canonical = target := by
  rintro ⟨rule, rule_mem, rfl⟩
  rcases Related.exists_of_mem partners rule_mem with ⟨partner, partner_mem, same⟩
  exact ⟨partner, partner_mem, same.canonical_eq.symm⟩

theorem exists_verb_of_partners {left right : List Rule}
    (partners : List.Forall₂ SameMembers left right) {target : Target} {verb : String} :
    (∃ rule ∈ left, rule.target.canonical = target ∧ verb ∈ rule.verbs) →
      ∃ rule ∈ right, rule.target.canonical = target ∧ verb ∈ rule.verbs := by
  rintro ⟨rule, rule_mem, rfl, verb_mem⟩
  rcases Related.exists_of_mem partners rule_mem with ⟨partner, partner_mem, same⟩
  exact ⟨partner, partner_mem, same.canonical_eq.symm, (same.verbs verb).mp verb_mem⟩

theorem aggregate_eq_of_partners {left right : List Rule}
    (partners : List.Forall₂ SameMembers left right) : aggregate left = aggregate right := by
  have reversed : List.Forall₂ SameMembers right left :=
    List.Forall₂.flip (partners.imp fun _ _ same => same.symm)
  apply aggregate_eq_aggregate_iff.mpr
  constructor
  · intro target
    exact ⟨exists_target_of_partners partners, exists_target_of_partners reversed⟩
  · intro target verb
    exact ⟨exists_verb_of_partners partners, exists_verb_of_partners reversed⟩

theorem SplitsInto.exists_target_iff {rule : Rule} {parts : List Rule}
    (splits : rule.SplitsInto parts) {target : Target} :
    (∃ part ∈ parts, part.target.canonical = target) ↔ rule.target.canonical = target := by
  constructor
  · rintro ⟨part, part_mem, rfl⟩
    exact (splits.sameTarget part part_mem).symm
  · rintro rfl
    rcases List.exists_mem_of_ne_nil parts splits.nonempty with ⟨part, part_mem⟩
    exact ⟨part, part_mem, splits.sameTarget part part_mem⟩

theorem SplitsInto.exists_verb_iff {rule : Rule} {parts : List Rule}
    (splits : rule.SplitsInto parts) {target : Target} {verb : String} :
    (∃ part ∈ parts, part.target.canonical = target ∧ verb ∈ part.verbs) ↔
      rule.target.canonical = target ∧ verb ∈ rule.verbs := by
  rw [splits.verbs verb]
  constructor
  · rintro ⟨part, part_mem, rfl, verb_mem⟩
    exact ⟨(splits.sameTarget part part_mem).symm, part, part_mem, verb_mem⟩
  · rintro ⟨rfl, part, part_mem, verb_mem⟩
    exact ⟨part, part_mem, splits.sameTarget part part_mem, verb_mem⟩

theorem aggregate_eq_of_splitsInto {rule : Rule} {parts : List Rule}
    (splits : rule.SplitsInto parts) (before behind : List Rule) :
    aggregate (before ++ parts ++ behind) = aggregate (before ++ rule :: behind) := by
  apply aggregate_eq_aggregate_iff.mpr
  constructor
  · intro target
    simp only [List.mem_append, List.mem_cons, or_and_right, exists_or, exists_eq_left,
      splits.exists_target_iff, or_assoc]
  · intro target verb
    simp only [List.mem_append, List.mem_cons, or_and_right, exists_or, exists_eq_left,
      splits.exists_verb_iff, or_assoc]

/-- Merging is a canonical form. Two lists of rules are merged alike exactly when they have the same
targets with the same verbs. In particular lists with the same rules are merged alike, in whatever
order and however often the rules occur; so are lists of rules whose fields have the same members,
wherever the rules were written; and a rule may be split into several with its target. -/
theorem aggregate_isCanonicalForm :
    (∀ left right : List Rule,
      aggregate left = aggregate right ↔ SameTargets left right ∧ SameVerbs left right) ∧
    (∀ left right : List Rule,
      (∀ rule, rule ∈ left ↔ rule ∈ right) → aggregate left = aggregate right) ∧
    (∀ left right : List Rule,
      List.Forall₂ SameMembers left right → aggregate left = aggregate right) ∧
    ∀ (rule : Rule) (parts before behind : List Rule), rule.SplitsInto parts →
      aggregate (before ++ parts ++ behind) = aggregate (before ++ rule :: behind) :=
  ⟨fun _ _ => aggregate_eq_aggregate_iff, fun _ _ => aggregate_eq_of_mem_iff,
    fun _ _ => aggregate_eq_of_partners,
    fun _ _ before behind splits => aggregate_eq_of_splitsInto splits before behind⟩

end Rule

end RbacManifest
