import RbacManifest.Proofs.Rule.Canonical

/-!
# Rules that are merged already

An entry of merged rules is in a normal form, and it allows on its target what the rules allow on it
together. For this reason merged rules may stand for the rules that they come from: whatever is
merged with them is merged as with those rules, `Rule.aggregate_isIncremental`.
-/

namespace RbacManifest

namespace Target

@[simp]
theorem canonical_canonical (target : Target) : target.canonical.canonical = target.canonical := by
  apply canonical_eq_canonical_iff.mpr
  simp [canonical]

end Target

theorem Grants.IsCanonical.allows_iff {grants : Grants} {target : Target} {verbs : List String}
    {verb : String} (canonical : grants.IsCanonical) (granted : (target, verbs) ∈ grants) :
    grants.Allows target verb ↔ verb ∈ verbs := by
  constructor
  · rintro ⟨allowed, otherGranted, isAllowed⟩
    have same : (target, allowed) = (target, verbs) :=
      List.inj_on_of_nodup_map canonical.nodup_targets otherGranted granted rfl
    cases same
    exact isAllowed
  · intro isMember
    exact ⟨verbs, granted, isMember⟩

namespace Rule

variable {rules : List Rule} {entry : Rule} {verb : String}

theorem exists_entry_iff {target : Target} :
    (∃ entry ∈ aggregate rules, entry.target = target) ↔
      ∃ rule ∈ rules, rule.target.canonical = target := by
  rw [← Grants.mem_targets_ofRules, Grants.targets, List.mem_map]
  constructor
  · rintro ⟨entry, isEntry, rfl⟩
    exact ⟨_, (Grants.mem_toRules.mp isEntry).1, rfl⟩
  · rintro ⟨⟨target, verbs⟩, granted, rfl⟩
    exact ⟨{ target, verbs }, Grants.mem_toRules.mpr ⟨granted, rfl⟩, rfl⟩

/-- An entry allows the verbs of all rules with its target. -/
theorem mem_verbs_iff (isEntry : entry ∈ aggregate rules) :
    verb ∈ entry.verbs ↔
      ∃ rule ∈ rules, rule.target.canonical = entry.target ∧ verb ∈ rule.verbs := by
  have granted : (entry.target, entry.verbs) ∈ Grants.ofRules rules :=
    (Grants.mem_toRules.mp isEntry).1
  rw [← Grants.allows_ofRules, (Grants.isCanonical_ofRules rules).allows_iff granted]

theorem canonical_of_mem_aggregate (isEntry : entry ∈ aggregate rules) :
    entry.target.canonical = entry.target := by
  rcases exists_entry_iff.mp ⟨entry, isEntry, rfl⟩ with ⟨rule, _, target_eq⟩
  rw [← target_eq, Target.canonical_canonical]

/-! ## The normal form of merged rules -/

/-- Whether the target of a rule comes before that of another one, in whatever order and however
often their fields hold their members. -/
def IsBefore (rule other : Rule) : Prop :=
  rule.target.canonical < other.target.canonical

/-- Whether the members of every field of a rule come in increasing order, each once, and no place
is remembered. -/
structure IsNormal (rule : Rule) : Prop where
  apiGroups : rule.target.apiGroups.Pairwise (· < ·)
  resources : rule.target.resources.Pairwise (· < ·)
  resourceNames : rule.target.resourceNames.Pairwise (· < ·)
  urls : rule.target.urls.Pairwise (· < ·)
  verbs : rule.verbs.Pairwise (· < ·)
  source : rule.source = none

structure AreNormal (rules : List Rule) : Prop where
  increasing : rules.Pairwise IsBefore
  normal : ∀ rule ∈ rules, rule.IsNormal

theorem IsBefore.asymm {rule other : Rule} (isBefore : rule.IsBefore other) :
    ¬other.IsBefore rule := by
  intro isBehind
  exact irrefl rule.target.canonical (Trans.trans isBefore isBehind)

theorem isNormal_of_mem_aggregate (isEntry : entry ∈ aggregate rules) : entry.IsNormal := by
  rcases Grants.mem_toRules.mp isEntry with ⟨granted, placeless⟩
  rcases exists_entry_iff.mp ⟨entry, isEntry, rfl⟩ with ⟨rule, _, target_eq⟩
  constructor
  · rw [← target_eq]
    exact Ordered.increasing_ofList rule.target.apiGroups
  · rw [← target_eq]
    exact Ordered.increasing_ofList rule.target.resources
  · rw [← target_eq]
    exact Ordered.increasing_ofList rule.target.resourceNames
  · rw [← target_eq]
    exact Ordered.increasing_ofList rule.target.urls
  · exact (Grants.isCanonical_ofRules rules).verbs_increasing _ granted
  · exact placeless

theorem areNormal_aggregate (rules : List Rule) : AreNormal (aggregate rules) := by
  constructor
  · have increasing : (aggregate rules).Pairwise fun entry other =>
        entry.target < other.target := by
      apply List.pairwise_map.mpr
      apply List.pairwise_map.mp
      exact (Grants.isCanonical_ofRules rules).targets_increasing
    apply increasing.imp_of_mem
    intro entry other isEntry isOther less
    rw [IsBefore, canonical_of_mem_aggregate isEntry, canonical_of_mem_aggregate isOther]
    exact less
  · intro entry isEntry
    exact isNormal_of_mem_aggregate isEntry

/-! ## Merged rules in place of rules -/

theorem sameTargets_aggregate (rules : List Rule) : SameTargets (aggregate rules) rules := by
  intro target
  apply Iff.trans _ exists_entry_iff
  constructor
  · rintro ⟨entry, isEntry, rfl⟩
    exact ⟨entry, isEntry, (canonical_of_mem_aggregate isEntry).symm⟩
  · rintro ⟨entry, isEntry, rfl⟩
    exact ⟨entry, isEntry, canonical_of_mem_aggregate isEntry⟩

theorem sameVerbs_aggregate (rules : List Rule) : SameVerbs (aggregate rules) rules := by
  intro target verb
  constructor
  · rintro ⟨entry, isEntry, rfl, isVerb⟩
    rw [canonical_of_mem_aggregate isEntry]
    exact (mem_verbs_iff isEntry).mp isVerb
  · rintro ⟨rule, isRule, rfl, isVerb⟩
    rcases exists_entry_iff.mpr ⟨rule, isRule, rfl⟩ with ⟨entry, isEntry, target_eq⟩
    refine ⟨entry, isEntry, ?_, ?_⟩
    · rw [canonical_of_mem_aggregate isEntry, target_eq]
    · exact (mem_verbs_iff isEntry).mpr ⟨rule, isRule, target_eq.symm, isVerb⟩

theorem aggregate_aggregate (rules : List Rule) : aggregate (aggregate rules) = aggregate rules :=
  aggregate_eq_aggregate_iff.mpr ⟨sameTargets_aggregate rules, sameVerbs_aggregate rules⟩

/-- Rules that are merged alike may stand for each other within longer lists. -/
theorem aggregate_append_congr {first second others more : List Rule}
    (first_same : aggregate first = aggregate others)
    (second_same : aggregate second = aggregate more) :
    aggregate (first ++ second) = aggregate (others ++ more) := by
  rcases aggregate_eq_aggregate_iff.mp first_same with ⟨first_targets, first_verbs⟩
  rcases aggregate_eq_aggregate_iff.mp second_same with ⟨second_targets, second_verbs⟩
  apply aggregate_eq_aggregate_iff.mpr
  constructor
  · intro target
    simp only [List.mem_append, or_and_right, exists_or]
    exact or_congr (first_targets target) (second_targets target)
  · intro target verb
    simp only [List.mem_append, or_and_right, exists_or]
    exact or_congr (first_verbs target verb) (second_verbs target verb)

/-- Rules may be merged piece by piece, in whatever order, and merging merged rules changes
nothing. -/
theorem aggregate_isIncremental (first second : List Rule) :
    aggregate (aggregate first ++ second) = aggregate (first ++ second) ∧
      aggregate (first ++ aggregate second) = aggregate (first ++ second) ∧
      aggregate (second ++ first) = aggregate (first ++ second) ∧
      aggregate (aggregate first) = aggregate first := by
  refine ⟨?_, ?_, ?_, aggregate_aggregate first⟩
  · exact aggregate_append_congr (aggregate_aggregate first) rfl
  · exact aggregate_append_congr rfl (aggregate_aggregate second)
  · apply aggregate_eq_of_mem_iff
    intro rule
    rw [List.mem_append, List.mem_append, or_comm]

end Rule

end RbacManifest
