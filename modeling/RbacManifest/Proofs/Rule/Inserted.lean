import RbacManifest.Proofs.Rule.Merged

/-!
# One more rule

A rule that is put anywhere into a list of rules changes at most one entry of the merged rules. If
its target is there already, the entry for it allows the verbs of the rule as well; otherwise one
entry is added at the only place where it may stand: `Rule.aggregate_insert`.
-/

namespace RbacManifest

namespace Grants

variable {target : Target} {verbs allowed : List String} {before behind grants : Grants}

/-- Smaller targets are passed by. -/
theorem add_append (smaller : ∀ other ∈ before.targets, other < target) :
    add target verbs (before ++ behind) = before ++ add target verbs behind := by
  induction before with
  | nil => rfl
  | cons grant rest ih =>
      rcases grant with ⟨other, allowed⟩
      rw [targets_cons] at smaller
      rcases List.forall_mem_cons.mp smaller with ⟨other_lt, rest_lt⟩
      have differs : target ≠ other := (ne_of_irrefl other_lt).symm
      have not_lt : ¬target < other := fun target_lt =>
        irrefl target (Trans.trans target_lt other_lt)
      rw [List.cons_append, add, if_neg differs, if_neg not_lt, ih rest_lt]
      rfl

/-- Verbs are added to those of a target that is there. -/
theorem add_of_granted (canonical : IsCanonical (before ++ (target, allowed) :: behind)) :
    add target verbs (before ++ (target, allowed) :: behind) =
      before ++ (target, Ordered.insertAll verbs allowed) :: behind := by
  have increasing := canonical.targets_increasing
  rw [targets, List.map_append, List.pairwise_append] at increasing
  rw [add_append]
  · rw [add, if_pos rfl]
  · intro other isOther
    exact increasing.2.2 other isOther target List.mem_cons_self

/-- A target that is not there is put between the smaller and the greater ones. -/
theorem add_of_between (smaller : ∀ other ∈ before.targets, other < target)
    (greater : ∀ other ∈ behind.targets, target < other) :
    add target verbs (before ++ behind) = before ++ (target, Ordered.ofList verbs) :: behind := by
  rw [add_append smaller]
  cases behind with
  | nil => rfl
  | cons grant rest =>
      rcases grant with ⟨other, allowed⟩
      have target_lt : target < other := greater other List.mem_cons_self
      rw [add, if_neg (ne_of_irrefl target_lt), if_pos target_lt]

theorem exists_between (canonical : grants.IsCanonical) (absent : target ∉ grants.targets) :
    ∃ before behind, grants = before ++ behind ∧ (∀ other ∈ before.targets, other < target) ∧
      ∀ other ∈ behind.targets, target < other := by
  induction grants with
  | nil => exact ⟨[], [], rfl, by simp [targets], by simp [targets]⟩
  | cons grant rest ih =>
      rcases grant with ⟨first, allowed⟩
      rcases isCanonical_cons.mp canonical with ⟨first_lt, _, rest_canonical⟩
      rw [targets_cons, List.mem_cons, not_or] at absent
      by_cases target_lt : target < first
      · refine ⟨[], (first, allowed) :: rest, rfl, by simp [targets], ?_⟩
        intro other isOther
        rcases List.mem_cons.mp isOther with rfl | isOther
        · exact target_lt
        · exact Trans.trans target_lt (first_lt other isOther)
      · have lt_target : first < target := by
          by_contra not_gt
          exact absent.1 (Std.Trichotomous.trichotomous target first target_lt not_gt)
        rcases ih rest_canonical absent.2 with ⟨before, behind, rfl, smaller, greater⟩
        refine ⟨(first, allowed) :: before, behind, rfl, ?_, greater⟩
        intro other isOther
        rcases List.mem_cons.mp isOther with rfl | isOther
        · exact lt_target
        · exact smaller other isOther

theorem toRules_append :
    toRules (before ++ (target, allowed) :: behind) =
      before.toRules ++ { target, verbs := allowed } :: behind.toRules := by
  simp [toRules]

end Grants

namespace Rule

/-- Whether entries differ only in that the one for the target of a rule allows the verbs of the
rule as well. -/
def Extends (rule : Rule) (old new : List Rule) : Prop :=
  ∃ before entry verbs behind,
    old = before ++ entry :: behind ∧ new = before ++ { entry with verbs } :: behind ∧
    entry.target = rule.target.canonical ∧ verbs.Pairwise (· < ·) ∧
    ∀ verb, verb ∈ verbs ↔ verb ∈ entry.verbs ∨ verb ∈ rule.verbs

/-- Whether entries differ only in that there is one more, for the target and the verbs of a rule,
at the only place where the entries remain in order. -/
def IsAdded (rule : Rule) (old new : List Rule) : Prop :=
  ∃ before entry behind,
    old = before ++ behind ∧ new = before ++ entry :: behind ∧
    entry.target = rule.target.canonical ∧ (∀ verb, verb ∈ entry.verbs ↔ verb ∈ rule.verbs) ∧
    ∀ smaller greater, old = smaller ++ greater →
      (smaller ++ entry :: greater).Pairwise IsBefore → smaller = before ∧ greater = behind

/-- A rule may as well be merged last. -/
theorem aggregate_insert_eq (before behind : List Rule) (rule : Rule) :
    aggregate (before ++ rule :: behind) =
      Grants.toRules
        ((Grants.ofRules (before ++ behind)).add rule.target.canonical rule.verbs) := by
  have moved : aggregate (before ++ rule :: behind) = aggregate ((before ++ behind) ++ [rule]) := by
    apply aggregate_eq_of_mem_iff
    intro other
    simp only [List.mem_append, List.mem_cons, List.not_mem_nil, or_false, or_assoc]
    rw [or_comm (a := other = rule)]
  rw [moved, aggregate, Grants.ofRules, List.foldl_append]
  rfl

theorem eq_of_increasing {entry : Rule} {before behind smaller greater : List Rule}
    (increasing : (before ++ entry :: behind).Pairwise IsBefore)
    (otherIncreasing : (smaller ++ entry :: greater).Pairwise IsBefore)
    (same : before ++ behind = smaller ++ greater) : smaller = before ∧ greater = behind := by
  have permuted : (smaller ++ entry :: greater).Perm (before ++ entry :: behind) := by
    apply List.perm_middle.trans
    rw [← same]
    exact List.perm_middle.symm
  have equal : smaller ++ entry :: greater = before ++ entry :: behind := by
    apply List.Perm.eq_of_pairwise _ otherIncreasing increasing permuted
    intro first second _ _ isBefore isBehind
    exact absurd isBehind isBefore.asymm
  have irreflexive : ¬entry.IsBefore entry := fun isBefore => isBefore.asymm isBefore
  rcases List.pairwise_append.mp otherIncreasing with ⟨_, atEntry, smaller_before⟩
  have notSmaller : entry ∉ smaller := by
    intro isMember
    exact irreflexive (smaller_before entry isMember entry List.mem_cons_self)
  have notGreater : entry ∉ greater := by
    intro isMember
    exact irreflexive ((List.pairwise_cons.mp atEntry).1 entry isMember)
  rcases (List.append_cons_inj_of_notMem notSmaller notGreater).mp equal with
    ⟨smaller_eq, _, greater_eq⟩
  exact ⟨smaller_eq, greater_eq⟩

variable {before behind : List Rule} {rule : Rule}

theorem extends_aggregate
    (present : ∃ other ∈ before ++ behind, other.target.canonical = rule.target.canonical) :
    rule.Extends (aggregate (before ++ behind)) (aggregate (before ++ rule :: behind)) := by
  have canonical := Grants.isCanonical_ofRules (before ++ behind)
  rcases List.mem_map.mp (Grants.mem_targets_ofRules.mpr present) with
    ⟨⟨target, allowed⟩, granted, target_eq⟩
  simp only at target_eq
  subst target_eq
  rcases List.append_of_mem granted with ⟨smaller, greater, grants_eq⟩
  rw [grants_eq] at canonical
  refine ⟨Grants.toRules smaller, { target := rule.target.canonical, verbs := allowed },
    Ordered.insertAll rule.verbs allowed, Grants.toRules greater, ?_, ?_, rfl, ?_, ?_⟩
  · rw [aggregate, grants_eq, Grants.toRules_append]
  · rw [aggregate_insert_eq, grants_eq, Grants.add_of_granted canonical, Grants.toRules_append]
  · apply Ordered.increasing_insertAll
    exact canonical.verbs_increasing (rule.target.canonical, allowed) (by simp)
  · intro verb
    rw [Ordered.mem_insertAll, or_comm]

theorem isAdded_aggregate
    (absent : ¬∃ other ∈ before ++ behind, other.target.canonical = rule.target.canonical) :
    rule.IsAdded (aggregate (before ++ behind)) (aggregate (before ++ rule :: behind)) := by
  rw [← Grants.mem_targets_ofRules] at absent
  rcases Grants.exists_between (Grants.isCanonical_ofRules (before ++ behind)) absent with
    ⟨smaller, greater, grants_eq, smaller_lt, lt_greater⟩
  have old_eq : aggregate (before ++ behind) =
      Grants.toRules smaller ++ Grants.toRules greater := by
    rw [aggregate, grants_eq, Grants.toRules, List.map_append]
    rfl
  have new_eq : aggregate (before ++ rule :: behind) = Grants.toRules smaller ++
      { target := rule.target.canonical, verbs := Ordered.ofList rule.verbs } ::
        Grants.toRules greater := by
    rw [aggregate_insert_eq, grants_eq, Grants.add_of_between smaller_lt lt_greater,
      Grants.toRules_append]
  refine ⟨_, _, _, old_eq, new_eq, rfl, fun verb => Ordered.mem_ofList, ?_⟩
  intro first second split_eq increasing
  apply eq_of_increasing _ increasing (old_eq.symm.trans split_eq)
  rw [← new_eq]
  exact (areNormal_aggregate (before ++ rule :: behind)).increasing

/-- Merged rules are in normal form, and one more rule at any place either extends the entry for
its target or adds one. -/
theorem aggregate_insert :
    (∀ rules, AreNormal (aggregate rules)) ∧
      ∀ (before behind : List Rule) (rule : Rule),
        ((∃ other ∈ before ++ behind, other.target.canonical = rule.target.canonical) ∧
          rule.Extends (aggregate (before ++ behind)) (aggregate (before ++ rule :: behind))) ∨
        ((¬∃ other ∈ before ++ behind, other.target.canonical = rule.target.canonical) ∧
          rule.IsAdded (aggregate (before ++ behind)) (aggregate (before ++ rule :: behind))) := by
  constructor
  · exact areNormal_aggregate
  · intro before behind rule
    by_cases present :
        ∃ other ∈ before ++ behind, other.target.canonical = rule.target.canonical
    · left
      exact ⟨present, extends_aggregate present⟩
    · right
      exact ⟨present, isAdded_aggregate present⟩

end Rule

end RbacManifest
