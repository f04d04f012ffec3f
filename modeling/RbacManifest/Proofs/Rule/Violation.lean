import RbacManifest.Proofs.First
import RbacManifest.Rule.Violation

/-!
# Rules that may be granted

What is demanded of a rule, stated without the order in which the demands are checked. A list of
rules is refused because of its first rule that may not be granted:
`Rule.firstViolation?_eq_some_iff`.
-/

namespace RbacManifest

namespace Rule

/-- Whether a rule may be granted. It allows verbs on resources, which need their API groups, or on
URLs, which take neither groups nor object names. -/
structure IsGrantable (rule : Rule) : Prop where
  verbs : rule.verbs ≠ []
  target :
    (rule.target.resources ≠ [] ∧ rule.target.apiGroups ≠ [] ∧ rule.target.urls = []) ∨
      (rule.target.urls ≠ [] ∧ rule.target.resources = [] ∧ rule.target.apiGroups = [] ∧
        rule.target.resourceNames = [])

variable {rule : Rule} {rules : List Rule} {violation : Violation}

theorem violation?_eq_none_iff : rule.violation? = none ↔ rule.IsGrantable := by
  have isGrantable_iff : rule.IsGrantable ↔ rule.verbs ≠ [] ∧
      ((rule.target.resources ≠ [] ∧ rule.target.apiGroups ≠ [] ∧ rule.target.urls = []) ∨
        (rule.target.urls ≠ [] ∧ rule.target.resources = [] ∧ rule.target.apiGroups = [] ∧
          rule.target.resourceNames = [])) :=
    ⟨fun grantable => ⟨grantable.verbs, grantable.target⟩, fun both => ⟨both.1, both.2⟩⟩
  rw [isGrantable_iff, violation?]
  -- Only which of the fields are empty matters.
  cases rule.verbs with
  | nil => simp
  | cons verb verbs =>
      cases rule.target.resources with
      | nil => cases rule.target.urls <;> simp
      | cons resource resources => cases rule.target.urls <;> simp

theorem exists_violation (notGrantable : ¬rule.IsGrantable) :
    ∃ violation, rule.violation? = some violation := by
  rw [← violation?_eq_none_iff] at notGrantable
  exact Option.ne_none_iff_exists'.mp notGrantable

theorem firstViolation?_eq_none_iff :
    firstViolation? rules = none ↔ ∀ rule ∈ rules, rule.IsGrantable := by
  simp only [firstViolation?, List.findSome?_eq_none_iff, Option.map_eq_none_iff,
    violation?_eq_none_iff]

theorem firstViolation?_eq_some_iff :
    firstViolation? rules = some (rule, violation) ↔
      IsFirst (fun rule => ¬rule.IsGrantable) rules rule ∧ rule.violation? = some violation := by
  simp only [firstViolation?, List.findSome?_eq_some_iff, Option.map_eq_some_iff,
    Option.map_eq_none_iff, violation?_eq_none_iff, Prod.mk.injEq]
  constructor
  · rintro ⟨before, _, behind, rfl, ⟨_, found, rfl, rfl⟩, grantable⟩
    refine ⟨⟨before, behind, rfl, ?_, ?_⟩, found⟩
    · simpa only [not_not] using grantable
    · simp [← violation?_eq_none_iff, found]
  · rintro ⟨⟨before, behind, rfl, grantable, _⟩, found⟩
    simp only [not_not] at grantable
    exact ⟨before, rule, behind, rfl, ⟨violation, found, rfl, rfl⟩, grantable⟩

end Rule

end RbacManifest
