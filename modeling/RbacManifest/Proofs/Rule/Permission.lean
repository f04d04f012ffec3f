import RbacManifest.Proofs.Rule.Grants

/-!
# Permissions of rules

A request asks for a verb on an object or on a URL, and a rule may permit it. Merging rules changes
no answer: `Rule.exists_mem_aggregate_permits_iff` says that a request is permitted by one of the
merged rules exactly when one of the rules permits it. Wildcards have no meaning of their own here,
they are members of fields like all others.
-/

namespace RbacManifest

/-- A request for a verb. -/
inductive Request
  /-- A verb on the object with a name, of a resource in an API group. -/
  | onObject (group resource object verb : String)
  /-- A verb on a URL that is no resource. -/
  | onUrl (url verb : String)
  deriving DecidableEq, Repr

/-- The verb of a request. -/
def Request.verb : Request → String
  | .onObject _ _ _ verb => verb
  | .onUrl _ verb => verb

/-- Whether a target is about what a request asks for. A target without object names is about all
objects. -/
def Target.Covers (target : Target) : Request → Prop
  | .onObject group resource object _ =>
      group ∈ target.apiGroups ∧ resource ∈ target.resources ∧
        (target.resourceNames = [] ∨ object ∈ target.resourceNames)
  | .onUrl url _ => url ∈ target.urls

/-- Whether a rule permits a request. -/
def Rule.Permits (rule : Rule) (request : Request) : Prop :=
  rule.target.Covers request ∧ request.verb ∈ rule.verbs

instance (target : Target) : (request : Request) → Decidable (target.Covers request)
  | .onObject group resource object _ =>
      inferInstanceAs (Decidable (group ∈ target.apiGroups ∧ resource ∈ target.resources ∧
        (target.resourceNames = [] ∨ object ∈ target.resourceNames)))
  | .onUrl url _ => inferInstanceAs (Decidable (url ∈ target.urls))

instance (rule : Rule) (request : Request) : Decidable (rule.Permits request) :=
  inferInstanceAs (Decidable (rule.target.Covers request ∧ request.verb ∈ rule.verbs))

namespace Target

/-- The canonical form of a target is about the same requests. -/
@[simp]
theorem covers_canonical {target : Target} {request : Request} :
    target.canonical.Covers request ↔ target.Covers request := by
  cases request with
  | onObject group resource object verb => simp [Covers, canonical]
  | onUrl url verb => simp [Covers, canonical]

end Target

namespace Rule

theorem exists_mem_toRules_permits_iff {grants : Grants} {request : Request} :
    (∃ rule ∈ grants.toRules, rule.Permits request) ↔
      ∃ target : Target, target.Covers request ∧ grants.Allows target request.verb := by
  constructor
  · rintro ⟨rule, rule_mem, covers, verb_mem⟩
    exact ⟨rule.target, covers, rule.verbs, (Grants.mem_toRules.mp rule_mem).1, verb_mem⟩
  · rintro ⟨target, covers, verbs, present, verb_mem⟩
    exact ⟨{ target, verbs }, Grants.mem_toRules.mpr ⟨present, rfl⟩, covers, verb_mem⟩

/-- Merged rules permit a request exactly when one of the rules permits it. -/
theorem exists_mem_aggregate_permits_iff (rules : List Rule) (request : Request) :
    (∃ rule ∈ aggregate rules, rule.Permits request) ↔ ∃ rule ∈ rules, rule.Permits request := by
  rw [aggregate, exists_mem_toRules_permits_iff]
  simp only [Grants.allows_ofRules]
  constructor
  · rintro ⟨_, covers, rule, rule_mem, rfl, verb_mem⟩
    exact ⟨rule, rule_mem, Target.covers_canonical.mp covers, verb_mem⟩
  · rintro ⟨rule, rule_mem, covers, verb_mem⟩
    exact ⟨rule.target.canonical, Target.covers_canonical.mpr covers, rule, rule_mem, rfl,
      verb_mem⟩

end Rule

end RbacManifest
