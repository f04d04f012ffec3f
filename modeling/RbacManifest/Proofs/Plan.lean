import RbacManifest.Generate
import RbacManifest.Proofs.FailureKind
import RbacManifest.Proofs.FileTree.Write

/-!
# What a run plans

A run plans before it writes. A plan that is made is either empty or consists of the manifests of
the role and of the binding, both rendered, as `Plan.eq_of_make` states; and planning never fails as
a write would, as `Plan.neverWrites_make` does.
-/

namespace RbacManifest

/-- The path of the manifest of a kind. -/
def Options.manifestPath (options : Options) (kind : ResourceKind) : String :=
  Plan.manifestPath options.outputDirectory (Plan.fileName kind)

/-- Whether bytes are what is rendered as the manifest of a kind once the rules are merged. -/
def Options.Renders (options : Options) (rules : List Rule) (bytes : List UInt8) :
    ResourceKind → Prop
  | .clusterRole =>
      ∃ role, Role.build (Rule.aggregate rules) options = .ok role ∧
        (Resource.ofRole role).render.outcome = .ok bytes
  | .clusterRoleBinding =>
      ∃ binding, RoleBinding.build options = .ok binding ∧
        (Resource.ofBinding binding).render.outcome = .ok bytes

/-! ## Failures of planning -/

theorem Options.failsAs_check {options : Options} {tree : FileTree} :
    FailsAs [.configuration] (options.check tree) := by
  apply FailsAs.bind
  · rw [checkName]
    split <;> simp [Failure.kind]
  intro _ _
  apply FailsAs.bind
  · rw [checkInputDirectory]
    split <;> simp [Failure.kind]
  intro _ _
  apply FailsAs.bind
  · rw [checkOutputDirectory]
    split <;> simp [Failure.kind]
  intro _ _
  rw [checkLabels]
  split <;> simp [Failure.kind]

theorem Plan.failsAs_checkRules {rules : List Rule} :
    FailsAs [.invalidRule] (checkRules rules) := by
  rw [checkRules]
  split <;> simp [Failure.kind]

theorem ResourceNames.failsAs_ofName {name : String} : FailsAs [.configuration] (ofName name) := by
  rw [ofName]
  split <;> simp [Failure.kind]

theorem Resource.failsAs_render {resource : Resource} :
    FailsAs [.serialization] resource.render.outcome := by
  simp only [render, Logged.outcome_bind, Logged.outcome_of, document]
  apply FailsAs.bind
  · apply FailsAs.bind
    · cases resource with
      | ofRole role => exact FailsAs.mapError fun _ _ => by simp [Failure.kind]
      | ofBinding binding => exact FailsAs.mapError fun _ _ => by simp [Failure.kind]
      | other value => exact FailsAs.error_iff.mpr (by simp [Failure.kind])
    · intro manifest _
      exact FailsAs.mapError fun _ _ => by simp [Failure.kind]
  · intro text _
    exact FailsAs.ok

theorem Plan.failsAs_ofRules {options : Options} {rules : List Rule} :
    FailsAs [.configuration, .serialization] (ofRules options rules).outcome := by
  have named : FailsAs [.configuration, .serialization] (ResourceNames.ofName options.name) :=
    ResourceNames.failsAs_ofName.mono (by simp)
  have rendered (resource : Resource) :
      FailsAs [.configuration, .serialization] resource.render.outcome :=
    Resource.failsAs_render.mono (by simp)
  simp only [ofRules, Logged.outcome_bind, Logged.outcome_of]
  apply FailsAs.bind
  · exact named.bind fun _ _ => FailsAs.ok
  intro role _
  apply FailsAs.bind
  · exact named.bind fun _ _ => FailsAs.ok
  intro binding _
  apply (rendered _).bind
  intro roleBytes _
  apply (rendered _).bind
  intro bindingBytes _
  exact FailsAs.ok

/-- Planning fails as the source of the rules does, or because of the options, of a rule or of a
manifest. -/
theorem Plan.failsAs_make {tree : FileTree} {options : Options}
    {source : String → Logged (List Rule)} {kinds : List FailureKind}
    (source_fails : FailsAs kinds (source options.inputDirectory).outcome)
    (others : [.configuration, .invalidRule, .serialization] ⊆ kinds) :
    FailsAs kinds (make tree options source).outcome := by
  simp only [make, Logged.outcome_bind, Logged.outcome_of]
  apply FailsAs.bind
  · exact Options.failsAs_check.mono fun _ isMember => others (by simp_all)
  intro _ _
  apply source_fails.bind
  intro found _
  apply FailsAs.bind
  · simp only [merge, Logged.outcome_bind, Logged.outcome_of]
    apply FailsAs.bind
    · exact Plan.failsAs_checkRules.mono fun _ isMember => others (by simp_all)
    · exact fun _ _ => FailsAs.ok
  intro rules _
  split
  · exact FailsAs.ok
  · apply Plan.failsAs_ofRules.mono
    intro kind isMember
    apply others
    rcases List.mem_cons.mp isMember with rfl | isMember <;> simp_all

/-- Whether a failure is that of writing a manifest. -/
def Failure.isWrite : Failure → Bool
  | .write _ _ _ => true
  | _ => false

/-- Whether an outcome is not the failure of writing a manifest. -/
def NeverWrites {α : Type} (outcome : Except Failure α) : Prop :=
  ∀ failure, outcome = .error failure → failure.isWrite = false

@[simp]
theorem NeverWrites.ok {α : Type} {value : α} : NeverWrites (.ok value) := by
  simp [NeverWrites]

theorem neverWrites_iff {α : Type} {outcome : Except Failure α} :
    NeverWrites outcome ↔
      FailsAs [.configuration, .scan, .invalidRule, .serialization, .unexpected] outcome := by
  have isWrite_iff (failure : Failure) : failure.isWrite = false ↔ failure.kind ∈
      [.configuration, .scan, .invalidRule, .serialization, .unexpected] := by
    cases failure <;> simp [Failure.isWrite, Failure.kind]
  simp only [NeverWrites, FailsAs, isWrite_iff]

/-- Planning fails with the failure of a write only where the source of the rules does. -/
theorem Plan.neverWrites_make {tree : FileTree} {options : Options}
    {source : String → Logged (List Rule)}
    (source_never : NeverWrites (source options.inputDirectory).outcome) :
    NeverWrites (make tree options source).outcome := by
  rw [neverWrites_iff] at source_never ⊢
  exact failsAs_make source_never (by simp)

/-! ## Plans that are made -/

namespace Plan

/-- The plan that writes both manifests of a run. -/
def ofManifests (options : Options) (rules : List Rule) (roleBytes bindingBytes : List UInt8) :
    Plan where
  ruleCount := (Rule.aggregate rules).length
  files :=
    [⟨.clusterRole, options.manifestPath .clusterRole, roleBytes⟩,
      ⟨.clusterRoleBinding, options.manifestPath .clusterRoleBinding, bindingBytes⟩]

theorem eq_of_ofRules {options : Options} {rules : List Rule} {plan : Plan}
    (made : (ofRules options (Rule.aggregate rules)).outcome = .ok plan) :
    ∃ roleBytes bindingBytes, options.Renders rules roleBytes .clusterRole ∧
      options.Renders rules bindingBytes .clusterRoleBinding ∧
      plan = ofManifests options rules roleBytes bindingBytes := by
  simp only [ofRules, Logged.outcome_bind, Logged.outcome_of, Logged.outcome_pure,
    Except.bind_eq_ok_iff, Except.ok.injEq] at made
  rcases made with ⟨role, role_built, binding, binding_built, roleBytes, role_rendered,
    bindingBytes, binding_rendered, rfl⟩
  exact ⟨roleBytes, bindingBytes, ⟨role, role_built, role_rendered⟩,
    ⟨binding, binding_built, binding_rendered⟩, rfl⟩

/-- A plan is made only for options that pass the check and rules that are found, and it is empty
or writes both manifests. -/
theorem eq_of_make {tree : FileTree} {options : Options} {source : String → Logged (List Rule)}
    {plan : Plan} (made : (make tree options source).outcome = .ok plan) :
    options.check tree = .ok () ∧
      ∃ rules, (source options.inputDirectory).outcome = .ok rules ∧
        ((Rule.aggregate rules = [] ∧ plan = ⟨0, []⟩) ∨
          (Rule.aggregate rules ≠ [] ∧ ∃ roleBytes bindingBytes,
            options.Renders rules roleBytes .clusterRole ∧
            options.Renders rules bindingBytes .clusterRoleBinding ∧
            plan = ofManifests options rules roleBytes bindingBytes)) := by
  simp only [make, merge, Logged.outcome_bind, Logged.outcome_of, Logged.outcome_record,
    Logged.outcome_pure, Except.bind_eq_ok_iff, Except.ok.injEq] at made
  rcases made with ⟨_, checked, rules, found, merged, ⟨_, rules_checked, _, _, rfl⟩, made⟩
  refine ⟨checked, rules, found, ?_⟩
  split at made
  · next isEmpty =>
    left
    simp only [Logged.outcome_bind, Logged.outcome_record, Logged.outcome_pure,
      Except.bind_eq_ok_iff, Except.ok.injEq] at made
    rcases made with ⟨_, _, rfl⟩
    exact ⟨List.isEmpty_iff.mp isEmpty, rfl⟩
  · next nonempty =>
    right
    exact ⟨fun isEmpty => nonempty (List.isEmpty_iff.mpr isEmpty), eq_of_ofRules made⟩

end Plan

end RbacManifest
