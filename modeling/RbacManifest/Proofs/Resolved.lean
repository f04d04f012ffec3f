import RbacManifest.CommandLine.Run
import RbacManifest.Proofs.Configuration
import RbacManifest.Proofs.Repeat
import RbacManifest.Proofs.Reported
import RbacManifest.Proofs.Serialized

/-!
# Runs with resolved options

Options that are resolved from a configuration of the right form have labels of texts under
different keys, and the resources of a run with such labels are always rendered. So a run fails
because of its options, the sources, the rules or the files it writes, and for no other reason:
`generate_resolved`.
-/

namespace RbacManifest

open Manifest

/-- Whether a label is a pair of plain texts. -/
def IsPlainLabel (label : Value × Value) : Prop :=
  ∃ key value, label = (.text key, .text value)

theorem areTextualLabels_of_forall {labels : Entries} (distinct : labels.HaveDistinctKeys)
    (plain : ∀ label ∈ labels, IsPlainLabel label) : AreTextualLabels labels where
  distinct := by
    refine List.pairwise_map.mpr (distinct.imp_of_mem ?_)
    intro left right left_mem right_mem differ same
    rcases plain left left_mem with ⟨leftKey, _, rfl⟩
    rcases plain right right_mem with ⟨rightKey, _, rfl⟩
    cases same
    simp [Value.sameKey, Value.text?] at differ
  keys := by
    intro label isMember
    rcases plain label isMember with ⟨key, _, rfl⟩
    exact ⟨key, rfl⟩
  values := by
    intro label isMember
    rcases plain label isMember with ⟨_, value, rfl⟩
    exact ⟨value, rfl⟩

variable {tree : FileTree} {options : Options} {rules : List Rule}

/-- Labels of texts on the command line and in a configuration of the right form are put together
to labels of texts. -/
theorem GivenOptions.areTextualLabels_of_resolve {given : GivenOptions}
    {configuration : Configuration} {environment : Environment}
    (satisfied : Schema.IsSatisfied configuration.data)
    (given_plain : ∀ label ∈ given.labels, IsPlainLabel label)
    (resolved : given.resolve configuration environment = .ok options) :
    AreTextualLabels options.labels := by
  rw [resolve, Except.bind_eq_ok_iff] at resolved
  rcases resolved with ⟨defaults, _, options_eq⟩
  cases options_eq
  have isPlain_iff (label : Value × Value) : IsPlainLabel label ↔
      (∃ key, label.1 = .text key) ∧ ∃ value, label.2 = .text value := by
    simp [IsPlainLabel, Prod.ext_iff]
  apply areTextualLabels_of_forall (Configuration.haveDistinctKeys_labels.putAll _)
  have configuration_plain : ∀ label ∈ configuration.labels, IsPlainLabel label :=
    fun label isMember => configuration.exists_of_mem_labels satisfied isMember
  simp only [isPlain_iff] at given_plain configuration_plain ⊢
  exact Entries.forall_mem_putAll (fun key => ∃ text, key = .text text)
    (fun value => ∃ text, value = .text text) configuration_plain given_plain

namespace Options

theorem name_ne_of_check (checked : options.check tree = .ok ()) : options.name ≠ "" := by
  simp only [check, Except.check_bind_eq_ok_iff] at checked
  rcases checked with ⟨name_checked, _⟩
  intro empty
  rw [checkName, empty] at name_checked
  cases name_checked

end Options

/-! ## Failures of a run -/

theorem Failure.isExpected_iff {failure : Failure} :
    failure.isExpected = true ↔ failure.kind ≠ .unexpected := by
  cases failure <;> simp [isExpected, kind]

theorem Source.failsAs_scan (names : tree.root.HasPossibleNames)
    (checked : options.check tree = .ok ()) :
    FailsAs [.scan] (scan usualEndings tree options.inputDirectory).outcome := by
  rcases FileTree.exists_list (options.isInput_of_check checked) with ⟨entries, listed⟩
  by_cases someFaulty : ∃ step ∈ steps usualEndings tree options.inputDirectory entries,
      step.IsFaulty tree
  · rcases IsFirst.exists_of_mem someFaulty with ⟨step, first⟩
    rcases first.holds with ⟨failure, isFault⟩
    rw [scan_of_isFirst names listed first isFault, FailsAs.error_iff, isFault.kind_eq]
    exact List.mem_singleton_self _
  · push Not at someFaulty
    rw [scan_of_forall listed someFaulty]
    exact FailsAs.ok

/-- With labels of texts a run does not fail to render its resources. -/
theorem failsAs_generate (names : tree.root.HasPossibleNames)
    (textual : AreTextualLabels options.labels) :
    FailsAs [.configuration, .scan, .invalidRule, .write] (generate tree options).2.outcome := by
  rw [generate, outcome_generateFrom, Plan.outcome_make]
  apply FailsAs.bind
  · apply FailsAs.bind
    · exact Options.failsAs_check.mono (by simp)
    intro _ checked
    apply FailsAs.bind
    · exact (Source.failsAs_scan names checked).mono (by simp)
    intro rules _
    apply FailsAs.bind
    · exact Plan.failsAs_checkRules.mono (by simp)
    intro _ _
    split
    · exact FailsAs.ok
    · rcases Plan.exists_ofRules (Rule.aggregate rules) (options.name_ne_of_check checked)
        textual with ⟨plan, made⟩
      rw [made]
      exact FailsAs.ok
  · intro plan _
    exact (Plan.failsAs_commit.mono (by simp)).map

/-! ## Runs that succeed -/

/-- Manifests are written if their paths can be written before the first of them is. -/
theorem Plan.outcome_commit {files : List PlannedFile}
    (isDirectory : tree.hasDirectory options.outputDirectory = true)
    (paths_eq : ∀ file ∈ files, file.path = options.manifestPath file.kind)
    (writable : ∀ file ∈ files, tree.IsWritable file.path) :
    (commit tree files).2.outcome = .ok () := by
  induction files generalizing tree with
  | nil => rfl
  | cons file rest ih =>
      rw [List.forall_mem_cons] at paths_eq writable
      rcases writable.1.exists_writeFile file.bytes with ⟨middle, written⟩
      rw [commit, written, Logged.outcome_bind, Logged.outcome_record]
      rw [paths_eq.1] at written
      rcases Options.writes_of_writeFile isDirectory written with ⟨location, _, writes⟩
      apply ih (writes.hasDirectory isDirectory) paths_eq.2
      intro other isMember
      exact writes.isWritable (writable.2 other isMember)

theorem exists_generated (textual : AreTextualLabels options.labels)
    (checked : options.check tree = .ok ())
    (found : (Source.scan Source.usualEndings tree options.inputDirectory).outcome = .ok rules)
    (allowed : Plan.checkRules rules = .ok ())
    (writable : ∀ kind, tree.IsWritable (options.manifestPath kind)) :
    ∃ generated, (generate tree options).2.outcome = .ok generated := by
  have isDirectory : tree.hasDirectory options.outputDirectory = true :=
    options.hasDirectory_of_check checked
  rcases Plan.exists_ofRules (Rule.aggregate rules) (options.name_ne_of_check checked) textual with
    ⟨plan, made⟩
  rcases Plan.eq_of_ofRules made with ⟨roleBytes, bindingBytes, _, _, plan_eq⟩
  have written : (Plan.commit tree plan.files).2.outcome = .ok () := by
    apply Plan.outcome_commit isDirectory
    · simp [plan_eq, Plan.ofManifests]
    · simp [plan_eq, Plan.ofManifests, writable]
  rw [generate, outcome_generateFrom, Plan.outcome_make, checked, found]
  simp only [bind, Except.bind, allowed]
  by_cases none : Rule.aggregate rules = []
  · simp [none, Plan.commit, Except.map]
  · simp [none, made, written, Except.map]

/-- A run whose options are resolved after any loads does not fail in rendering, nor in a way that
it does not expect. If its options, its sources and its rules are in order and both manifests can be
written, it succeeds. -/
theorem generate_resolved (loads : List (FileTree × String)) (given : GivenOptions)
    (environment : Environment) (tree : FileTree) (options : Options)
    (given_plain : ∀ label ∈ given.labels, IsPlainLabel label)
    (resolved : given.resolve (Configuration.afterLoads loads) environment = .ok options)
    (names : tree.root.HasPossibleNames) :
    (∀ failure, (generate tree options).2.outcome = .error failure →
      failure.isExpected = true ∧
        failure.kind ∈ [.configuration, .scan, .invalidRule, .write]) ∧
      ∀ rules, options.check tree = .ok () →
        (Source.scan Source.usualEndings tree options.inputDirectory).outcome = .ok rules →
        Plan.checkRules rules = .ok () →
        (∀ kind, tree.IsWritable (options.manifestPath kind)) →
          ∃ generated, (generate tree options).2.outcome = .ok generated := by
  have satisfied : Schema.IsSatisfied (Configuration.afterLoads loads).data :=
    (Configuration.isLastOf_afterLoads loads).isSatisfied
  have textual : AreTextualLabels options.labels :=
    GivenOptions.areTextualLabels_of_resolve satisfied given_plain resolved
  constructor
  · intro failure failed
    have kinds := failsAs_generate names textual failure failed
    refine ⟨Failure.isExpected_iff.mpr ?_, kinds⟩
    intro isUnexpected
    simp [isUnexpected] at kinds
  · intro rules checked found allowed writable
    exact exists_generated textual checked found allowed writable

/-- Options with a label, behind which the labels of a configuration count. -/
def labelledOptions : GivenOptions where
  outputDirectory := some "./pkg"
  labels := [(.text "tier", .text "backend")]

theorem generate_resolved_labelledOptions :
    (∀ label ∈ labelledOptions.labels, IsPlainLabel label) ∧ plainTree.root.HasPossibleNames ∧
      ∃ options,
        labelledOptions.resolve (Configuration.afterLoads GivenOptions.changingLoads) [] =
          .ok options ∧
        (generate plainTree options).2.outcome.toOption =
          some ⟨1, ["./pkg/rbac_role.yaml", "./pkg/rbac_role_binding.yaml"]⟩ ∧
        (∀ failure, (generate plainTree options).2.outcome = .error failure →
          failure.isExpected = true ∧
            failure.kind ∈ [.configuration, .scan, .invalidRule, .write]) ∧
        ∀ rules, options.check plainTree = .ok () →
          (Source.scan Source.usualEndings plainTree options.inputDirectory).outcome = .ok rules →
          Plan.checkRules rules = .ok () →
          (∀ kind, plainTree.IsWritable (options.manifestPath kind)) →
            ∃ generated, (generate plainTree options).2.outcome = .ok generated := by
  have plain : ∀ label ∈ labelledOptions.labels, IsPlainLabel label :=
    List.forall_mem_singleton.mpr ⟨_, _, rfl⟩
  have names : plainTree.root.HasPossibleNames := by
    refine .directory (by decide) (List.forall_mem_singleton.mpr ?_)
    exact .directory (by decide) (List.forall_mem_singleton.mpr (.file _))
  have generated : (labelledOptions.resolve
      (Configuration.afterLoads GivenOptions.changingLoads) []).toOption.bind
        (fun options => (generate plainTree options).2.outcome.toOption) =
          some ⟨1, ["./pkg/rbac_role.yaml", "./pkg/rbac_role_binding.yaml"]⟩ := by
    decide +kernel
  refine ⟨plain, names, ?_⟩
  cases resolved : labelledOptions.resolve
      (Configuration.afterLoads GivenOptions.changingLoads) [] with
  | error failure => simp [resolved, Except.toOption] at generated
  | ok options =>
      rw [resolved] at generated
      exact ⟨options, rfl, generated,
        generate_resolved GivenOptions.changingLoads labelledOptions [] plainTree options plain
          resolved names⟩

end RbacManifest
