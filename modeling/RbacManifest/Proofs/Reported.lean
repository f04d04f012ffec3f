import RbacManifest.Proofs.Generate
import RbacManifest.Proofs.Outcome
import RbacManifest.Proofs.Rule.Violation
import RbacManifest.Proofs.Source.Visit

/-!
# Which failure is reported

The failure that a run reports about its sources depends on what the files hold and not on how they
are read. A faulty file, or a directory that cannot be listed, comes before every rule that may not
be granted, also when the rule stands in an earlier file: `generate_reports`.
-/

namespace RbacManifest

/-- The place that a failure is about, if it is about a line of a file. -/
def Failure.place? : Failure → Option SourcePosition
  | .marker place _ => some place
  | .rule broken _ => broken.source
  | _ => none

theorem Failure.exists_message_eq {failure : Failure} {place : SourcePosition}
    (about : failure.place? = some place) :
    ∃ cause : String, failure.message = s!"{place.path}:{place.line}: {cause}" := by
  have toString_eq (text : String) : toString text = text := rfl
  cases failure with
  | marker other fault =>
      cases about
      have message_eq : (Failure.marker place fault).message =
          s!"{place.describe}: {fault.message}" := rfl
      refine ⟨fault.message, ?_⟩
      simp only [message_eq, SourcePosition.describe, toString_eq]
  | rule broken violation =>
      have placed : broken.source = some place := about
      have message_eq : (Failure.rule broken violation).message =
          s!"{broken.describePlace}: {violation.message}" := rfl
      refine ⟨violation.message, ?_⟩
      simp only [message_eq, Rule.describePlace, placed, SourcePosition.describe, toString_eq]
  | _ => cases about

/-- What a run says about its sources, when the walk through them takes some steps. -/
structure Reports (tree : FileTree) (steps : List Source.Step)
    (outcome : Except Failure Generated) : Prop where
  /-- The first faulty step comes before everything else. -/
  fault : (∃ step ∈ steps, step.IsFaulty tree) →
    ∃ step failure, IsFirst (Source.Step.IsFaulty tree) steps step ∧
      step.IsFault tree failure ∧ outcome = .error failure ∧ failure.kind = .scan
  /-- Without faulty steps it is the first rule that may not be granted. -/
  violation : (∀ step ∈ steps, ¬step.IsFaulty tree) →
    (∃ rule ∈ steps.flatMap (Source.Step.statedRules tree), ¬rule.IsGrantable) →
      ∃ rule broken path number, .file path ∈ steps ∧ rule.source = some ⟨path, number⟩ ∧
        IsFirst (fun rule => ¬rule.IsGrantable) (steps.flatMap (Source.Step.statedRules tree))
          rule ∧
        rule.violation? = some broken ∧ outcome = .error (.rule rule broken)
  /-- Without these no failure is about the sources or a rule. -/
  neither : (∀ step ∈ steps, ¬step.IsFaulty tree) →
    (∀ rule ∈ steps.flatMap (Source.Step.statedRules tree), rule.IsGrantable) →
      ∀ failure, outcome = .error failure → failure.kind ≠ .scan ∧ failure.kind ≠ .invalidRule
  /-- A failure that is about a line of a file names the file and the line first. -/
  place : ∀ failure place, outcome = .error failure → failure.place? = some place →
    ∃ cause : String, failure.message = s!"{place.path}:{place.line}: {cause}"

variable {tree : FileTree} {options : Options} {source : String → Logged (List Rule)}
  {rules : List Rule} {failure : Failure}

/-! ## Outcomes by what is found -/

/-- A run with valid options fails as its scan does. -/
theorem outcome_generate_of_error (checked : options.check tree = .ok ())
    (unfound : (Source.scan Source.usualEndings tree options.inputDirectory).outcome =
      .error failure) : (generate tree options).2.outcome = .error failure := by
  rw [generate, outcome_generateFrom, Plan.outcome_make, checked, unfound]
  rfl

theorem outcome_of_violation {rule : Rule} {broken : Violation}
    (checked : options.check tree = .ok ())
    (found : (source options.inputDirectory).outcome = .ok rules)
    (first : IsFirst (fun rule => ¬rule.IsGrantable) rules rule)
    (isBroken : rule.violation? = some broken) :
    (generateFrom source tree options).2.outcome = .error (.rule rule broken) := by
  have refused : Plan.checkRules rules = .error (.rule rule broken) := by
    rw [Plan.checkRules, Rule.firstViolation?_eq_some_iff.mpr ⟨first, isBroken⟩]
  rw [outcome_generateFrom, Plan.outcome_make, checked, found]
  simp only [bind, Except.bind, refused]

/-- Rules that may be granted leave only failures that are about neither sources nor rules. -/
theorem failsAs_of_isGrantable (checked : options.check tree = .ok ())
    (found : (source options.inputDirectory).outcome = .ok rules)
    (grantable : ∀ rule ∈ rules, rule.IsGrantable) :
    FailsAs [.configuration, .serialization, .write]
      (generateFrom source tree options).2.outcome := by
  have allowed : Plan.checkRules rules = .ok () := by
    rw [Plan.checkRules, Rule.firstViolation?_eq_none_iff.mpr grantable]
  rw [outcome_generateFrom, Plan.outcome_make, checked, found]
  simp only [bind, Except.bind, allowed]
  apply FailsAs.bind
  · split
    · exact FailsAs.ok
    · exact Plan.failsAs_ofRules.mono (by simp)
  · intro plan _
    apply FailsAs.map
    exact Plan.failsAs_commit.mono (by simp)

/-- Which failure a run with valid options reports is fixed by what the walk through the sources
comes to: by the files, and by the directories that cannot be listed. -/
theorem generate_reports (tree : FileTree) (options : Options)
    (names : tree.root.HasPossibleNames) (checked : options.check tree = .ok ()) :
    ∃ entries, tree.list options.inputDirectory = .ok entries ∧
      Reports tree (Source.steps Source.usualEndings tree options.inputDirectory entries)
        (generate tree options).2.outcome := by
  rcases FileTree.exists_list (options.isInput_of_check checked) with ⟨entries, listed⟩
  refine ⟨entries, listed, ?_, ?_, ?_, ?_⟩
  · intro someFaulty
    rcases IsFirst.exists_of_mem someFaulty with ⟨step, first⟩
    rcases first.holds with ⟨failure, isFault⟩
    have unfound := Source.scan_of_isFirst names listed first isFault
    exact ⟨step, failure, first, isFault, outcome_generate_of_error checked unfound,
      isFault.kind_eq⟩
  · intro sound someBroken
    rcases IsFirst.exists_of_mem someBroken with ⟨rule, first⟩
    rcases Rule.exists_violation first.holds with ⟨broken, isBroken⟩
    rcases List.mem_flatMap.mp first.mem with ⟨step, isTaken, isStated⟩
    rcases step.exists_source_of_mem_statedRules isStated with ⟨path, rfl, number, placed⟩
    have found := Source.scan_of_forall listed sound
    exact ⟨rule, broken, path, number, isTaken, placed, first, isBroken,
      outcome_of_violation checked found first isBroken⟩
  · intro sound grantable failure failed
    have found := Source.scan_of_forall listed sound
    have kinds := failsAs_of_isGrantable checked found grantable failure failed
    constructor
    · intro isScan
      simp [isScan] at kinds
    · intro isRule
      simp [isRule] at kinds
  · intro failure place _ about
    exact Failure.exists_message_eq about

/-- A tree with a rule without verbs, behind it two malformed markers, and at last a file that is no
text. -/
def faultyTree : FileTree where
  root := .directory [
    ("config", .directory []),
    ("pkg", .directory [
      ("c.go", .file [0xFF]),
      ("b.go", .file (Text.encode
        "// +rbac:urls=/metrics,verbs=get\n// +rbac:verb=get\n// +rbac:verbs".toList)),
      ("a.go", .file (Text.encode "// +rbac:groups=core,resources=pods".toList))])]
  working := []

theorem generate_reports_faultyTree :
    faultyTree.root.HasPossibleNames ∧ ({} : Options).check faultyTree = .ok () ∧
      (∃ entries, faultyTree.list "./pkg" = .ok entries ∧
        Reports faultyTree (Source.steps Source.usualEndings faultyTree "./pkg" entries)
          (generate faultyTree {}).2.outcome) ∧
      (match (generate faultyTree {}).2.outcome with
        | .ok _ => ""
        | .error failure => failure.message) =
          "./pkg/b.go:2: unknown RBAC annotation key 'verb'" := by
  have names : faultyTree.root.HasPossibleNames := by
    refine .directory (by decide) ?_
    simp only [List.forall_mem_cons]
    refine ⟨.directory (by simp) (by simp), .directory (by decide) ?_, by simp⟩
    simp only [List.forall_mem_cons]
    exact ⟨.file _, .file _, .file _, by simp⟩
  have checked : ({} : Options).check faultyTree = .ok () := rfl
  exact ⟨names, checked, generate_reports faultyTree {} names checked, by decide +kernel⟩

/-- Options whose input directory has a path of the greatest length. -/
def farOptions : Options where
  inputDirectory := Source.farPath

/-- A run may fail because of its sources though it looks at no file at all: at a directory that
cannot be listed. -/
theorem generate_unlisted :
    (Source.configTree []).root.HasPossibleNames ∧
      farOptions.check (Source.configTree []) = .ok () ∧
      (∃ entries, (Source.configTree []).list farOptions.inputDirectory = .ok entries ∧
        ∀ file, .file file ∉ Source.steps Source.usualEndings (Source.configTree [])
          farOptions.inputDirectory entries) ∧
      ∃ failure, (generate (Source.configTree []) farOptions).2.outcome = .error failure ∧
        failure.kind = .scan := by
  have names : (Source.configTree []).root.HasPossibleNames := by
    refine .directory (by decide) ?_
    rw [List.forall_mem_singleton]
    exact .directory (by simp) (by simp)
  have listed : (Source.configTree []).list farOptions.inputDirectory =
      .ok [("config", .directory [])] := Source.list_farPath []
  have isInput : (Source.configTree []).hasDirectory farOptions.inputDirectory = true := by
    rcases FileTree.list_eq_ok_iff.mp listed with ⟨place, resolved, present⟩
    exact FileTree.hasDirectory_iff.mpr
      ⟨place, resolved, Entry.shape?_directory_iff.mpr ⟨_, present⟩⟩
  have checked : farOptions.check (Source.configTree []) = .ok () := by
    rw [Options.check, Options.checkInputDirectory_eq_ok_iff.mpr isInput]
    rfl
  have unfound : (Source.scan Source.usualEndings (Source.configTree [])
      farOptions.inputDirectory).outcome =
        .error (.sourceDirectory (Path.join Source.farPath "config") .nameTooLong) :=
    Source.scan_farPath Source.usualEndings []
  have failed := outcome_generate_of_error checked unfound
  refine ⟨names, checked, ⟨_, listed, ?_⟩, _, failed, rfl⟩
  simp [farOptions, Source.steps_farPath]

end RbacManifest
