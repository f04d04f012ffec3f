import Mathlib.Data.List.ReduceOption
import RbacManifest.Proofs.FailureKind
import RbacManifest.Proofs.FileTree.Names
import RbacManifest.Proofs.Marker.Fault
import RbacManifest.Proofs.Source.Scan
import RbacManifest.Proofs.Source.Written

/-!
# Faulty sources

What a scan fails with is stated here about the contents of the files alone. A file is read as a
whole before its lines are looked at, so bytes that are no text hide all of its markers. A scan
fails with the fault of the first faulty step of its walk, `Source.scan_of_isFirst`, and finds the
rules of all markers if no step is faulty, `Source.scan_of_forall`.
-/

namespace RbacManifest

namespace Source

/-- Whether something is wrong with the marker on a line. -/
def IsLineFault (tokens : List String) (line : List Char) (fault : Marker.Fault) : Prop :=
  ∃ body, Marker.body? tokens line = some body ∧ Marker.IsFault body fault

/-- The lines of a text with their numbers, counted from one. -/
def numberedLines (content : List Char) : List (List Char × Nat) :=
  (Text.lines content).zipIdx 1

/-- Whether something is wrong with a file: it cannot be read as a text, or its first malformed
marker is the reason. -/
inductive IsFault (tree : FileTree) (path : String) : Failure → Prop
  | unreadable {fault : FileFault} (unread : text tree path = .error fault) :
      IsFault tree path (.sourceFile path fault)
  | malformed {content line : List Char} {number : Nat} {fault : Marker.Fault}
      (read : text tree path = .ok content)
      (first : IsFirst (fun row => ∃ fault, IsLineFault (commentTokens path) row.1 fault)
        (numberedLines content) (line, number))
      (wrong : IsLineFault (commentTokens path) line fault) :
      IsFault tree path (.marker ⟨path, number⟩ fault)

def IsFaulty (tree : FileTree) (path : String) : Prop :=
  ∃ failure, IsFault tree path failure

/-- The rule of the marker on a line, if there is a marker that is well formed. -/
def statedRule? (tokens : List String) (place : SourcePosition) (line : List Char) : Option Rule :=
  (Marker.body? tokens line).bind fun body => (Marker.rule body place).toOption

/-- The rules of the markers in a file, in the order of its lines. -/
def statedRules (tree : FileTree) (path : String) : List Rule :=
  match text tree path with
  | .ok content =>
      (numberedLines content).filterMap fun row =>
        statedRule? (commentTokens path) ⟨path, row.2⟩ row.1
  | .error _ => []

namespace Step

/-- Whether something is wrong with a step of a walk: with its file, or with a directory that cannot
be listed. -/
inductive IsFault (tree : FileTree) : Step → Failure → Prop
  | file {path : String} {failure : Failure} (isFault : Source.IsFault tree path failure) :
      IsFault tree (.file path) failure
  | unlisted (path : String) (fault : PathFault) :
      IsFault tree (.unlisted path fault) (.sourceDirectory path fault)

def IsFaulty (tree : FileTree) (step : Step) : Prop :=
  ∃ failure, step.IsFault tree failure

/-- The rules of the markers in the file of a step. -/
def statedRules (tree : FileTree) : Step → List Rule
  | .file path => Source.statedRules tree path
  | .unlisted _ _ => []

end Step

variable {tree : FileTree} {path : String} {tokens : List String} {place : SourcePosition}
  {line content : List Char} {failure : Failure}

/-! ## Lines -/

theorem lineRule?_eq_error_iff :
    lineRule? tokens place line = .error failure ↔
      ∃ fault, IsLineFault tokens line fault ∧ failure = .marker place fault := by
  rw [lineRule?]
  simp only [IsLineFault]
  cases Marker.body? tokens line with
  | none => simp
  | some body =>
      simp only [Option.some.injEq, exists_eq_left', ← Marker.rule_eq_error_iff place]
      cases Marker.rule body place with
      | ok rule => simp
      | error fault => simp [eq_comm]

theorem lineRule?_eq_ok (sound : ∀ fault, ¬IsLineFault tokens line fault) :
    lineRule? tokens place line = .ok (statedRule? tokens place line) := by
  rw [lineRule?, statedRule?]
  cases found : Marker.body? tokens line with
  | none => rfl
  | some body =>
      simp only [Option.bind_some]
      cases read : Marker.rule body place with
      | ok rule => rfl
      | error fault =>
          exact absurd ⟨body, found, (Marker.rule_eq_error_iff place).mp read⟩ (sound fault)

theorem outcome_linesRules_eq {number : Nat} {lines : List (List Char)} :
    (linesRules tokens path number lines).outcome =
      ((lines.zipIdx number).mapM fun row => lineRule? tokens ⟨path, row.2⟩ row.1).map
        List.reduceOption := by
  induction lines generalizing number with
  | nil => rfl
  | cons line rest ih =>
      rw [outcome_linesRules_cons, ih, List.zipIdx_cons, List.mapM_cons]
      cases lineRule? tokens ⟨path, number⟩ line with
      | error failure => rfl
      | ok stated =>
          simp only [bind, Except.bind]
          cases List.mapM (fun row => lineRule? tokens ⟨path, row.2⟩ row.1)
              (rest.zipIdx (number + 1)) with
          | error failure => rfl
          | ok others => cases stated <;> rfl

theorem linesRules_eq_error_iff {number : Nat} {lines : List (List Char)} :
    (linesRules tokens path number lines).outcome = .error failure ↔
      ∃ row,
        IsFirst (fun row => ∃ fault, IsLineFault tokens row.1 fault) (lines.zipIdx number) row ∧
        ∃ fault, IsLineFault tokens row.1 fault ∧ failure = .marker ⟨path, row.2⟩ fault := by
  have fails_iff (row : List Char × Nat) :
      (∃ failure, lineRule? tokens ⟨path, row.2⟩ row.1 = .error failure) ↔
        ∃ fault, IsLineFault tokens row.1 fault := by
    simp only [lineRule?_eq_error_iff]
    exact ⟨fun ⟨_, fault, wrong, _⟩ => ⟨fault, wrong⟩, fun ⟨fault, wrong⟩ => ⟨_, fault, wrong, rfl⟩⟩
  rw [outcome_linesRules_eq, Except.map_eq_error_iff, Except.mapM_eq_error_iff]
  simp only [fails_iff]
  simp only [lineRule?_eq_error_iff]

theorem linesRules_eq_ok {number : Nat} {lines : List (List Char)}
    (sound : ∀ row ∈ lines.zipIdx number, ∀ fault, ¬IsLineFault tokens row.1 fault) :
    (linesRules tokens path number lines).outcome =
      .ok ((lines.zipIdx number).filterMap fun row => statedRule? tokens ⟨path, row.2⟩ row.1) := by
  have reads : ∀ row ∈ lines.zipIdx number, lineRule? tokens ⟨path, row.2⟩ row.1 =
      .ok (statedRule? tokens ⟨path, row.2⟩ row.1) :=
    fun row isMember => lineRule?_eq_ok (sound row isMember)
  rw [outcome_linesRules_eq, Except.mapM_eq_ok reads]
  simp [Except.map, List.reduceOption]

theorem source_of_statedRule? {rule : Rule} (stated : statedRule? tokens place line = some rule) :
    rule.source = some place := by
  rcases Option.bind_eq_some_iff.mp stated with ⟨body, _, read⟩
  cases outcome : Marker.rule body place with
  | error fault => simp [outcome, Except.toOption] at read
  | ok other =>
      rw [outcome] at read
      cases read
      exact Marker.source_of_rule outcome

/-! ## Files -/

/-- A rule of a file has its place on a line of the file. -/
theorem exists_source_of_mem_statedRules {rule : Rule} (isMember : rule ∈ statedRules tree path) :
    ∃ number : Nat, rule.source = some ⟨path, number⟩ := by
  rw [statedRules] at isMember
  split at isMember
  · rcases List.mem_filterMap.mp isMember with ⟨row, _, stated⟩
    exact ⟨row.2, source_of_statedRule? stated⟩
  · simp at isMember

theorem fileFailure_eq {fault : FileFault} (possible : Path.IsPossible path)
    (unread : text tree path = .error fault) : fileFailure path fault = .sourceFile path fault := by
  rw [fileFailure.eq_def]
  split
  · have isRead : tree.readFile path ≠ .error .nullCharacter :=
      FileTree.readFile_ne_nullCharacter possible
    rw [text] at unread
    split at unread
    · next fault failed =>
      cases unread
      exact absurd failed isRead
    · next bytes read =>
      cases decoded : Text.decode bytes <;> simp [decoded, Except.mapError] at unread
  · rfl

theorem fileRules_eq_error_iff (possible : Path.IsPossible path) :
    (fileRules tree path).outcome = .error failure ↔ IsFault tree path failure := by
  rw [fileRules, Logged.outcome_bind, Logged.outcome_of]
  cases read : text tree path with
  | error fault =>
      rw [Except.mapError, fileFailure_eq possible read]
      constructor
      · rintro ⟨⟩
        exact .unreadable read
      · intro isFault
        cases isFault with
        | unreadable unread =>
            cases unread.symm.trans read
            rfl
        | malformed otherRead => cases otherRead.symm.trans read
  | ok content =>
      change (linesRules _ _ _ (Text.lines content)).outcome = _ ↔ _
      rw [linesRules_eq_error_iff]
      constructor
      · rintro ⟨row, first, fault, wrong, rfl⟩
        exact .malformed read first wrong
      · intro isFault
        cases isFault with
        | unreadable unread => cases unread.symm.trans read
        | malformed otherRead first wrong =>
            cases otherRead.symm.trans read
            exact ⟨_, first, _, wrong, rfl⟩

theorem fileRules_eq_ok (sound : ¬IsFaulty tree path) :
    (fileRules tree path).outcome = .ok (statedRules tree path) := by
  rw [fileRules, statedRules, Logged.outcome_bind, Logged.outcome_of]
  cases read : text tree path with
  | error fault => exact absurd ⟨_, .unreadable read⟩ sound
  | ok content =>
      apply linesRules_eq_ok
      by_contra wrong
      push Not at wrong
      rcases IsFirst.exists_of_mem wrong with ⟨row, first⟩
      rcases first.holds with ⟨fault, wrong⟩
      exact sound ⟨_, .malformed read first wrong⟩

/-! ## Steps -/

namespace Step

variable {step : Step}

theorem IsFault.kind_eq (isFault : step.IsFault tree failure) : failure.kind = .scan := by
  cases isFault with
  | file isFault => cases isFault <;> rfl
  | unlisted => rfl

/-- A rule of a step has its place on a line of the file. -/
theorem exists_source_of_mem_statedRules {rule : Rule} (isMember : rule ∈ step.statedRules tree) :
    ∃ path, step = .file path ∧ ∃ number : Nat, rule.source = some ⟨path, number⟩ := by
  cases step with
  | file path => exact ⟨path, rfl, Source.exists_source_of_mem_statedRules isMember⟩
  | unlisted path fault => cases isMember

/-- Whether a step can come from paths without the character that no path can hold. -/
def IsPossible : Step → Prop
  | .file path => Path.IsPossible path
  | .unlisted _ fault => fault ≠ .nullCharacter

end Step

theorem stepRules_eq_error_iff {step : Step} (possible : step.IsPossible) :
    (stepRules tree step).outcome = .error failure ↔ step.IsFault tree failure := by
  cases step with
  | file path =>
      rw [stepRules, fileRules_eq_error_iff possible]
      constructor
      · exact .file
      · rintro ⟨isFault⟩
        exact isFault
  | unlisted path fault =>
      have failure_eq : directoryFailure path fault = .sourceDirectory path fault := by
        rw [directoryFailure.eq_def]
        split
        · exact absurd rfl possible
        · rfl
      rw [stepRules, Logged.fail, failure_eq, Except.error.injEq]
      constructor
      · rintro rfl
        exact .unlisted path fault
      · rintro ⟨⟩
        rfl

theorem stepRules_eq_ok {step : Step} (sound : ¬step.IsFaulty tree) :
    (stepRules tree step).outcome = .ok (step.statedRules tree) := by
  cases step with
  | file path =>
      apply fileRules_eq_ok
      rintro ⟨failure, isFault⟩
      exact sound ⟨failure, .file isFault⟩
  | unlisted path fault => exact absurd ⟨_, .unlisted path fault⟩ sound

/-! ## Scans -/

variable {steps : List Step} {step : Step}

theorem outcome_stepsRules_eq :
    (stepsRules tree steps).outcome =
      (steps.mapM fun step => (stepRules tree step).outcome).map List.flatten := by
  induction steps with
  | nil => rfl
  | cons step rest ih =>
      rw [stepsRules, Logged.outcome_bind, List.mapM_cons]
      simp only [Logged.outcome_bind, Logged.outcome_pure, ih]
      cases (stepRules tree step).outcome with
      | error failure => rfl
      | ok rules =>
          simp only [bind, Except.bind]
          cases List.mapM (fun step => (stepRules tree step).outcome) rest <;> rfl

theorem stepsRules_of_isFirst (possible : ∀ step ∈ steps, step.IsPossible)
    (first : IsFirst (Step.IsFaulty tree) steps step) (isFault : step.IsFault tree failure) :
    (stepsRules tree steps).outcome = .error failure := by
  rw [outcome_stepsRules_eq, Except.map_eq_error_iff, Except.mapM_eq_error_iff]
  refine ⟨step, ?_, (stepRules_eq_error_iff (possible step first.mem)).mpr isFault⟩
  refine (IsFirst.congr ?_).mpr first
  intro other isMember
  simp only [stepRules_eq_error_iff (possible other isMember), Step.IsFaulty]

theorem stepsRules_of_forall (sound : ∀ step ∈ steps, ¬step.IsFaulty tree) :
    (stepsRules tree steps).outcome = .ok (steps.flatMap (Step.statedRules tree)) := by
  have reads : ∀ step ∈ steps, (stepRules tree step).outcome = .ok (step.statedRules tree) :=
    fun step isMember => stepRules_eq_ok (sound step isMember)
  rw [outcome_stepsRules_eq, Except.mapM_eq_ok reads]
  rfl

variable {endings : List String} {directory : String} {entries : List (String × Entry)}

theorem outcome_scan (listed : tree.list directory = .ok entries) :
    (scan endings tree directory).outcome =
      (stepsRules tree (Source.steps endings tree directory entries)).outcome := by
  rw [scan, listed, Except.mapError, Logged.of_ok_bind]
  simp only [Logged.outcome_bind, Logged.outcome_record, Logged.outcome_pure]
  cases (stepsRules tree (Source.steps endings tree directory entries)).outcome <;> rfl

theorem isPossible_of_mem_inside {entry : Entry} (names : entry.HasPossibleNames)
    (possible : Path.IsPossible path) (isMember : step ∈ inside endings tree path entry) :
    step.IsPossible := by
  induction names generalizing path with
  | file bytes => simp [inside] at isMember
  | link target => simp [inside] at isMember
  | @directory entries names _ ih =>
      rcases mem_inside_cases isMember with ⟨source, isEntry, _, step_eq⟩ |
        ⟨inner, isEntry, isInner⟩ | ⟨fault, failed, step_eq⟩
      · rw [step_eq]
        exact possible.join (names source isEntry)
      · exact ih inner isEntry (possible.join (names inner isEntry)) isInner
      · rw [step_eq]
        rintro rfl
        exact FileTree.list_ne_nullCharacter possible failed

/-- A scan fails with what is wrong with the first faulty step of its walk. -/
theorem scan_of_isFirst (names : tree.root.HasPossibleNames)
    (listed : tree.list directory = .ok entries)
    (first : IsFirst (Step.IsFaulty tree) (Source.steps endings tree directory entries) step)
    (isFault : step.IsFault tree failure) :
    (scan endings tree directory).outcome = .error failure := by
  rw [outcome_scan listed]
  apply stepsRules_of_isFirst _ first isFault
  rcases FileTree.list_eq_ok_iff.mp listed with ⟨place, _, present⟩
  intro step isMember
  exact isPossible_of_mem_inside (names.at? present) (FileTree.isPossible_of_list listed) isMember

/-- A scan without faulty steps finds the rules of all markers on its way. -/
theorem scan_of_forall (listed : tree.list directory = .ok entries)
    (sound : ∀ step ∈ Source.steps endings tree directory entries, ¬step.IsFaulty tree) :
    (scan endings tree directory).outcome =
      .ok ((Source.steps endings tree directory entries).flatMap (Step.statedRules tree)) := by
  rw [outcome_scan listed]
  exact stepsRules_of_forall sound

end Source

end RbacManifest
