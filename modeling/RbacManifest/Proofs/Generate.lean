import RbacManifest.Proofs.Plan

/-!
# What a run changes

A run that fails before the first write leaves the tree of files as it was, because planning reads
the tree and never changes it. `generateFrom_changes` says for every outcome of a run which places
of the tree differ afterwards: none, the one that the manifest of the role leads to, or the two that
both manifests lead to.
-/

namespace RbacManifest

namespace FileTree

variable {tree after : FileTree} {path : String} {place : Place} {bytes : List UInt8}

theorem hasDirectory_iff :
    tree.hasDirectory path = true ↔
      ∃ place, tree.resolve true path = .ok (.found place) ∧
        tree.shape? place = some .directory := by
  have isDirectory_iff : tree.hasDirectory path = true ↔
      ∃ entries, tree.entry path = .ok (.directory entries) := by
    rw [hasDirectory]
    cases tree.entry path with
    | error fault => simp
    | ok entry => cases entry <;> simp
  simp only [isDirectory_iff, entry_eq_ok_iff, shape?, Entry.shape?_directory_iff]
  constructor
  · rintro ⟨entries, place, resolved, found⟩
    exact ⟨place, resolved, entries, found⟩
  · rintro ⟨place, resolved, entries, found⟩
    exact ⟨entries, place, resolved, found⟩

theorem exists_list (isDirectory : tree.hasDirectory path = true) :
    ∃ entries, tree.list path = .ok entries := by
  rcases hasDirectory_iff.mp isDirectory with ⟨place, resolved, present⟩
  rcases Entry.shape?_directory_iff.mp present with ⟨entries, found⟩
  exact ⟨entries, list_eq_ok_iff.mpr ⟨place, resolved, found⟩⟩

theorem directoryFault?_eq_none_iff :
    tree.directoryFault? path = none ↔ tree.hasDirectory path = true := by
  rw [directoryFault?]
  cases isDirectory : tree.hasDirectory path with
  | false => split <;> simp
  | true =>
      have isPresent : tree.has path = true := by
        rw [hasDirectory] at isDirectory
        rw [has]
        split at isDirectory
        · next found => rw [found]; rfl
        · simp at isDirectory
      simp [isPresent]

/-- Directories stay directories when a file is written. -/
theorem Writes.hasDirectory (writes : tree.Writes place bytes after)
    (isDirectory : tree.hasDirectory path = true) : after.hasDirectory path = true := by
  rcases hasDirectory_iff.mp isDirectory with ⟨directory, resolved, present⟩
  refine hasDirectory_iff.mpr ⟨directory, ?_, writes.shape?_directory present⟩
  rw [writes.resolve_eq resolved, Location.behind_found]

end FileTree

/-! ## The paths of the manifests -/

namespace Options

variable {options : Options} {tree : FileTree}

theorem checkInputDirectory_eq_ok_iff :
    options.checkInputDirectory tree = .ok () ↔
      tree.hasDirectory options.inputDirectory = true := by
  rw [← FileTree.directoryFault?_eq_none_iff, checkInputDirectory]
  cases tree.directoryFault? options.inputDirectory <;> simp

theorem checkOutputDirectory_eq_ok_iff :
    options.checkOutputDirectory tree = .ok () ↔
      tree.hasDirectory options.outputDirectory = true := by
  rw [← FileTree.directoryFault?_eq_none_iff, checkOutputDirectory]
  cases tree.directoryFault? options.outputDirectory <;> simp

theorem hasDirectory_of_check (checked : options.check tree = .ok ()) :
    tree.hasDirectory options.outputDirectory = true := by
  simp only [check, Except.check_bind_eq_ok_iff, checkOutputDirectory_eq_ok_iff] at checked
  exact checked.2.2.1

theorem isInput_of_check (checked : options.check tree = .ok ()) :
    tree.hasDirectory options.inputDirectory = true := by
  simp only [check, Except.check_bind_eq_ok_iff, checkInputDirectory_eq_ok_iff] at checked
  exact checked.2.1

theorem manifestPath_ne (options : Options) :
    options.manifestPath .clusterRole ≠ options.manifestPath .clusterRoleBinding := by
  intro same
  have names_eq : Plan.fileName .clusterRole ++ ".yaml" =
      Plan.fileName .clusterRoleBinding ++ ".yaml" :=
    Path.join_left_injective (by decide) (by decide) same
  revert names_eq
  decide

/-- The manifest of a kind is a file or a free name in the output directory. -/
theorem manifestPath_isSound (isDirectory : tree.hasDirectory options.outputDirectory = true)
    (kind : ResourceKind) {location : FileTree.Location}
    (resolved : tree.resolve true (options.manifestPath kind) = .ok location) :
    location.IsSound tree.root := by
  rcases FileTree.hasDirectory_iff.mp isDirectory with ⟨place, directory_resolved, present⟩
  have continued : ∃ left,
      FileTree.follow tree.root true left place [Plan.fileName kind ++ ".yaml"] = .ok location := by
    refine FileTree.exists_follow_of_resolve_join ?_ ?_ ?_ directory_resolved present resolved
    all_goals cases kind <;> decide
  rcases continued with ⟨left, followed⟩
  exact FileTree.follow_isSound present followed

/-- Writing the manifest of a kind changes the place alone that its path leads to. -/
theorem writes_of_writeFile (isDirectory : tree.hasDirectory options.outputDirectory = true)
    {kind : ResourceKind} {bytes : List UInt8} {after : FileTree}
    (written : tree.writeFile (options.manifestPath kind) bytes = .ok after) :
    ∃ location, tree.resolve true (options.manifestPath kind) = .ok location ∧
      tree.Writes location.place bytes after :=
  FileTree.writes_of_writeFile (fun _ => manifestPath_isSound isDirectory kind) written

end Options

/-! ## Writing one file after the other -/

/-- Whether a tree comes from another one by writing files one after the other to where their paths
lead. -/
inductive FileTree.WritesAll : FileTree → List PlannedFile → FileTree → Prop
  | nil (tree : FileTree) : WritesAll tree [] tree
  | cons {tree middle after : FileTree} {file : PlannedFile} {rest : List PlannedFile}
      {location : FileTree.Location} (resolved : tree.resolve true file.path = .ok location)
      (writes : tree.Writes location.place file.bytes middle)
      (continued : WritesAll middle rest after) : WritesAll tree (file :: rest) after

/-- Manifests are written up to the first that cannot be written. -/
theorem Plan.commit_writesAll {options : Options} {tree : FileTree} {files : List PlannedFile}
    (isDirectory : tree.hasDirectory options.outputDirectory = true)
    (paths_eq : ∀ file ∈ files, file.path = options.manifestPath file.kind) :
    ∃ written rest, files = written ++ rest ∧ tree.WritesAll written (commit tree files).1 ∧
      match (commit tree files).2.outcome with
      | .ok _ => rest = []
      | .error failure => ∃ file later fault,
          rest = file :: later ∧ failure = .write file.kind file.path fault := by
  induction files generalizing tree with
  | nil => exact ⟨[], [], rfl, .nil tree, rfl⟩
  | cons file files ih =>
      have path_eq : file.path = options.manifestPath file.kind := paths_eq file (by simp)
      rw [commit]
      cases outcome : tree.writeFile file.path file.bytes with
      | error fault => exact ⟨[], file :: files, rfl, .nil tree, file, files, fault, rfl, rfl⟩
      | ok middle =>
          rcases Options.writes_of_writeFile isDirectory (path_eq ▸ outcome) with
            ⟨location, resolved, writes⟩
          rcases ih (writes.hasDirectory isDirectory)
            (fun other isMember => paths_eq other (by simp [isMember])) with
            ⟨written, rest, files_eq, continued, stopped⟩
          refine ⟨file :: written, rest, by simp [files_eq],
            .cons (path_eq ▸ resolved) writes continued, ?_⟩
          rw [Logged.outcome_bind, Logged.outcome_record]
          exact stopped

/-- Files that are all written are written one after the other. -/
theorem Plan.writesAll_of_commit {options : Options} {tree : FileTree} {files : List PlannedFile}
    (isDirectory : tree.hasDirectory options.outputDirectory = true)
    (paths_eq : ∀ file ∈ files, file.path = options.manifestPath file.kind)
    (written : (commit tree files).2.outcome = .ok ()) :
    tree.WritesAll files (commit tree files).1 := by
  rcases commit_writesAll isDirectory paths_eq with ⟨before, rest, files_eq, writes, stopped⟩
  rw [written] at stopped
  have rest_eq : rest = [] := stopped
  rw [rest_eq, List.append_nil] at files_eq
  rwa [← files_eq] at writes

/-! ## Whole runs -/

/-- What a run has changed that found rules, by its outcome. Both files are as they should be only
if their paths do not lead to the same place. -/
def Options.Changes (options : Options) (rules : List Rule) (tree after : FileTree) :
    Except Failure Generated → Prop
  | .error (.write _ path _) =>
      path = options.manifestPath .clusterRole ∧ after = tree ∨
        path = options.manifestPath .clusterRoleBinding ∧
          ∃ bytes location, options.Renders rules bytes .clusterRole ∧
            tree.resolve true (options.manifestPath .clusterRole) = .ok location ∧
            tree.Writes location.place bytes after ∧
            after.readFile (options.manifestPath .clusterRole) = .ok bytes
  | .error _ => after = tree
  | .ok generated =>
      if generated.ruleCount = 0 then after = tree
      else
        ∃ roleBytes bindingBytes role binding,
          options.Renders rules roleBytes .clusterRole ∧
          options.Renders rules bindingBytes .clusterRoleBinding ∧
          tree.resolve true (options.manifestPath .clusterRole) = .ok role ∧
          tree.resolve true (options.manifestPath .clusterRoleBinding) = .ok binding ∧
          (role.place ≠ binding.place →
            after.working = tree.working ∧
            after.shape? role.place = some (.file roleBytes) ∧
            after.shape? binding.place = some (.file bindingBytes) ∧
            after.readFile (options.manifestPath .clusterRole) = .ok roleBytes ∧
            after.readFile (options.manifestPath .clusterRoleBinding) = .ok bindingBytes ∧
            ∀ other, other ≠ role.place → other ≠ binding.place →
              after.shape? other = tree.shape? other)

namespace Options

variable {options : Options} {tree after : FileTree} {rules : List Rule}
  {roleBytes bindingBytes : List UInt8}

/-- A run whose second file cannot be written has written the first one. -/
theorem changes_of_writesAll_role {failure : Failure} {fault : PathFault}
    (failure_eq : failure = .write .clusterRoleBinding (options.manifestPath .clusterRoleBinding)
      fault)
    (rendered : options.Renders rules roleBytes .clusterRole)
    (writes : tree.WritesAll
      [⟨.clusterRole, options.manifestPath .clusterRole, roleBytes⟩] after) :
    options.Changes rules tree after (.error failure) := by
  cases writes with
  | @cons _ _ _ _ _ location resolved writes continued =>
      cases continued
      rw [failure_eq]
      exact Or.inr ⟨rfl, roleBytes, location, rendered, resolved, writes,
        writes.readFile_eq resolved rfl⟩

/-- A run that writes both files has changed them and nothing else. -/
theorem changes_of_writesAll_both {generated : Generated} (nonempty : generated.ruleCount ≠ 0)
    (role_rendered : options.Renders rules roleBytes .clusterRole)
    (binding_rendered : options.Renders rules bindingBytes .clusterRoleBinding)
    (writes : tree.WritesAll
      [⟨.clusterRole, options.manifestPath .clusterRole, roleBytes⟩,
        ⟨.clusterRoleBinding, options.manifestPath .clusterRoleBinding, bindingBytes⟩] after) :
    options.Changes rules tree after (.ok generated) := by
  rw [Changes, if_neg nonempty]
  cases writes with
  | @cons _ middle _ _ _ role role_resolved role_writes continued =>
  cases continued with
  | @cons _ _ _ _ _ behind behind_resolved binding_writes continued =>
  cases continued
  rcases role_writes.exists_resolve behind_resolved with ⟨binding, binding_resolved, rfl⟩
  simp only [FileTree.Location.place_behind] at binding_writes
  refine ⟨roleBytes, bindingBytes, role, binding, role_rendered, binding_rendered, role_resolved,
    binding_resolved, ?_⟩
  intro differs
  have role_kept : after.shape? role.place = some (.file roleBytes) := by
    rw [binding_writes.frame _ differs, role_writes.written]
  refine ⟨?_, role_kept, binding_writes.written, ?_, ?_, ?_⟩
  · rw [binding_writes.working_eq, role_writes.working_eq]
  · have role_found := role_writes.resolve_self role_resolved rfl
    have role_found_last := binding_writes.resolve_eq role_found
    rw [FileTree.Location.behind_found] at role_found_last
    exact FileTree.readFile_of_found role_found_last role_kept
  · exact binding_writes.readFile_eq behind_resolved FileTree.Location.place_behind
  · intro other not_role not_binding
    rw [binding_writes.frame other not_binding, role_writes.frame other not_role]

/-- Writing both manifests changes what a run is said to change. -/
theorem changes_of_commit (nonempty : Rule.aggregate rules ≠ [])
    (isDirectory : tree.hasDirectory options.outputDirectory = true)
    (role_rendered : options.Renders rules roleBytes .clusterRole)
    (binding_rendered : options.Renders rules bindingBytes .clusterRoleBinding) :
    options.Changes rules tree
      (Plan.commit tree (Plan.ofManifests options rules roleBytes bindingBytes).files).1
      ((Plan.commit tree
        (Plan.ofManifests options rules roleBytes bindingBytes).files).2.outcome >>= fun _ =>
          .ok ⟨(Rule.aggregate rules).length, [options.manifestPath .clusterRole,
            options.manifestPath .clusterRoleBinding]⟩) := by
  have paths_eq : ∀ file ∈ (Plan.ofManifests options rules roleBytes bindingBytes).files,
      file.path = options.manifestPath file.kind := by
    simp [Plan.ofManifests]
  rcases Plan.commit_writesAll isDirectory paths_eq with
    ⟨written, rest, files_eq, writes, stopped⟩
  generalize Plan.commit tree (Plan.ofManifests options rules roleBytes bindingBytes).files =
    result at writes stopped ⊢
  rcases result with ⟨after, log, outcome⟩
  cases outcome with
  | ok _ =>
      rw [show rest = [] from stopped, List.append_nil] at files_eq
      subst files_eq
      exact changes_of_writesAll_both (by simpa using nonempty) role_rendered binding_rendered
        writes
  | error failure =>
      rcases stopped with ⟨file, later, fault, rfl, failure_eq⟩
      rcases List.cons_eq_append_iff.mp files_eq with
        ⟨rfl, none_written⟩ | ⟨others, rfl, one_written⟩
      · cases none_written
        cases writes
        rw [show failure = _ from failure_eq]
        exact Or.inl ⟨rfl, rfl⟩
      · rcases List.cons_eq_append_iff.mp one_written with ⟨rfl, last⟩ | ⟨more, rfl, impossible⟩
        · cases last
          exact changes_of_writesAll_role failure_eq role_rendered writes
        · simp at impossible

end Options

/-- A run changes nothing unless its rules are found, and then what its outcome says. -/
theorem generateFrom_changes (source : String → Logged (List Rule)) (tree : FileTree)
    (options : Options) :
    options.manifestPath .clusterRole ≠ options.manifestPath .clusterRoleBinding ∧
      match (source options.inputDirectory).outcome with
      | .error _ => (generateFrom source tree options).1 = tree
      | .ok rules =>
          options.Changes rules tree (generateFrom source tree options).1
            (generateFrom source tree options).2.outcome := by
  refine ⟨options.manifestPath_ne, ?_⟩
  rw [generateFrom]
  cases planned : (Plan.make tree options source).outcome with
  | error failure =>
      simp only
      cases found : (source options.inputDirectory).outcome with
      | error _ => trivial
      | ok rules =>
          have source_never : NeverWrites (source options.inputDirectory).outcome := by
            simp [found]
          have never := Plan.neverWrites_make source_never failure planned
          cases failure <;> first | rfl | simp [Failure.isWrite] at never
  | ok plan =>
      rcases Plan.eq_of_make planned with ⟨checked, rules, found, plan_eq⟩
      simp only [planned, found, Logged.outcome_bind, Logged.outcome_pure]
      rcases plan_eq with ⟨_, rfl⟩ | ⟨nonempty, roleBytes, bindingBytes, role_rendered,
        binding_rendered, rfl⟩
      · rfl
      · exact Options.changes_of_commit nonempty (Options.hasDirectory_of_check checked)
          role_rendered binding_rendered

end RbacManifest
