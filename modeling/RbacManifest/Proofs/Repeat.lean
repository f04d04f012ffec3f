import RbacManifest.Proofs.Generate
import RbacManifest.Proofs.Source.Scan

/-!
# Repeated runs

In a tree without links a run can be repeated: the second run finds what the first one found,
because no manifest is a source, and it writes what is already there. `generate_generate` says so
for every outcome of the first run, also when the manifests are written among the sources.
-/

namespace RbacManifest

namespace FileTree

variable {tree after : FileTree} {path name : String} {place parent : Place} {bytes : List UInt8}

/-- Whether a path leads to a file with some bytes. -/
def Holds (tree : FileTree) (path : String) (bytes : List UInt8) : Prop :=
  ∃ place, tree.resolve true path = .ok (.found place) ∧ tree.shape? place = some (.file bytes)

theorem Holds.writeFile (holds : tree.Holds path bytes) : tree.writeFile path bytes = .ok tree := by
  rcases holds with ⟨place, found, present⟩
  exact writeFile_of_found found present

theorem Writes.holds (writes : tree.Writes place bytes after) {location : Location}
    (resolved : tree.resolve true path = .ok location) (same : location.place = place) :
    after.Holds path bytes :=
  ⟨place, writes.resolve_self resolved same, writes.written⟩

/-- A file stays as it is when another one is written. -/
theorem Writes.holds_of_ne (writes : tree.Writes place bytes after) {content : List UInt8}
    (differs : ∀ location, tree.resolve true path = .ok location → location.place ≠ place)
    (holds : tree.Holds path content) : after.Holds path content := by
  rcases holds with ⟨found, resolved, present⟩
  have later_resolved := writes.resolve_eq resolved
  rw [Location.behind_found] at later_resolved
  exact ⟨found, later_resolved, (writes.frame found (differs _ resolved)).trans present⟩

end FileTree

namespace Options

variable {options : Options} {tree after : FileTree}

theorem check_of_writes {place : Place} {bytes : List UInt8}
    (writes : tree.Writes place bytes after) (checked : options.check tree = .ok ()) :
    options.check after = .ok () := by
  simp only [check, Except.check_bind_eq_ok_iff, checkInputDirectory_eq_ok_iff,
    checkOutputDirectory_eq_ok_iff] at checked ⊢
  rcases checked with ⟨name_checked, isInput, isOutput, labels_checked⟩
  exact ⟨name_checked, writes.hasDirectory isInput, writes.hasDirectory isOutput, labels_checked⟩

/-! ## One manifest -/

/-- The name of the file of a manifest. -/
def manifestName (kind : ResourceKind) : String :=
  Plan.fileName kind ++ ".yaml"

theorem manifestName_injective {kind other : ResourceKind}
    (same : manifestName kind = manifestName other) : kind = other := by
  cases kind <;> cases other <;> first | rfl | (revert same; decide)

theorem not_endsIn_manifestName (kind : ResourceKind) :
    Source.endsIn Source.usualEndings (manifestName kind) = false := by
  cases kind <;> decide

theorem steps_manifestPath (options : Options) (kind : ResourceKind) :
    Path.steps (options.manifestPath kind) =
      Path.names options.outputDirectory ++ [manifestName kind] := by
  have relative : Path.isAbsolute (manifestName kind) = false := by cases kind <;> decide
  have nonempty : manifestName kind ≠ "" := by cases kind <;> decide
  have steps_eq : Path.steps (manifestName kind) = [manifestName kind] := by
    cases kind <;> decide
  rw [manifestPath, Plan.manifestPath, ← manifestName, Path.steps_join relative nonempty, steps_eq]

theorem isProper_manifestName (kind : ResourceKind) :
    manifestName kind ≠ "." ∧ manifestName kind ≠ ".." := by
  cases kind <;> decide

/-- Whether manifests are written to a directory of a tree without links. -/
structure WritesPlainly (options : Options) (tree : FileTree) : Prop where
  linkFree : tree.root.IsLinkFree
  isDirectory : tree.hasDirectory options.outputDirectory = true

namespace WritesPlainly

variable {kind : ResourceKind} {bytes : List UInt8}

theorem exists_stores (plain : options.WritesPlainly tree)
    (written : tree.writeFile (options.manifestPath kind) bytes = .ok after) :
    ∃ parent location, tree.resolve true (options.manifestPath kind) = .ok location ∧
      location.place = parent ++ [manifestName kind] ∧
      tree.Stores parent (manifestName kind) bytes after :=
  FileTree.exists_stores_of_writeFile plain.linkFree
    (fun _ => manifestPath_isSound plain.isDirectory kind) (options.steps_manifestPath kind)
    (isProper_manifestName kind) written

theorem persists (plain : options.WritesPlainly tree)
    (written : tree.writeFile (options.manifestPath kind) bytes = .ok after) :
    options.WritesPlainly after := by
  rcases plain.exists_stores written with ⟨parent, location, _, _, stores⟩
  exact ⟨stores.linkFree_after, stores.hasDirectory plain.isDirectory⟩

theorem holds (plain : options.WritesPlainly tree)
    (written : tree.writeFile (options.manifestPath kind) bytes = .ok after) :
    after.Holds (options.manifestPath kind) bytes := by
  rcases plain.exists_stores written with ⟨parent, location, resolved, place_eq, stores⟩
  exact stores.holds resolved place_eq

theorem holds_of_ne (plain : options.WritesPlainly tree) {other : ResourceKind}
    {content : List UInt8} (differs : other ≠ kind)
    (written : tree.writeFile (options.manifestPath kind) bytes = .ok after)
    (holds : tree.Holds (options.manifestPath other) content) :
    after.Holds (options.manifestPath other) content := by
  rcases plain.exists_stores written with ⟨parent, _, _, _, stores⟩
  refine stores.holds_of_ne ?_ holds
  intro location resolved same
  rcases FileTree.exists_place_of_resolve plain.linkFree (options.steps_manifestPath other)
    (isProper_manifestName other) resolved with ⟨directory, place_eq⟩
  rcases List.append_inj' (place_eq.symm.trans same) rfl with ⟨_, name_eq⟩
  exact differs (manifestName_injective (List.singleton_inj.mp name_eq))

/-- A plan that is made is made again when a manifest has been written. -/
theorem make_eq (plain : options.WritesPlainly tree)
    (written : tree.writeFile (options.manifestPath kind) bytes = .ok after) {plan : Plan}
    (made : (Plan.make tree options (Source.scan Source.usualEndings tree)).outcome = .ok plan) :
    Plan.make after options (Source.scan Source.usualEndings after) =
      Plan.make tree options (Source.scan Source.usualEndings tree) := by
  rcases plain.exists_stores written with ⟨parent, _, _, _, stores⟩
  rcases Plan.eq_of_make made with ⟨checked, rules, scanned, _⟩
  rw [Plan.make, Plan.make, check_of_writes stores.toWrites checked, checked,
    Source.scan_eq_of_stores stores (not_endsIn_manifestName kind) scanned]

end WritesPlainly

end Options

/-! ## Several manifests -/

namespace Plan

variable {options : Options} {tree : FileTree} {files : List PlannedFile}

theorem commit_cons_error {file : PlannedFile} {fault : PathFault}
    (failed : tree.writeFile file.path file.bytes = .error fault) :
    commit tree (file :: files) = (tree, Logged.fail (.write file.kind file.path fault)) := by
  rw [commit, failed]

theorem commit_cons_ok {file : PlannedFile} {middle : FileTree}
    (written : tree.writeFile file.path file.bytes = .ok middle) :
    commit tree (file :: files) =
      ((commit middle files).1, do
        Logged.record .info s!"{file.kind.name} manifest saved to: {file.path}"
        (commit middle files).2) := by
  rw [commit, written]

/-- A manifest stays as it is when manifests of other kinds are written. -/
theorem holds_commit {kind : ResourceKind} {bytes : List UInt8}
    (plain : options.WritesPlainly tree)
    (paths_eq : ∀ file ∈ files, file.path = options.manifestPath file.kind)
    (differs : ∀ file ∈ files, kind ≠ file.kind)
    (holds : tree.Holds (options.manifestPath kind) bytes) :
    (commit tree files).1.Holds (options.manifestPath kind) bytes := by
  induction files generalizing tree with
  | nil => exact holds
  | cons file rest ih =>
      rw [List.forall_mem_cons] at paths_eq differs
      cases written : tree.writeFile file.path file.bytes with
      | error fault =>
          rw [commit_cons_error written]
          exact holds
      | ok middle =>
          rw [commit_cons_ok written]
          rw [paths_eq.1] at written
          exact ih (plain.persists written) paths_eq.2 differs.2
            (plain.holds_of_ne differs.1 written holds)

/-- Manifests that have been written are written again without a change, and where the writing
stopped it stops again. -/
theorem commit_commit (plain : options.WritesPlainly tree)
    (paths_eq : ∀ file ∈ files, file.path = options.manifestPath file.kind)
    (distinct : files.Pairwise fun left right => left.kind ≠ right.kind) :
    commit (commit tree files).1 files = commit tree files := by
  induction files generalizing tree with
  | nil => rfl
  | cons file rest ih =>
      rw [List.forall_mem_cons] at paths_eq
      rw [List.pairwise_cons] at distinct
      cases written : tree.writeFile file.path file.bytes with
      | error fault => rw [commit_cons_error written, commit_cons_error written]
      | ok middle =>
          rw [commit_cons_ok written]
          have path_written := written
          rw [paths_eq.1] at path_written
          have kept : (commit middle rest).1.Holds file.path file.bytes := by
            rw [paths_eq.1]
            exact holds_commit (plain.persists path_written) paths_eq.2 distinct.1
              (plain.holds path_written)
          rw [commit_cons_ok kept.writeFile, ih (plain.persists path_written) paths_eq.2 distinct.2]

/-- A plan that is made is made again when its manifests have been written. -/
theorem make_commit (plain : options.WritesPlainly tree)
    (paths_eq : ∀ file ∈ files, file.path = options.manifestPath file.kind) {plan : Plan}
    (made : (make tree options (Source.scan Source.usualEndings tree)).outcome = .ok plan) :
    make (commit tree files).1 options
        (Source.scan Source.usualEndings (commit tree files).1) =
      make tree options (Source.scan Source.usualEndings tree) := by
  induction files generalizing tree with
  | nil => rfl
  | cons file rest ih =>
      rw [List.forall_mem_cons] at paths_eq
      cases written : tree.writeFile file.path file.bytes with
      | error fault => rw [commit_cons_error written]
      | ok middle =>
          rw [commit_cons_ok written]
          rw [paths_eq.1] at written
          have make_eq := plain.make_eq written made
          rw [ih (plain.persists written) paths_eq.2 (make_eq ▸ made), make_eq]

end Plan

/-! ## Runs -/

/-- A second run with the same options has the outcome and the log of the first, and it leaves the
tree as the first has left it. -/
theorem generate_generate {tree : FileTree} (options : Options)
    (linkFree : tree.root.IsLinkFree) :
    generate (generate tree options).1 options = generate tree options := by
  cases planned : (Plan.make tree options (Source.scan Source.usualEndings tree)).outcome with
  | error failure =>
      have unchanged : (generate tree options).1 = tree := by
        simp only [generate, generateFrom, planned]
      rw [unchanged]
  | ok plan =>
      have after_eq : (generate tree options).1 = (Plan.commit tree plan.files).1 := by
        simp only [generate, generateFrom, planned]
      rcases Plan.eq_of_make planned with ⟨checked, rules, _, plan_eq⟩
      have plain : options.WritesPlainly tree :=
        ⟨linkFree, options.hasDirectory_of_check checked⟩
      have paths_eq : ∀ file ∈ plan.files, file.path = options.manifestPath file.kind := by
        rcases plan_eq with ⟨_, rfl⟩ | ⟨_, _, _, _, _, rfl⟩ <;> simp [Plan.ofManifests]
      have distinct : plan.files.Pairwise fun left right => left.kind ≠ right.kind := by
        rcases plan_eq with ⟨_, rfl⟩ | ⟨_, _, _, _, _, rfl⟩ <;> simp [Plan.ofManifests]
      rw [after_eq]
      simp only [generate, generateFrom, Plan.make_commit plain paths_eq planned, planned,
        Plan.commit_commit plain paths_eq distinct]

/-- A tree with one source. -/
def plainTree : FileTree :=
  ⟨.directory [("pkg", .directory [
    ("a.go", .file (Text.encode "// +rbac:groups=core,resources=pods,verbs=get".toList))])], []⟩

theorem generate_generate_plainTree :
    plainTree.root.IsLinkFree ∧
      (generate plainTree { outputDirectory := "./pkg" }).2.outcome.toOption =
        some ⟨1, ["./pkg/rbac_role.yaml", "./pkg/rbac_role_binding.yaml"]⟩ ∧
      generate (generate plainTree { outputDirectory := "./pkg" }).1
          { outputDirectory := "./pkg" } =
        generate plainTree { outputDirectory := "./pkg" } := by
  have linkFree : plainTree.root.IsLinkFree := by
    refine .directory (List.forall_mem_singleton.mpr (.directory ?_))
    exact List.forall_mem_singleton.mpr (.file _)
  exact ⟨linkFree, by decide +kernel, generate_generate _ linkFree⟩

end RbacManifest
