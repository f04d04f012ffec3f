import RbacManifest.Proofs.FileTree.LinkFree
import RbacManifest.Proofs.Logged
import RbacManifest.Proofs.Ordered
import RbacManifest.Source

/-!
# Scans behind a written file

Writing a file that is no source changes nothing that a scan looks at. The steps of the walk are the
same, `Source.exists_at?_put`, and so are the bytes in the files, so that a scan that succeeded
before gives the same rules and the same log behind the writing: `Source.scan_eq_of_stores`.
-/

namespace RbacManifest

namespace Source

variable {endings : List String} {tree other : FileTree} {path name : String} {entry new : Entry}
  {entries : List (String × Entry)}

/-! ## The steps in a directory -/

theorem isSource_of_not_endsIn (unlike : endsIn endings name = false) :
    isSource endings tree path name entry = false := by
  cases entry <;> simp [isSource, unlike]

theorem isSource_of_isDirectory (isDirectory : entry.shape = .directory) :
    isSource endings tree path name entry = false := by
  rcases Entry.shape_eq_directory_iff.mp isDirectory with ⟨inside, rfl⟩
  rfl

/-- The names of the files that are scanned in a directory itself. -/
def ownNames (endings : List String) (tree : FileTree) (path : String)
    (entries : List (String × Entry)) : List String :=
  (entries.filter fun (name, entry) => isSource endings tree path name entry).map (·.1)

theorem inside_of_listed {listed : List (String × Entry)} (list_eq : tree.list path = .ok listed) :
    inside endings tree path (.directory entries) =
      (Ordered.ofList (ownNames endings tree path entries)).map
          (fun name => .file (Path.join path name))
        ++ (Ordered.ofKeyed (below endings tree path entries)).flatMap (·.2) := by
  rw [inside, list_eq]
  rfl

theorem inside_of_unlisted {fault : PathFault} (failed : tree.list path = .error fault) :
    inside endings tree path (.directory entries) = [.unlisted path fault] := by
  rw [inside, failed]

/-- A walk comes to nothing but a directory that cannot be listed, if that is the only entry. -/
theorem steps_of_unlisted {listed : List (String × Entry)} {fault : PathFault}
    (list_eq : tree.list path = .ok listed) (shown : name.toList.head? ≠ some '.')
    (failed : tree.list (Path.join path name) = .error fault) :
    steps endings tree path [(name, .directory entries)] =
      [.unlisted (Path.join path name) fault] := by
  have below_eq : below endings tree path [(name, .directory entries)] =
      [(name, [.unlisted (Path.join path name) fault])] := by
    have entered_eq : entered endings tree path (name, .directory entries) =
        [(name, inside endings tree (Path.join path name) (.directory entries))] := by
      simp [entered, Entry.isDirectory, shown]
    rw [below, entered_eq, inside_of_unlisted failed]
    rfl
  rw [steps, inside_of_listed list_eq, below_eq]
  rfl

theorem inside_congr {others : List (String × Entry)}
    (own_eq : ownNames endings tree path others = ownNames endings tree path entries)
    (below_eq : below endings tree path others = below endings tree path entries) :
    inside endings tree path (.directory others) =
      inside endings tree path (.directory entries) := by
  cases list_eq : tree.list path with
  | error fault => rw [inside_of_unlisted list_eq, inside_of_unlisted list_eq]
  | ok listed => rw [inside_of_listed list_eq, inside_of_listed list_eq, own_eq, below_eq]

theorem ownNames_cons :
    ownNames endings tree path ((name, entry) :: entries) =
      (if isSource endings tree path name entry then [name] else []) ++
        ownNames endings tree path entries := by
  cases found : isSource endings tree path name entry <;> simp [ownNames, found]

theorem below_cons :
    below endings tree path ((name, entry) :: entries) =
      entered endings tree path (name, entry) ++ below endings tree path entries := rfl

theorem entered_of_not_isDirectory (notDirectory : entry.shape ≠ .directory) :
    entered endings tree path (name, entry) = [] := by
  cases entry with
  | file bytes => rfl
  | link target => rfl
  | directory entries => exact absurd rfl notDirectory

theorem entered_of_isDirectory (isDirectory : entry.shape = .directory) :
    entered endings tree path (name, entry) =
      if name.toList.head? = some '.' then []
      else [(name, inside endings tree (Path.join path name) entry)] := by
  rcases Entry.shape_eq_directory_iff.mp isDirectory with ⟨entries, rfl⟩
  simp [entered, Entry.isDirectory]

/-- Two entries with a name are alike for a scan when both are sources or neither is, and when it
takes the same steps below them. -/
def AreAlike (endings : List String) (tree : FileTree) (path name : String) (old new : Entry) :
    Prop :=
  isSource endings tree path name old = isSource endings tree path name new ∧
    entered endings tree path (name, old) = entered endings tree path (name, new)

theorem inside_replace
    (alike : AreAlike endings tree path name ((entries.lookup name).getD (.file [])) new)
    (unlike : entries.lookup name = none → endsIn endings name = false) :
    inside endings tree path (.directory (Entry.replace name new entries)) =
      inside endings tree path (.directory entries) := by
  have both : ownNames endings tree path (Entry.replace name new entries) =
        ownNames endings tree path entries ∧
      below endings tree path (Entry.replace name new entries) =
        below endings tree path entries := by
    induction entries with
    | nil =>
        simp only [List.lookup_nil, Option.getD_none, AreAlike] at alike
        rw [Entry.replace, ownNames_cons, below_cons, ← alike.1, ← alike.2,
          isSource_of_not_endsIn (unlike rfl), entered_of_not_isDirectory (by simp [Entry.shape])]
        exact ⟨rfl, rfl⟩
    | cons first rest ih =>
        rcases first with ⟨otherName, old⟩
        rw [Entry.lookup_cons] at alike unlike
        rw [Entry.replace]
        by_cases same : name = otherName
        · subst same
          simp only [if_true, Option.getD_some] at alike
          rw [if_pos rfl, ownNames_cons, below_cons, ← alike.1, ← alike.2, ← below_cons,
            ← ownNames_cons]
          exact ⟨rfl, rfl⟩
        · simp only [same, if_false] at alike unlike
          rcases ih alike unlike with ⟨own_eq, below_eq⟩
          rw [if_neg (Ne.symm same), ownNames_cons, below_cons, own_eq, below_eq, ← below_cons,
            ← ownNames_cons]
          exact ⟨rfl, rfl⟩
  exact inside_congr both.1 both.2

/-- Putting a file that is no source into a directory or below it changes nothing for a scan. -/
theorem inside_put {parent : Place} (isDirectory : entry.shape? parent = some .directory)
    (notDirectory : entry.shape? (parent ++ [name]) ≠ some .directory)
    (unlike : endsIn endings name = false) (bytes : List UInt8) :
    inside endings tree path (entry.put (parent ++ [name]) (.file bytes)) =
      inside endings tree path entry := by
  induction parent generalizing entry path with
  | nil =>
      rcases Entry.shape?_directory_iff.mp isDirectory with ⟨entries, ⟨⟩⟩
      rw [List.nil_append, Entry.shape?_cons, Entry.entries_directory] at notDirectory
      rw [List.nil_append, Entry.put_singleton, Entry.entries_directory]
      refine inside_replace ⟨?_, ?_⟩ fun _ => unlike
      · rw [isSource_of_not_endsIn unlike, isSource_of_not_endsIn unlike]
      · have leaf : ((entries.lookup name).getD (.file [])).shape ≠ .directory := by
          cases found : entries.lookup name with
          | none => simp [Entry.shape]
          | some old => simpa [found, Entry.shape?_nil] using notDirectory
        rw [entered_of_not_isDirectory leaf, entered_of_not_isDirectory (by simp [Entry.shape])]
  | cons first rest ih =>
      rw [List.cons_append, Entry.shape?_cons] at notDirectory
      rw [Entry.shape?_cons] at isDirectory
      rw [List.cons_append, Entry.put]
      cases found : entry.entries.lookup first with
      | none => simp [found] at isDirectory
      | some inner =>
          rw [found, Option.bind_some] at isDirectory notDirectory
          have isInner : inner.shape = .directory := by
            simpa [Entry.shape?_nil] using FileTree.shape?_root isDirectory
          have isNew : (inner.put (rest ++ [name]) (.file bytes)).shape = .directory :=
            Entry.shape_put (by simp)
          rw [Entry.eq_directory_of_lookup found, Entry.entries_directory]
          refine inside_replace ⟨?_, ?_⟩ fun absent => ?_
          · rw [found, Option.getD_some, isSource_of_isDirectory isInner,
              isSource_of_isDirectory isNew]
          · rw [found, Option.getD_some, entered_of_isDirectory isInner,
              entered_of_isDirectory isNew, ih isDirectory notDirectory]
          · simp [found] at absent

theorem exists_at?_put {root : Entry} {parent place : Place}
    (isDirectory : root.shape? parent = some .directory)
    (notDirectory : root.shape? (parent ++ [name]) ≠ some .directory)
    (unlike : endsIn endings name = false) (bytes : List UInt8)
    (found : root.at? place = some (.directory entries)) :
    ∃ later, (root.put (parent ++ [name]) (.file bytes)).at? place = some (.directory later) ∧
      ∀ path, steps endings tree path later = steps endings tree path entries := by
  -- The ways to the directory and to the file are followed together: either the directory is
  -- around the file, or the ways part.
  induction place generalizing root parent with
  | nil =>
      cases found
      have isNew : ((Entry.directory entries).put (parent ++ [name]) (.file bytes)).shape =
          .directory := Entry.shape_put (by simp)
      rcases Entry.shape_eq_directory_iff.mp isNew with ⟨later, new_eq⟩
      refine ⟨later, congrArg some new_eq, fun path => ?_⟩
      have same : inside endings tree path
          ((Entry.directory entries).put (parent ++ [name]) (.file bytes)) =
            inside endings tree path (.directory entries) :=
        inside_put isDirectory notDirectory unlike bytes
      rwa [new_eq] at same
  | cons first rest ih =>
      rw [Entry.at?_cons, Option.bind_eq_some_iff] at found
      rcases found with ⟨inner, isInner, found⟩
      cases parent with
      | nil =>
          have differs : first ≠ name := by
            rintro rfl
            have isOuter : inner.shape? [] = some .directory :=
              FileTree.shape?_root (Entry.shape?_directory_iff.mpr ⟨entries, found⟩)
            rw [List.nil_append, Entry.shape?_cons, isInner, Option.bind_some] at notDirectory
            exact notDirectory isOuter
          refine ⟨entries, ?_, fun path => rfl⟩
          rw [List.nil_append, Entry.put_singleton, Entry.at?_cons, Entry.entries_directory,
            Entry.lookup_replace, if_neg differs, isInner]
          exact found
      | cons second parent =>
          rw [List.cons_append, Entry.shape?_cons] at notDirectory
          rw [Entry.shape?_cons] at isDirectory
          cases isSecond : root.entries.lookup second with
          | none => simp [isSecond] at isDirectory
          | some old =>
              rw [isSecond, Option.bind_some] at isDirectory notDirectory
              simp only [List.cons_append, Entry.put, isSecond, Entry.at?_cons,
                Entry.entries_directory, Entry.lookup_replace]
              by_cases same : first = second
              · subst same
                cases isInner.symm.trans isSecond
                simpa using ih isDirectory notDirectory found
              · refine ⟨entries, ?_, fun path => rfl⟩
                rw [if_neg same, isInner]
                exact found

/-! ## Trees without links -/

theorem endsIn_iff :
    endsIn endings name = true ↔ ∃ ending ∈ endings, ending.toList <:+ name.toList := by
  simp only [endsIn, List.any_eq_true, Text.isSome_after?_iff, List.reverse_prefix]

theorem endsIn_join (like : endsIn endings name = true) :
    endsIn endings (Path.join path name) = true := by
  rcases endsIn_iff.mp like with ⟨ending, isMember, isSuffix⟩
  exact endsIn_iff.mpr ⟨ending, isMember, isSuffix.trans Path.isSuffix_join⟩

/-- Whether all directories that a walk comes to can be listed. -/
def AreListed (steps : List Step) : Prop :=
  ∀ path fault, .unlisted path fault ∉ steps

theorem AreListed.canList (areListed : AreListed (inside endings tree path (.directory entries))) :
    tree.CanList path := by
  by_contra unlisted
  rcases FileTree.not_canList_iff.mp unlisted with ⟨fault, failed⟩
  rw [inside_of_unlisted failed] at areListed
  exact areListed path fault List.mem_cons_self

theorem isSource_eq_of_isLinkFree (linkFree : entry.IsLinkFree) :
    isSource endings other path name entry = isSource endings tree path name entry := by
  cases linkFree with
  | file bytes => rfl
  | directory linksFree => rfl

theorem ownNames_eq_of_isLinkFree (linksFree : ∀ member ∈ entries, member.2.IsLinkFree) :
    ownNames endings other path entries = ownNames endings tree path entries := by
  have sources_eq : entries.filter (fun (name, entry) => isSource endings other path name entry) =
      entries.filter fun (name, entry) => isSource endings tree path name entry := by
    apply List.filter_congr
    intro member isMember
    exact isSource_eq_of_isLinkFree (linksFree member isMember)
  rw [ownNames, ownNames, sources_eq]

theorem entered_eq_of_areListed
    (same : AreListed (inside endings tree (Path.join path name) entry) →
      inside endings other (Path.join path name) entry =
        inside endings tree (Path.join path name) entry)
    (areListed : ∀ member ∈ entered endings tree path (name, entry), AreListed member.2) :
    entered endings other path (name, entry) = entered endings tree path (name, entry) := by
  rw [entered] at areListed
  rw [entered, entered]
  split
  · next shown =>
    rw [if_pos shown, List.forall_mem_singleton] at areListed
    rw [same areListed]
  · rfl

theorem below_eq_of_areListed
    (same : ∀ member ∈ entries,
      AreListed (inside endings tree (Path.join path member.1) member.2) →
        inside endings other (Path.join path member.1) member.2 =
          inside endings tree (Path.join path member.1) member.2)
    (areListed : ∀ member ∈ below endings tree path entries, AreListed member.2) :
    below endings other path entries = below endings tree path entries := by
  induction entries with
  | nil => rfl
  | cons first rest ih =>
      rcases first with ⟨name, inner⟩
      rw [List.forall_mem_cons] at same
      rw [below_cons, List.forall_mem_append] at areListed
      rw [below_cons, below_cons, entered_eq_of_areListed same.1 areListed.1,
        ih same.2 areListed.2]

/-- Without links it is the names alone that say which entries are sources, so that all trees where
the same directories can be listed are walked alike. -/
theorem inside_eq_of_isLinkFree (linkFree : entry.IsLinkFree)
    (keeps : ∀ path, tree.CanList path → other.CanList path)
    (areListed : AreListed (inside endings tree path entry)) :
    inside endings other path entry = inside endings tree path entry := by
  induction linkFree generalizing path with
  | file bytes => rfl
  | @directory entries linksFree ih =>
      have canList := areListed.canList
      rcases keeps path canList with ⟨later, later_eq⟩
      rcases canList with ⟨listed, list_eq⟩
      rw [inside_of_listed list_eq] at areListed ⊢
      have below_listed : ∀ member ∈ below endings tree path entries, AreListed member.2 := by
        intro member isMember path fault isStep
        apply areListed path fault
        apply List.mem_append_right
        exact List.mem_flatMap.mpr ⟨member, Ordered.mem_ofKeyed.mpr isMember, isStep⟩
      have below_eq : below endings other path entries = below endings tree path entries := by
        apply below_eq_of_areListed _ below_listed
        intro member isMember
        exact ih member isMember
      rw [inside_of_listed later_eq, ownNames_eq_of_isLinkFree linksFree, below_eq]

theorem exists_of_mem_below {member : String × List Step}
    (isMember : member ∈ below endings tree path entries) :
    ∃ inner ∈ entries, member.2 = inside endings tree (Path.join path inner.1) inner.2 := by
  induction entries with
  | nil => simp [below] at isMember
  | cons first rest ih =>
      rw [below_cons, List.mem_append] at isMember
      rcases isMember with isFirst | isLater
      · refine ⟨first, List.mem_cons_self, ?_⟩
        rw [entered] at isFirst
        split at isFirst
        · rw [List.mem_singleton.mp isFirst]
        · simp at isFirst
      · rcases ih isLater with ⟨inner, isInner, inside_eq⟩
        exact ⟨inner, List.mem_cons_of_mem _ isInner, inside_eq⟩

theorem endsIn_of_isSource (isSource : isSource endings tree path name entry = true) :
    endsIn endings name = true := by
  cases unlike : endsIn endings name with
  | true => rfl
  | false => simp [isSource_of_not_endsIn unlike] at isSource

/-- A step in a directory is a source of its own, or a step in one of its subdirectories, or the
directory cannot be listed. -/
theorem mem_inside_cases {step : Step}
    (isMember : step ∈ inside endings tree path (.directory entries)) :
    (∃ source ∈ entries, isSource endings tree path source.1 source.2 = true ∧
        step = .file (Path.join path source.1)) ∨
      (∃ inner ∈ entries, step ∈ inside endings tree (Path.join path inner.1) inner.2) ∨
      ∃ fault, tree.list path = .error fault ∧ step = .unlisted path fault := by
  cases list_eq : tree.list path with
  | error fault =>
      rw [inside_of_unlisted list_eq, List.mem_singleton] at isMember
      exact Or.inr (Or.inr ⟨fault, rfl, isMember⟩)
  | ok listed =>
      rw [inside_of_listed list_eq, List.mem_append, List.mem_map, List.mem_flatMap] at isMember
      rcases isMember with ⟨name, isOwn, rfl⟩ | ⟨member, isBelow, isInner⟩
      · rw [Ordered.mem_ofList, ownNames, List.mem_map] at isOwn
        rcases isOwn with ⟨source, isSource, rfl⟩
        rw [List.mem_filter] at isSource
        exact Or.inl ⟨source, isSource.1, isSource.2, rfl⟩
      · rcases exists_of_mem_below (Ordered.mem_ofKeyed.mp isBelow) with
          ⟨inner, isEntry, inside_eq⟩
        rw [inside_eq] at isInner
        exact Or.inr (Or.inl ⟨inner, isEntry, isInner⟩)

/-- The path of a scanned file ends as its name. -/
theorem endsIn_of_mem_inside (linkFree : entry.IsLinkFree) {file : String}
    (isMember : .file file ∈ inside endings tree path entry) : endsIn endings file = true := by
  induction linkFree generalizing path with
  | file bytes => simp [inside] at isMember
  | @directory entries linksFree ih =>
      rcases mem_inside_cases isMember with ⟨source, _, isSource, step_eq⟩ |
        ⟨inner, isEntry, isInner⟩ | ⟨fault, _, step_eq⟩
      · cases step_eq
        exact endsIn_join (endsIn_of_isSource isSource)
      · exact ih inner isEntry isInner
      · cases step_eq

/-! ## Scans -/

theorem isUsual_of_mem : ∀ ending ∈ usualEndings, ending.toList ≠ [] ∧ '/' ∉ ending.toList := by
  decide

/-- A path that ends as sources do leads to a name that does. -/
theorem exists_place_of_endsIn {file : String} (linkFree : tree.root.IsLinkFree)
    (like : endsIn usualEndings file = true) {location : FileTree.Location}
    (resolved : tree.resolve true file = .ok location) :
    ∃ parent last, location.place = parent ++ [last] ∧ endsIn usualEndings last = true := by
  rcases endsIn_iff.mp like with ⟨ending, isMember, isSuffix⟩
  rcases isUsual_of_mem ending isMember with ⟨nonempty, noSlash⟩
  rcases Path.exists_steps_of_isSuffix nonempty noSlash isSuffix with
    ⟨before, last, steps_eq, last_isSuffix⟩
  have last_like : endsIn usualEndings last = true :=
    endsIn_iff.mpr ⟨ending, isMember, last_isSuffix⟩
  have proper : last ≠ "." ∧ last ≠ ".." := by
    constructor
    · rintro rfl
      exact absurd last_like (by decide)
    · rintro rfl
      exact absurd last_like (by decide)
  rcases FileTree.exists_place_of_resolve linkFree steps_eq proper resolved with ⟨parent, place_eq⟩
  exact ⟨parent, last, place_eq, last_like⟩

section Stores

variable {after : FileTree} {parent : Place} {bytes : List UInt8}

theorem fileRules_eq_of_stores {file : String} {rules : List Rule}
    (stores : tree.Stores parent name bytes after) (unlike : endsIn usualEndings name = false)
    (like : endsIn usualEndings file = true) (read : (fileRules tree file).outcome = .ok rules) :
    fileRules after file = fileRules tree file := by
  have text_eq : text after file = text tree file := by
    cases stored : tree.readFile file with
    | error fault =>
        rw [fileRules, text, stored] at read
        cases read
    | ok content =>
        -- A name with the ending of a source leads to such a name, as no link is on the way.
        have differs : ∀ location, tree.resolve true file = .ok location →
            location.place ≠ parent ++ [name] := by
          intro location resolved same
          rcases exists_place_of_endsIn stores.linkFree like resolved with
            ⟨directory, last, place_eq, last_like⟩
          rcases List.append_inj' (place_eq.symm.trans same) rfl with ⟨_, last_eq⟩
          cases last_eq
          simp [unlike] at last_like
        rw [text, text, stores.readFile_of_ne differs stored, stored]
  rw [fileRules, fileRules, text_eq]

theorem stepsRules_eq_of_stores {steps : List Step} {rules : List Rule}
    (stores : tree.Stores parent name bytes after) (unlike : endsIn usualEndings name = false)
    (like : ∀ file, .file file ∈ steps → endsIn usualEndings file = true)
    (read : (stepsRules tree steps).outcome = .ok rules) :
    AreListed steps ∧ stepsRules after steps = stepsRules tree steps := by
  induction steps generalizing rules with
  | nil => exact ⟨fun _ _ => List.not_mem_nil, rfl⟩
  | cons step rest ih =>
      rw [stepsRules, Logged.outcome_bind, Except.bind_eq_ok_iff] at read
      rcases read with ⟨own, own_read, read⟩
      rw [Logged.outcome_bind, Except.bind_eq_ok_iff] at read
      rcases read with ⟨others, others_read, _⟩
      rcases ih (fun file isMember => like file (List.mem_cons_of_mem _ isMember)) others_read with
        ⟨areListed, rest_eq⟩
      cases step with
      | unlisted path fault => cases own_read
      | file path =>
          refine ⟨fun path fault isMember => ?_, ?_⟩
          · rcases List.mem_cons.mp isMember with isFirst | isLater
            · cases isFirst
            · exact areListed path fault isLater
          · rw [stepsRules, stepsRules, rest_eq, stepRules, stepRules,
              fileRules_eq_of_stores stores unlike (like path List.mem_cons_self) own_read]

/-- A directory can still be listed when a file has been written that is no source, and the walk
takes the same steps in it. -/
theorem exists_list_of_stores (stores : tree.Stores parent name bytes after)
    (unlike : endsIn endings name = false) (listed : tree.list path = .ok entries) :
    ∃ later, after.list path = .ok later ∧ (Entry.directory later).IsLinkFree ∧
      ∀ start, steps endings tree start later = steps endings tree start entries := by
  rcases FileTree.list_eq_ok_iff.mp listed with ⟨place, resolved, present⟩
  have later_resolved := stores.resolve_eq resolved
  rw [FileTree.Location.behind_found] at later_resolved
  rcases exists_at?_put stores.isDirectory stores.notDirectory unlike bytes present with
    ⟨later, later_present, steps_eq⟩
  rw [← stores.root_eq] at later_present
  exact ⟨later, FileTree.list_eq_ok_iff.mpr ⟨place, later_resolved, later_present⟩,
    stores.linkFree_after.at? later_present, steps_eq⟩

/-- A scan that succeeds is the same when a file has been written that is no source. -/
theorem scan_eq_of_stores {rules : List Rule} (stores : tree.Stores parent name bytes after)
    (unlike : endsIn usualEndings name = false)
    (scanned : (scan usualEndings tree path).outcome = .ok rules) :
    scan usualEndings after path = scan usualEndings tree path := by
  cases listed : tree.list path with
  | error fault =>
      rw [scan, listed] at scanned
      cases scanned
  | ok entries =>
      rcases FileTree.list_eq_ok_iff.mp listed with ⟨place, resolved, present⟩
      have linkFree : (Entry.directory entries).IsLinkFree := stores.linkFree.at? present
      have like : ∀ file, .file file ∈ steps usualEndings tree path entries →
          endsIn usualEndings file = true :=
        fun file isMember => endsIn_of_mem_inside linkFree isMember
      have read : ∃ found, (stepsRules tree (steps usualEndings tree path entries)).outcome =
          .ok found := by
        rw [scan, listed] at scanned
        simp only [Logged.outcome_bind, Logged.outcome_of, Except.bind_eq_ok_iff] at scanned
        rcases scanned with ⟨_, ⟨_⟩, found, read, _⟩
        exact ⟨found, read⟩
      rcases read with ⟨found, read⟩
      rcases stepsRules_eq_of_stores stores unlike like read with ⟨areListed, rules_eq⟩
      rcases exists_list_of_stores stores unlike listed with
        ⟨later, later_listed, later_linkFree, steps_eq⟩
      have keeps : ∀ path, tree.CanList path → after.CanList path := by
        rintro path ⟨listed, list_eq⟩
        rcases exists_list_of_stores stores unlike list_eq with ⟨later, later_eq, _⟩
        exact ⟨later, later_eq⟩
      have walked : steps usualEndings after path later =
          steps usualEndings tree path entries := by
        rw [← steps_eq path] at areListed ⊢
        exact inside_eq_of_isLinkFree later_linkFree keeps areListed
      rw [scan, scan, later_listed, listed]
      simp only [Except.mapError, Logged.of_ok_bind, walked, rules_eq]

end Stores

end Source

end RbacManifest
