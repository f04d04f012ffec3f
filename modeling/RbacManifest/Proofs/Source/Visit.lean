import Mathlib.Data.String.Basic
import RbacManifest.Proofs.FileTree.LongPath
import RbacManifest.Proofs.FileTree.Reordered
import RbacManifest.Proofs.Source.Fault

/-!
# What a scan visits

Which files a scan reads, and in which order, is stated here about the tree alone. A visit is a way
down from the scanned directory: the names of the directories on it, and the name of the file at its
end. A way without a file ends at a directory that cannot be listed. `IsVisited` says which ways a
scan takes and `Visit.ComesBefore` which one it takes first. There is one list of these ways in this
order, `exists_areVisits` and `AreVisits.eq`, so it does not matter in which order directories list
their entries: `Source.scan_visits`.
-/

namespace RbacManifest

/-! ## Paths of places -/

namespace Path

theorem IsName.isAbsolute_eq_false {name : String} (isName : IsName name) :
    isAbsolute name = false := by
  rw [isAbsolute, decide_eq_false_iff_not]
  intro atStart
  exact isName.2 (List.mem_of_head? atStart)

theorem IsName.names_eq {name : String} (isName : IsName name) : names name = [name] := by
  have nonempty : name.toList ≠ [] := by simpa using isName.1
  rw [names, Text.pieces_of_not_mem isName.2]
  simp [nonempty]

/-- The path of a place goes through all of its names. -/
theorem names_foldl_join {place : Place} (areNames : ∀ name ∈ place, IsName name)
    (start : String) : names (place.foldl join start) = names start ++ place := by
  induction place generalizing start with
  | nil => simp
  | cons name rest ih =>
      rw [List.forall_mem_cons] at areNames
      rw [List.foldl_cons, ih areNames.2, names_join areNames.1.isAbsolute_eq_false,
        areNames.1.names_eq, List.append_assoc, List.singleton_append]

end Path

namespace Source

/-- A way from a directory down to a file, or down to a directory that cannot be listed. -/
structure Visit where
  directories : Place
  /-- The name of the file, if the way leads to one. -/
  file? : Option String
  deriving DecidableEq

namespace Visit

def place (visit : Visit) : Place :=
  visit.directories ++ visit.file?.toList

/-- The path at the end of a way, when the path of the directory where it starts is known. -/
def path (start : String) (visit : Visit) : String :=
  visit.place.foldl Path.join start

/-- The step that a walk takes at the end of a way. -/
def step (tree : FileTree) (start : String) (visit : Visit) : Step :=
  match visit.file? with
  | some _ => .file (visit.path start)
  | none =>
      match tree.list (visit.path start) with
      | .error fault => .unlisted (visit.path start) fault
      | .ok _ => .file (visit.path start)

/-- The way that starts one directory further up. -/
def under (directory : String) (visit : Visit) : Visit :=
  ⟨directory :: visit.directories, visit.file?⟩

/-- Whether one way is taken before another one. The files of a directory come in the order of
their names before anything below it, and its subdirectories follow in the order of theirs. -/
inductive ComesBefore : Visit → Visit → Prop
  | name {first second : String} (less : first < second) :
      ComesBefore ⟨[], some first⟩ ⟨[], some second⟩
  | deeper (own directory : String) (directories : Place) (file? : Option String) :
      ComesBefore ⟨[], some own⟩ ⟨directory :: directories, file?⟩
  | directory {first second : String} (less : first < second) (directories others : Place)
      (file? other? : Option String) :
      ComesBefore ⟨first :: directories, file?⟩ ⟨second :: others, other?⟩
  | inside (directory : String) {directories others : Place} {file? other? : Option String}
      (comesBefore : ComesBefore ⟨directories, file?⟩ ⟨others, other?⟩) :
      ComesBefore ⟨directory :: directories, file?⟩ ⟨directory :: others, other?⟩

theorem ComesBefore.under {first second : Visit} (comesBefore : first.ComesBefore second)
    (directory : String) : (first.under directory).ComesBefore (second.under directory) :=
  .inside directory comesBefore

theorem ComesBefore.asymm {first second : Visit} (comesBefore : first.ComesBefore second) :
    ¬second.ComesBefore first := by
  intro comesAfter
  induction comesBefore with
  | name less =>
      cases comesAfter with
      | name greater => exact lt_asymm less greater
  | deeper own directory directories file? => cases comesAfter
  | directory less directories others file? other? =>
      cases comesAfter with
      | directory greater => exact lt_asymm less greater
      | inside => exact lt_irrefl _ less
  | inside directory _ ih =>
      cases comesAfter with
      | directory less => exact lt_irrefl _ less
      | inside _ comesAfter => exact ih comesAfter

instance : Std.Asymm ComesBefore :=
  ⟨fun _ _ comesBefore => comesBefore.asymm⟩

theorem step_here {tree : FileTree} {start : String} {fault : PathFault}
    (failed : tree.list start = .error fault) :
    step tree start ⟨[], none⟩ = .unlisted start fault := by
  simp [step, path, place, failed]

theorem under_eq_under_iff {directory other : String} {visit visited : Visit} :
    visit.under directory = visited.under other ↔ directory = other ∧ visit = visited := by
  cases visit
  cases visited
  simp [under, and_assoc]

/-- Ways to the same place are the same if both lead to files, or neither does. -/
theorem eq_of_place_eq {visit other : Visit} (alike : visit.file?.isSome = other.file?.isSome)
    (same : visit.place = other.place) : visit = other := by
  rcases visit with ⟨directories, file?⟩
  rcases other with ⟨others, other?⟩
  cases file? with
  | none =>
      cases other? with
      | none => simpa [place] using same
      | some other => cases alike
  | some name =>
      cases other? with
      | none => cases alike
      | some other =>
          rcases List.append_inj' same rfl with ⟨directories_eq, name_eq⟩
          cases directories_eq
          cases name_eq
          rfl

/-- The names of a path end with the whole place, so the place can be read off the path. -/
theorem place_eq_of_path_eq {start : String} {visit other : Visit}
    (areNames : ∀ name ∈ visit.place, Path.IsName name)
    (otherNames : ∀ name ∈ other.place, Path.IsName name)
    (same : visit.path start = other.path start) : visit.place = other.place := by
  have names_eq : Path.names start ++ visit.place = Path.names start ++ other.place := by
    rw [← Path.names_foldl_join areNames, ← Path.names_foldl_join otherNames]
    exact congrArg Path.names same
  exact List.append_cancel_left names_eq

end Visit

/-- Whether a walk through an entry comes to a directory: through directories that are not hidden
and can be listed, and never through links. -/
structure IsEntered (tree : FileTree) (path : String) (entry : Entry) (directories : Place) :
    Prop where
  shown : ∀ directory ∈ directories, directory.toList.head? ≠ some '.'
  isDirectory : entry.shape? directories = some .directory
  listed : ∀ before behind, directories = before ++ behind → behind ≠ [] →
    tree.CanList (before.foldl Path.join path)

/-- Whether a scan of an entry takes a way. It leads to what is neither a directory nor a link to
one and has a name that ends in one of several ways, or to a directory that cannot be listed. -/
inductive IsVisited (endings : List String) (tree : FileTree) (path : String) (entry : Entry) :
    Visit → Prop
  | file {directories : Place} {name : String} (entered : IsEntered tree path entry directories)
      (listed : tree.CanList (directories.foldl Path.join path))
      (isFile : (∃ bytes, entry.shape? (directories ++ [name]) = some (.file bytes)) ∨
        ∃ target, entry.shape? (directories ++ [name]) = some (.link target) ∧
          tree.hasDirectory ((directories ++ [name]).foldl Path.join path) = false)
      (ending : ∃ ending ∈ endings, ending.toList <:+ name.toList) :
      IsVisited endings tree path entry ⟨directories, some name⟩
  | unlisted {directories : Place} (entered : IsEntered tree path entry directories)
      (unlisted : ¬tree.CanList (directories.foldl Path.join path)) :
      IsVisited endings tree path entry ⟨directories, none⟩

/-- Whether a list has the ways that a scan of an entry takes, in their order. -/
structure AreVisits (endings : List String) (tree : FileTree) (path : String) (entry : Entry)
    (visits : List Visit) : Prop where
  ordered : visits.Pairwise Visit.ComesBefore
  mem_iff : ∀ visit, visit ∈ visits ↔ IsVisited endings tree path entry visit

variable {endings : List String} {tree other : FileTree} {path name directory : String}
  {entry inner otherEntry : Entry} {entries : List (String × Entry)} {visit : Visit}
  {visits others : List Visit} {directories : Place}

/-! ## One step down -/

theorem isEntered_nil_iff : IsEntered tree path entry [] ↔ entry.shape = .directory := by
  constructor
  · intro entered
    simpa [Entry.shape?_nil] using entered.isDirectory
  · intro isDirectory
    refine ⟨by simp, by simp [Entry.shape?_nil, isDirectory], ?_⟩
    intro before behind split nonempty
    exact absurd (List.append_eq_nil_iff.mp split.symm).2 nonempty

theorem isEntered_cons_iff :
    IsEntered tree path entry (directory :: directories) ↔
      tree.CanList path ∧ directory.toList.head? ≠ some '.' ∧
        ∃ inner, entry.entries.lookup directory = some inner ∧
          IsEntered tree (Path.join path directory) inner directories := by
  have shape?_eq : entry.shape? (directory :: directories) =
      (entry.entries.lookup directory).bind (Entry.shape? directories) := Entry.shape?_cons
  constructor
  · rintro ⟨shown, isDirectory, listed⟩
    rcases List.forall_mem_cons.mp shown with ⟨own_shown, shown⟩
    rw [shape?_eq, Option.bind_eq_some_iff] at isDirectory
    rcases isDirectory with ⟨inner, found, isDirectory⟩
    refine ⟨listed [] _ rfl (by simp), own_shown, inner, found, shown, isDirectory, ?_⟩
    rintro before behind rfl nonempty
    exact listed (directory :: before) behind rfl nonempty
  · rintro ⟨here, own_shown, inner, found, shown, isDirectory, listed⟩
    refine ⟨List.forall_mem_cons.mpr ⟨own_shown, shown⟩, ?_, ?_⟩
    · rw [shape?_eq, found, Option.bind_some, isDirectory]
    · intro before behind split nonempty
      cases before with
      | nil => exact here
      | cons first before =>
          rcases List.cons_eq_cons.mp split with ⟨rfl, rest_eq⟩
          exact listed before behind rest_eq nonempty

theorem IsVisited.isEntered (visited : IsVisited endings tree path entry visit) :
    IsEntered tree path entry visit.directories := by
  cases visited with
  | file entered _ _ _ => exact entered
  | unlisted entered _ => exact entered

/-- A way leads to a file exactly if it does not lead to a directory. -/
theorem IsVisited.exists_shape (visited : IsVisited endings tree path entry visit) :
    ∃ shape, entry.shape? visit.place = some shape ∧
      (visit.file?.isSome = true ↔ shape ≠ .directory) := by
  cases visited with
  | file _ _ isFile _ =>
      rcases isFile with ⟨bytes, found⟩ | ⟨target, found, _⟩
      · exact ⟨_, found, by simp⟩
      · exact ⟨_, found, by simp⟩
  | @unlisted directories entered _ =>
      refine ⟨.directory, ?_, by simp⟩
      simpa [Visit.place] using entered.isDirectory

theorem IsVisited.shape_eq (visited : IsVisited endings tree path entry visit) :
    entry.shape = .directory := by
  have atStart := FileTree.shape?_root visited.isEntered.isDirectory
  rwa [Entry.shape?_nil, Option.some.injEq] at atStart

theorem isSource_iff :
    isSource endings tree path name inner = true ↔
      ((∃ bytes, inner.shape = .file bytes) ∨
        ∃ target, inner.shape = .link target ∧
          tree.hasDirectory (Path.join path name) = false) ∧
      ∃ ending ∈ endings, ending.toList <:+ name.toList := by
  rw [← endsIn_iff]
  cases inner with
  | file bytes => simp [isSource, Entry.shape]
  | link target => simp [isSource, Entry.shape, and_comm]
  | directory entries => simp [isSource, Entry.shape]

theorem isVisited_own_iff :
    IsVisited endings tree path entry ⟨[], some name⟩ ↔
      tree.CanList path ∧ ∃ inner, entry.entries.lookup name = some inner ∧
        isSource endings tree path name inner = true := by
  have shape?_eq : entry.shape? [name] = (entry.entries.lookup name).map Entry.shape := by
    rw [Entry.shape?_cons]
    cases entry.entries.lookup name <;> rfl
  simp only [isSource_iff]
  constructor
  · rintro (⟨entered, listed, isFile, ending⟩ | _)
    simp only [List.nil_append, shape?_eq] at isFile
    cases found : entry.entries.lookup name with
    | none => simp [found] at isFile
    | some inner =>
        simp only [found, Option.map_some, Option.some.injEq] at isFile
        exact ⟨listed, inner, rfl, isFile, ending⟩
  · rintro ⟨listed, inner, found, isFile, ending⟩
    have isDirectory : entry.shape = .directory := by
      rw [Entry.eq_directory_of_lookup found]
      rfl
    refine .file (isEntered_nil_iff.mpr isDirectory) listed ?_ ending
    simp only [List.nil_append, shape?_eq, found, Option.map_some, Option.some.injEq]
    exact isFile

theorem isVisited_here_iff :
    IsVisited endings tree path entry ⟨[], none⟩ ↔
      entry.shape = .directory ∧ ¬tree.CanList path := by
  constructor
  · rintro (_ | ⟨entered, unlisted⟩)
    exact ⟨isEntered_nil_iff.mp entered, unlisted⟩
  · rintro ⟨isDirectory, unlisted⟩
    exact .unlisted (isEntered_nil_iff.mpr isDirectory) unlisted

theorem isVisited_under_iff :
    IsVisited endings tree path entry (visit.under directory) ↔
      tree.CanList path ∧ directory.toList.head? ≠ some '.' ∧
        ∃ inner, entry.entries.lookup directory = some inner ∧
          IsVisited endings tree (Path.join path directory) inner visit := by
  have shape?_eq (place : Place) : entry.shape? (directory :: place) =
      (entry.entries.lookup directory).bind (Entry.shape? place) := Entry.shape?_cons
  rcases visit with ⟨directories, file?⟩
  constructor
  · intro visited
    rcases isEntered_cons_iff.mp visited.isEntered with ⟨here, shown, inner, found, entered⟩
    refine ⟨here, shown, inner, found, ?_⟩
    cases visited with
    | file _ listed isFile ending =>
        simp only [List.cons_append, shape?_eq, found, Option.bind_some] at isFile
        exact .file entered listed isFile ending
    | unlisted _ unlisted => exact .unlisted entered unlisted
  · rintro ⟨here, shown, inner, found, visited⟩
    have entered : IsEntered tree path entry (directory :: directories) :=
      isEntered_cons_iff.mpr ⟨here, shown, inner, found, visited.isEntered⟩
    cases visited with
    | file _ listed isFile ending =>
        refine .file entered listed ?_ ending
        simp only [List.cons_append, shape?_eq, found, Option.bind_some]
        exact isFile
    | unlisted _ unlisted => exact .unlisted entered unlisted

theorem areVisits_nil (leaf : entry.shape ≠ .directory) :
    AreVisits endings tree path entry [] := by
  refine ⟨List.Pairwise.nil, ?_⟩
  intro visit
  apply iff_of_false List.not_mem_nil
  intro visited
  exact leaf visited.shape_eq

/-! ## The whole walk -/

/-- The subdirectories that a scan enters, in their order. -/
def subdirectories (entries : List (String × Entry)) : List (String × Entry) :=
  Ordered.ofKeyed (entries.filter fun (name, entry) =>
    entry.isDirectory && name.toList.head? ≠ some '.')

theorem mem_subdirectories_iff :
    (name, entry) ∈ subdirectories entries ↔
      (name, entry) ∈ entries ∧ entry.shape = .directory ∧ name.toList.head? ≠ some '.' := by
  cases entry <;> simp [subdirectories, Entry.isDirectory, Entry.shape]

theorem increasing_subdirectories (distinct : (entries.map (·.1)).Nodup) :
    (subdirectories entries).Pairwise fun first second => first.1 < second.1 := by
  apply Ordered.increasing_ofKeyed
  exact distinct.sublist (List.filter_sublist.map _)

theorem inside_eq (listed : tree.CanList path) :
    inside endings tree path (.directory entries) =
      (Ordered.ofList (ownNames endings tree path entries)).map
          (fun name => .file (Path.join path name)) ++
        (subdirectories entries).flatMap fun member =>
          inside endings tree (Path.join path member.1) member.2 := by
  have below_eq : below endings tree path entries =
      (entries.filter fun (name, entry) =>
        entry.isDirectory && name.toList.head? ≠ some '.').map fun member =>
          (member.1, inside endings tree (Path.join path member.1) member.2) := by
    induction entries with
    | nil => rfl
    | cons first rest ih =>
        rcases first with ⟨name, inner⟩
        rw [below_cons, entered, ih, List.filter_cons]
        split <;> rfl
  rcases listed with ⟨listed, list_eq⟩
  rw [inside_of_listed list_eq, below_eq,
    Ordered.ofKeyed_map fun member => inside endings tree (Path.join path member.1) member.2,
    List.flatMap_map]
  rfl

/-- The ways down from a directory that can be listed, when those from its subdirectories are
known. -/
def waysDown (endings : List String) (tree : FileTree) (path : String)
    (entries : List (String × Entry)) (inner : String × Entry → List Visit) : List Visit :=
  (Ordered.ofList (ownNames endings tree path entries)).map (fun name => ⟨[], some name⟩) ++
    (subdirectories entries).flatMap fun member => (inner member).map (Visit.under member.1)

theorem ordered_waysDown {inner : String × Entry → List Visit}
    (distinct : (entries.map (·.1)).Nodup)
    (ordered : ∀ member ∈ entries, (inner member).Pairwise Visit.ComesBefore) :
    (waysDown endings tree path entries inner).Pairwise Visit.ComesBefore := by
  apply List.pairwise_append.mpr
  refine ⟨?_, ?_, ?_⟩
  · apply List.pairwise_map.mpr
    exact (Ordered.increasing_ofList _).imp fun less => .name less
  · apply List.pairwise_flatMap.mpr
    constructor
    · intro member isMember
      apply List.pairwise_map.mpr
      have isEntry : member ∈ entries := (mem_subdirectories_iff.mp isMember).1
      exact (ordered member isEntry).imp fun comesBefore => comesBefore.under member.1
    · apply (increasing_subdirectories distinct).imp
      intro first second less visit isFirst other isSecond
      rcases List.mem_map.mp isFirst with ⟨visit, _, rfl⟩
      rcases List.mem_map.mp isSecond with ⟨other, _, rfl⟩
      exact .directory less _ _ _ _
  · intro visit isOwn other isBelow
    rcases List.mem_map.mp isOwn with ⟨name, _, rfl⟩
    rcases List.mem_flatMap.mp isBelow with ⟨member, _, isBelow⟩
    rcases List.mem_map.mp isBelow with ⟨other, _, rfl⟩
    exact .deeper name member.1 other.directories other.file?

theorem own_mem_waysDown_iff {inner : String × Entry → List Visit}
    (distinct : (entries.map (·.1)).Nodup) (listed : tree.CanList path) :
    ⟨[], some name⟩ ∈ waysDown endings tree path entries inner ↔
      IsVisited endings tree path (.directory entries) ⟨[], some name⟩ := by
  have notBelow : ⟨[], some name⟩ ∉ (subdirectories entries).flatMap fun member =>
      (inner member).map (Visit.under member.1) := by
    intro isBelow
    rcases List.mem_flatMap.mp isBelow with ⟨member, _, isBelow⟩
    rcases List.mem_map.mp isBelow with ⟨other, _, same⟩
    cases same
  rw [waysDown, List.mem_append, or_iff_left notBelow, isVisited_own_iff, and_iff_right listed]
  simp only [List.mem_map, Ordered.mem_ofList, ownNames, Visit.mk.injEq, true_and,
    Option.some.injEq, exists_eq_right, List.mem_filter, Prod.exists, exists_and_right,
    Entry.entries_directory, Entry.lookup_eq_some_iff distinct]

theorem here_mem_waysDown_iff {inner : String × Entry → List Visit} (listed : tree.CanList path) :
    ⟨[], none⟩ ∈ waysDown endings tree path entries inner ↔
      IsVisited endings tree path (.directory entries) ⟨[], none⟩ := by
  rw [isVisited_here_iff]
  apply iff_of_false
  · rw [waysDown, List.mem_append]
    rintro (isOwn | isBelow)
    · rcases List.mem_map.mp isOwn with ⟨name, _, same⟩
      cases same
    · rcases List.mem_flatMap.mp isBelow with ⟨member, _, isBelow⟩
      rcases List.mem_map.mp isBelow with ⟨other, _, same⟩
      cases same
  · exact fun unlisted => unlisted.2 listed

theorem under_mem_waysDown_iff {inner : String × Entry → List Visit}
    (distinct : (entries.map (·.1)).Nodup) (listed : tree.CanList path)
    (mem_iff : ∀ member ∈ entries, ∀ visit, visit ∈ inner member ↔
      IsVisited endings tree (Path.join path member.1) member.2 visit) :
    visit.under directory ∈ waysDown endings tree path entries inner ↔
      IsVisited endings tree path (.directory entries) (visit.under directory) := by
  have notOwn : visit.under directory ∉
      (Ordered.ofList (ownNames endings tree path entries)).map
        (fun name => (⟨[], some name⟩ : Visit)) := by
    intro isOwn
    rcases List.mem_map.mp isOwn with ⟨name, _, same⟩
    cases same
  rw [waysDown, List.mem_append, or_iff_right notOwn, isVisited_under_iff, and_iff_right listed,
    List.mem_flatMap]
  simp only [Entry.entries_directory, Entry.lookup_eq_some_iff distinct]
  constructor
  · rintro ⟨⟨name, entry⟩, isMember, isBelow⟩
    rcases List.mem_map.mp isBelow with ⟨other, isInner, same⟩
    rcases Visit.under_eq_under_iff.mp same with ⟨rfl, rfl⟩
    rcases mem_subdirectories_iff.mp isMember with ⟨isEntry, _, shown⟩
    exact ⟨shown, entry, isEntry, (mem_iff _ isEntry other).mp isInner⟩
  · rintro ⟨shown, entry, isEntry, visited⟩
    refine ⟨(directory, entry), mem_subdirectories_iff.mpr ⟨isEntry, ?_, shown⟩, ?_⟩
    · exact visited.shape_eq
    · exact List.mem_map_of_mem ((mem_iff _ isEntry visit).mpr visited)

theorem map_step_waysDown {inner : String × Entry → List Visit} (listed : tree.CanList path)
    (inside_eq : ∀ member ∈ entries, inside endings tree (Path.join path member.1) member.2 =
      (inner member).map (Visit.step tree (Path.join path member.1))) :
    (waysDown endings tree path entries inner).map (Visit.step tree path) =
      inside endings tree path (.directory entries) := by
  rw [waysDown, List.map_append, List.map_map, List.map_flatMap, Source.inside_eq listed]
  apply congrArg₂
  · rfl
  · apply List.flatMap_congr
    intro member isMember
    rw [inside_eq member (mem_subdirectories_iff.mp isMember).1, List.map_map]
    rfl

theorem areVisits_here (isDirectory : entry.shape = .directory) (unlisted : ¬tree.CanList path) :
    AreVisits endings tree path entry [⟨[], none⟩] := by
  refine ⟨List.pairwise_singleton _ _, ?_⟩
  rintro ⟨directories, file?⟩
  rw [List.mem_singleton]
  cases directories with
  | nil =>
      cases file? with
      | none => exact iff_of_true rfl (isVisited_here_iff.mpr ⟨isDirectory, unlisted⟩)
      | some name =>
          rw [isVisited_own_iff]
          exact iff_of_false (by simp) fun visited => unlisted visited.1
  | cons directory rest =>
      have notVisited :
          ¬IsVisited endings tree path entry (Visit.under directory ⟨rest, file?⟩) := by
        rw [isVisited_under_iff]
        exact fun visited => unlisted visited.1
      exact iff_of_false (by simp) notVisited

/-- The walk over a tree takes its ways down in their order. -/
theorem exists_areVisits (wellNamed : entry.IsWellNamed) (endings : List String)
    (tree : FileTree) (path : String) :
    ∃ visits, AreVisits endings tree path entry visits ∧
      inside endings tree path entry = visits.map (Visit.step tree path) := by
  induction wellNamed generalizing path with
  | file bytes => exact ⟨[], areVisits_nil (by simp [Entry.shape]), by simp [inside]⟩
  | link target => exact ⟨[], areVisits_nil (by simp [Entry.shape]), by simp [inside]⟩
  | @directory entries distinct names _ ih =>
      by_cases listed : tree.CanList path
      · have exists_inner : ∀ member ∈ entries, ∃ visits,
            AreVisits endings tree (Path.join path member.1) member.2 visits ∧
              inside endings tree (Path.join path member.1) member.2 =
                visits.map (Visit.step tree (Path.join path member.1)) := by
          intro member isMember
          exact ih member isMember (Path.join path member.1)
        -- The ways from the subdirectories are known; it remains to put them one behind another.
        choose! inner areInner using exists_inner
        refine ⟨waysDown endings tree path entries inner, ⟨?_, ?_⟩, ?_⟩
        · apply ordered_waysDown distinct
          intro member isMember
          exact (areInner member isMember).1.ordered
        · rintro ⟨directories, file?⟩
          cases directories with
          | nil =>
              cases file? with
              | none => exact here_mem_waysDown_iff listed
              | some name => exact own_mem_waysDown_iff distinct listed
          | cons directory rest =>
              change Visit.under directory ⟨rest, file?⟩ ∈ _ ↔
                IsVisited _ _ _ _ (Visit.under directory ⟨rest, file?⟩)
              apply under_mem_waysDown_iff distinct listed
              intro member isMember
              exact (areInner member isMember).1.mem_iff
        · symm
          apply map_step_waysDown listed
          intro member isMember
          exact (areInner member isMember).2
      · rcases FileTree.not_canList_iff.mp listed with ⟨fault, failed⟩
        refine ⟨[⟨[], none⟩], areVisits_here rfl listed, ?_⟩
        rw [inside_of_unlisted failed, List.map_singleton, Visit.step_here failed]

/-! ## Every order of entries -/

theorem canList_iff_of_hasSame (same : tree.HasSame other) (path : String) :
    other.CanList path ↔ tree.CanList path := by
  rcases same.list_cases path with ⟨fault, failed, otherFailed⟩ |
    ⟨entries, others, listed, otherListed, _⟩
  · apply iff_of_false
    · exact FileTree.not_canList_iff.mpr ⟨fault, otherFailed⟩
    · exact FileTree.not_canList_iff.mpr ⟨fault, failed⟩
  · exact iff_of_true ⟨others, otherListed⟩ ⟨entries, listed⟩

theorem Visit.step_eq_of_hasSame (same : tree.HasSame other) :
    visit.step other path = visit.step tree path := by
  rw [step, step]
  rcases same.list_cases (visit.path path) with ⟨fault, failed, otherFailed⟩ |
    ⟨entries, others, listed, otherListed, _⟩
  · rw [failed, otherFailed]
  · rw [listed, otherListed]

theorem IsEntered.of_hasSame (same : tree.HasSame other) (sameEntry : entry.HasSame otherEntry)
    (entered : IsEntered tree path entry directories) :
    IsEntered other path otherEntry directories where
  shown := entered.shown
  isDirectory := (sameEntry directories).trans entered.isDirectory
  listed before behind split nonempty :=
    (canList_iff_of_hasSame same _).mpr (entered.listed before behind split nonempty)

theorem IsVisited.of_hasSame (same : tree.HasSame other) (sameEntry : entry.HasSame otherEntry)
    (visited : IsVisited endings tree path entry visit) :
    IsVisited endings other path otherEntry visit := by
  cases visited with
  | file entered listed isFile ending =>
      refine .file (entered.of_hasSame same sameEntry) ((canList_iff_of_hasSame same _).mpr listed)
        ?_ ending
      rwa [sameEntry, same.hasDirectory_eq]
  | unlisted entered unlisted =>
      refine .unlisted (entered.of_hasSame same sameEntry) ?_
      rwa [canList_iff_of_hasSame same]

theorem AreVisits.eq (areVisits : AreVisits endings tree path entry visits)
    (areOthers : AreVisits endings tree path entry others) : visits = others := by
  apply areVisits.ordered.eq_of_mem_iff areOthers.ordered
  intro visit
  rw [areVisits.mem_iff, areOthers.mem_iff]

theorem AreVisits.of_hasSame (same : tree.HasSame other) (sameEntry : entry.HasSame otherEntry)
    (areVisits : AreVisits endings tree path entry visits) :
    AreVisits endings other path otherEntry visits where
  ordered := areVisits.ordered
  mem_iff visit := by
    rw [areVisits.mem_iff]
    constructor
    · exact IsVisited.of_hasSame same sameEntry
    · exact IsVisited.of_hasSame same.symm fun place => (sameEntry place).symm

theorem AreVisits.nodup_paths (areVisits : AreVisits endings tree path entry visits)
    (wellNamed : entry.IsWellNamed) : (visits.map (Visit.path path)).Nodup := by
  apply areVisits.ordered.nodup.map_on
  intro visit isVisit other isOther same
  rcases ((areVisits.mem_iff visit).mp isVisit).exists_shape with ⟨shape, found, isFile_iff⟩
  rcases ((areVisits.mem_iff other).mp isOther).exists_shape with
    ⟨otherShape, otherFound, other_iff⟩
  have areNames : ∀ name ∈ visit.place, Path.IsName name :=
    wellNamed.isName_of_mem (by simp [found])
  have otherNames : ∀ name ∈ other.place, Path.IsName name :=
    wellNamed.isName_of_mem (by simp [otherFound])
  have place_eq := Visit.place_eq_of_path_eq areNames otherNames same
  rw [place_eq, otherFound, Option.some.injEq] at found
  refine Visit.eq_of_place_eq ?_ place_eq
  rw [Bool.eq_iff_iff, isFile_iff, other_iff, found]

theorem inside_eq_of_hasSame (wellNamed : entry.IsWellNamed) (otherNamed : otherEntry.IsWellNamed)
    (same : tree.HasSame other) (sameEntry : entry.HasSame otherEntry) :
    inside endings other path otherEntry = inside endings tree path entry := by
  rcases exists_areVisits wellNamed endings tree path with ⟨visits, areVisits, inside_eq⟩
  rcases exists_areVisits otherNamed endings other path with ⟨others, areOthers, other_eq⟩
  rw [inside_eq, other_eq, areOthers.eq (areVisits.of_hasSame same sameEntry)]
  exact List.map_congr_left fun visit _ => Visit.step_eq_of_hasSame same

theorem fileRules_eq_of_hasSame (same : tree.HasSame other) (file : String) :
    fileRules other file = fileRules tree file := by
  rw [fileRules, fileRules, text, text, same.readFile_eq]

theorem stepsRules_eq_of_hasSame (same : tree.HasSame other) (steps : List Step) :
    stepsRules other steps = stepsRules tree steps := by
  induction steps with
  | nil => rfl
  | cons step rest ih =>
      cases step with
      | file path =>
          rw [stepsRules, stepsRules, ih, stepRules, stepRules, fileRules_eq_of_hasSame same]
      | unlisted path fault => rw [stepsRules, stepsRules, ih, stepRules, stepRules]

/-- Directories that list their entries in other orders are scanned alike. -/
theorem scan_eq_of_isReordered (wellNamed : tree.root.IsWellNamed)
    (reordered : tree.IsReordered other) :
    (∀ entries, tree.list path = .ok entries →
      ∃ others, other.list path = .ok others ∧
        steps endings other path others = steps endings tree path entries) ∧
      scan endings other path = scan endings tree path := by
  have same : tree.HasSame other := reordered.hasSame wellNamed
  rcases same.list_cases path with ⟨fault, failed, otherFailed⟩ |
    ⟨entries, others, listed, otherListed, sameEntries⟩
  · constructor
    · intro entries listed
      cases failed.symm.trans listed
    · rw [scan, scan, failed, otherFailed]
      rfl
  · have steps_eq : steps endings other path others = steps endings tree path entries := by
      rcases FileTree.list_eq_ok_iff.mp listed with ⟨place, _, present⟩
      rcases FileTree.list_eq_ok_iff.mp otherListed with ⟨otherPlace, _, otherPresent⟩
      have otherNamed : other.root.IsWellNamed := reordered.root.isWellNamed wellNamed
      exact inside_eq_of_hasSame (wellNamed.at? present) (otherNamed.at? otherPresent) same
        sameEntries
    constructor
    · intro entries' listed'
      cases listed.symm.trans listed'
      exact ⟨others, otherListed, steps_eq⟩
    · rw [scan, scan, listed, otherListed]
      simp only [Except.mapError, Logged.of_ok_bind, steps_eq, stepsRules_eq_of_hasSame same]

/-- A scan takes the ways down, each once and in their order, up to the first one that fails: it
reads the files at their ends, and fails at a directory that cannot be listed. It does so in this
order however the directories list their entries. -/
theorem scan_visits (wellNamed : tree.root.IsWellNamed) (asked : List String) (path : String) :
    (∀ entries, tree.list path = .ok entries →
      ∃ visits, AreVisits (chosenEndings asked) tree path (.directory entries) visits ∧
        (visits.map (Visit.path path)).Nodup ∧
        steps (chosenEndings asked) tree path entries = visits.map (Visit.step tree path) ∧
        (scan (chosenEndings asked) tree path).outcome =
          ((visits.map (Visit.step tree path)).mapM fun step =>
            (stepRules tree step).outcome).map List.flatten) ∧
      ∀ other, tree.IsReordered other →
        (∀ entries, tree.list path = .ok entries →
          ∃ others, other.list path = .ok others ∧
            steps (chosenEndings asked) other path others =
              steps (chosenEndings asked) tree path entries) ∧
          scan (chosenEndings asked) other path = scan (chosenEndings asked) tree path := by
  constructor
  · intro entries listed
    rcases FileTree.list_eq_ok_iff.mp listed with ⟨place, _, present⟩
    have entriesNamed : (Entry.directory entries).IsWellNamed := wellNamed.at? present
    rcases exists_areVisits entriesNamed (chosenEndings asked) tree path with
      ⟨visits, areVisits, inside_eq⟩
    have steps_eq : steps (chosenEndings asked) tree path entries =
        visits.map (Visit.step tree path) := inside_eq
    refine ⟨visits, areVisits, areVisits.nodup_paths entriesNamed, steps_eq, ?_⟩
    rw [outcome_scan listed, outcome_stepsRules_eq, steps_eq]
  · intro other reordered
    exact scan_eq_of_isReordered wellNamed reordered

/-- A directory with hidden entries, a subdirectory that is named like a source, and links that
lead to a file, to a directory, to themselves and to nothing. -/
def knottedEntries : List (String × Entry) := [
  ("z.go", .file []),
  (".git", .directory [("hook.py", .file [])]),
  ("up.go", .link ".."),
  ("sub.go", .directory [("notes.txt", .file []), ("b.go", .file [])]),
  (".hidden.go", .file []),
  ("loop.go", .link "loop.go"),
  ("gone.py", .link "nowhere"),
  ("a.py", .link "z.go"),
  ("deep", .directory [("x.py", .file [])])]

def knottedTree (entries : List (String × Entry)) : FileTree :=
  ⟨.directory [("pkg", .directory entries)], []⟩

theorem scan_visits_knottedTree :
    (knottedTree knottedEntries).root.IsWellNamed ∧
      (knottedTree knottedEntries).IsReordered (knottedTree knottedEntries.reverse) ∧
      (∃ visits, AreVisits (chosenEndings []) (knottedTree knottedEntries) "pkg"
          (.directory knottedEntries) visits ∧
        visits.map (Visit.step (knottedTree knottedEntries) "pkg") =
          ["pkg/.hidden.go", "pkg/a.py", "pkg/gone.py", "pkg/loop.go", "pkg/z.go", "pkg/deep/x.py",
            "pkg/sub.go/b.go"].map .file) ∧
      scan (chosenEndings []) (knottedTree knottedEntries.reverse) "pkg" =
        scan (chosenEndings []) (knottedTree knottedEntries) "pkg" := by
  have entriesNamed : (Entry.directory knottedEntries).IsWellNamed := by
    apply Entry.IsWellNamed.directory (by decide) (by decide)
    simp only [knottedEntries, List.forall_mem_cons]
    refine ⟨.file _, .directory (by decide) (by decide) ?_, .link _,
      .directory (by decide) (by decide) ?_, .file _, .link _, .link _, .link _,
      .directory (by decide) (by decide) ?_, by simp⟩
    all_goals simp only [List.forall_mem_cons]
    · exact ⟨.file _, by simp⟩
    · exact ⟨.file _, .file _, by simp⟩
    · exact ⟨.file _, by simp⟩
  have wellNamed : (knottedTree knottedEntries).root.IsWellNamed :=
    .directory (by decide) (by decide) (by simpa using entriesNamed)
  have reordered :
      (knottedTree knottedEntries).IsReordered (knottedTree knottedEntries.reverse) := by
    refine ⟨.directory (List.Perm.refl _) ?_, rfl⟩
    intro name entry other isEntry isOther
    cases List.mem_singleton.mp isEntry
    cases List.mem_singleton.mp isOther
    exact Entry.IsReordered.of_perm entriesNamed (List.reverse_perm _).symm
  have listed : (knottedTree knottedEntries).list "pkg" = .ok knottedEntries := rfl
  rcases scan_visits wellNamed [] "pkg" with ⟨visited, alike⟩
  rcases visited knottedEntries listed with ⟨visits, areVisits, _, steps_eq, _⟩
  refine ⟨wellNamed, reordered, ⟨visits, areVisits, ?_⟩, (alike _ reordered).2⟩
  rw [← steps_eq]
  decide +kernel

/-- A tree with a directory of the given entries. -/
def configTree (entries : List (String × Entry)) : FileTree :=
  ⟨.directory [("config", .directory entries)], []⟩

/-- A path of the greatest length, which leads to where it starts. -/
def farPath : String := Path.still 2047

theorem list_farPath (entries : List (String × Entry)) :
    (configTree entries).list farPath = .ok [("config", .directory entries)] :=
  FileTree.list_still (by decide)

theorem list_join_farPath (tree : FileTree) :
    tree.list (Path.join farPath "config") = .error .nameTooLong :=
  FileTree.list_join_still (by decide) (by decide) (by decide)

theorem steps_farPath (endings : List String) (entries : List (String × Entry)) :
    steps endings (configTree entries) farPath [("config", .directory entries)] =
      [.unlisted (Path.join farPath "config") .nameTooLong] :=
  steps_of_unlisted (list_farPath entries) (by decide) (list_join_farPath _)

theorem scan_farPath (endings : List String) (entries : List (String × Entry)) :
    (scan endings (configTree entries) farPath).outcome =
      .error (.sourceDirectory (Path.join farPath "config") .nameTooLong) := by
  rw [outcome_scan (list_farPath entries), steps_farPath]
  rfl

/-- A source in a directory that cannot be listed is not handed over. -/
theorem scan_unreachedSource :
    (configTree [("a.go", .file [])]).root.IsWellNamed ∧
      ∃ entries, (configTree [("a.go", .file [])]).list farPath = .ok entries ∧
        (Entry.directory entries).at? ["config", "a.go"] = some (.file []) ∧
        endsIn (chosenEndings []) "a.go" = true ∧
        (∀ file, .file file ∉
          steps (chosenEndings []) (configTree [("a.go", .file [])]) farPath entries) ∧
        (scan (chosenEndings []) (configTree [("a.go", .file [])]) farPath).outcome =
          .error (.sourceDirectory (Path.join farPath "config") .nameTooLong) := by
  have wellNamed : (configTree [("a.go", .file [])]).root.IsWellNamed := by
    refine .directory (by decide) (by decide) ?_
    rw [List.forall_mem_singleton]
    refine .directory (by decide) (by decide) ?_
    rw [List.forall_mem_singleton]
    exact .file _
  refine ⟨wellNamed, _, list_farPath _, rfl, by decide, ?_, scan_farPath _ _⟩
  simp [steps_farPath]

end Source

end RbacManifest
