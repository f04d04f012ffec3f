import RbacManifest.Proofs.FileTree.Resolve

/-!
# Writing files

Writing a file changes one place of a tree, the one that the file's path leads to, and
`FileTree.Writes` says how. No other path leads elsewhere afterwards: a walk that arrived before the
writing arrives at the same place behind it, as `FileTree.Writes.resolve_eq` states.
-/

namespace RbacManifest

namespace FileTree

/-- Whether a tree comes from another one by writing a file at a place. A file may have been there
or nothing, and all other places are as they were. -/
structure Writes (tree : FileTree) (place : Place) (bytes : List UInt8) (after : FileTree) :
    Prop where
  working_eq : after.working = tree.working
  before : tree.shape? place = none ∨ ∃ old, tree.shape? place = some (.file old)
  written : after.shape? place = some (.file bytes)
  frame : ∀ other, other ≠ place → after.shape? other = tree.shape? other

/-- Where a path ends when a file has been written at a place. -/
def Location.behind (written : Place) (location : Location) : Location :=
  if location.place = written then .found written else location

/-- Whether a walk stops as another one does that was made before a file was written at a place. -/
def Stop.Persists (written : Place) : Stop → Stop → Prop
  | .arrived location, stop => stop = .arrived (location.behind written)
  | .atLink directory target rest, stop => stop = .atLink directory target rest
  | .blocked _, stop => ∃ fault, stop = .blocked fault

theorem Location.behind_found {written place : Place} :
    (found place).behind written = found place := by
  by_cases same : place = written <;> simp [behind, Location.place, same]

@[simp]
theorem Location.place_behind {written : Place} {location : Location} :
    (location.behind written).place = location.place := by
  simp only [behind]
  split
  · next same => exact same.symm
  · rfl

theorem readFile_of_found {tree : FileTree} {path : String} {place : Place} {bytes : List UInt8}
    (found : tree.resolve true path = .ok (.found place))
    (present : tree.shape? place = some (.file bytes)) : tree.readFile path = .ok bytes :=
  readFile_eq_ok_iff.mpr ⟨place, found, Entry.shape?_file_iff.mp present⟩

namespace Writes

variable {tree after : FileTree} {place : Place} {bytes : List UInt8} {followsLast : Bool}

theorem ne_of_directory (writes : tree.Writes place bytes after) {other : Place}
    (isDirectory : tree.shape? other = some .directory) : other ≠ place := by
  rintro rfl
  rcases writes.before with absent | ⟨old, present⟩
  · simp [absent] at isDirectory
  · simp [present] at isDirectory

theorem shape?_directory (writes : tree.Writes place bytes after) {other : Place}
    (isDirectory : tree.shape? other = some .directory) :
    after.shape? other = some .directory := by
  rw [writes.frame other (writes.ne_of_directory isDirectory), isDirectory]

/-- A walk stops behind the writing of a file where it stopped before. -/
theorem walk_persists (writes : tree.Writes place bytes after) (here : Place)
    (steps : List String) :
    Stop.Persists place (walk tree.root followsLast here steps)
      (walk after.root followsLast here steps) := by
  induction steps generalizing here with
  | nil => simp [walk, Stop.Persists, Location.behind_found]
  | cons name rest ih =>
      rw [walk_cons, walk_cons]
      by_cases stays : name = "."
      · simpa [stays] using ih here
      by_cases up : name = ".."
      · simpa [up] using ih here.dropLast
      by_cases long : longestName < name.utf8ByteSize
      · simp [stays, up, long, Stop.Persists]
      simp only [stays, up, long, if_false]
      -- Only a step to the written file sees a difference: before, there was nothing or a file.
      by_cases same : here ++ [name] = place
      · have written : after.root.shape? (here ++ [name]) = some (.file bytes) :=
          same ▸ writes.written
        rcases same ▸ writes.before with absent | ⟨old, present⟩
        · rw [show tree.root.shape? (here ++ [name]) = none from absent, written]
          by_cases last : rest.isEmpty
          · simp [last, Stop.Persists, Location.behind, Location.place, same]
          · simp [last, Stop.Persists]
        · rw [show tree.root.shape? (here ++ [name]) = some (.file old) from present, written]
          by_cases last : rest.isEmpty
          · simp [last, Stop.Persists, Location.behind_found]
          · simp [last, Stop.Persists]
      · rw [show after.root.shape? (here ++ [name]) = tree.root.shape? (here ++ [name]) from
          writes.frame _ same]
        split
        · split
          · simp [Stop.Persists, Location.behind, Location.place, same]
          · simp [Stop.Persists]
        · split
          · simp [Stop.Persists, Location.behind_found]
          · simp [Stop.Persists]
        · split
          · simp [Stop.Persists, Location.behind_found]
          · rfl
        · exact ih (here ++ [name])

/-- A path is followed behind the writing of a file to where it was followed before, and it is
blocked if it was blocked before. -/
theorem follow_persists (writes : tree.Writes place bytes after) (links : Nat) (here : Place)
    (steps : List String) :
    match follow tree.root followsLast links here steps with
    | .ok location =>
        follow after.root followsLast links here steps = .ok (location.behind place)
    | .error _ => ∃ fault, follow after.root followsLast links here steps = .error fault := by
  have persists : Stop.Persists place (walk tree.root followsLast here steps)
      (walk after.root followsLast here steps) := writes.walk_persists here steps
  fun_induction follow tree.root followsLast links here steps with
  | case1 links here steps location arrived =>
      rw [arrived] at persists
      rw [follow, persists]
  | case2 links here steps fault blocked =>
      rw [blocked] at persists
      rcases persists with ⟨other, persists⟩
      exact ⟨other, by rw [follow, persists]⟩
  | case3 here steps directory target rest atLink =>
      rw [atLink] at persists
      exact ⟨.tooManyLinks, by rw [follow, persists]⟩
  | case4 here steps directory target rest atLink links ih =>
      rw [atLink] at persists
      have followed : follow after.root followsLast (links + 1) here steps =
          follow after.root followsLast links (if Path.isAbsolute target then [] else directory)
            (Path.steps target ++ rest) := by
        rw [follow, persists]
      rw [followed]
      exact ih (writes.walk_persists _ _)

/-- A path leads behind the writing of a file to where it led before, and nowhere if it led nowhere
before. -/
theorem resolve_persists (writes : tree.Writes place bytes after) (followsLast : Bool)
    (path : String) :
    match tree.resolve followsLast path with
    | .ok location => after.resolve followsLast path = .ok (location.behind place)
    | .error _ => ∃ fault, after.resolve followsLast path = .error fault := by
  simp only [resolve, writes.working_eq]
  by_cases hasNull : path.toList.contains '\x00' = true
  · simp only [hasNull, if_true]
    exact ⟨_, rfl⟩
  by_cases long : longPath ≤ path.utf8ByteSize
  · simp only [hasNull, long, if_true]
    exact ⟨_, rfl⟩
  by_cases empty : path.isEmpty = true
  · simp only [hasNull, long, empty, if_true, if_false]
    exact ⟨_, rfl⟩
  simp only [hasNull, long, empty, if_false]
  exact writes.follow_persists _ _ _

theorem resolve_eq (writes : tree.Writes place bytes after) {path : String} {location : Location}
    (resolved : tree.resolve followsLast path = .ok location) :
    after.resolve followsLast path = .ok (location.behind place) := by
  simpa [resolved] using writes.resolve_persists followsLast path

theorem exists_resolve (writes : tree.Writes place bytes after) {path : String}
    {location : Location} (resolved : after.resolve followsLast path = .ok location) :
    ∃ earlier, tree.resolve followsLast path = .ok earlier ∧
      location = earlier.behind place := by
  have persists := writes.resolve_persists followsLast path
  cases earlier_resolved : tree.resolve followsLast path with
  | ok earlier =>
      simp only [earlier_resolved, resolved, Except.ok.injEq] at persists
      exact ⟨earlier, rfl, persists⟩
  | error fault =>
      simp only [earlier_resolved, resolved] at persists
      rcases persists with ⟨_, impossible⟩
      cases impossible

theorem resolve_self (writes : tree.Writes place bytes after) {path : String}
    {location : Location} (resolved : tree.resolve followsLast path = .ok location)
    (same : location.place = place) : after.resolve followsLast path = .ok (.found place) := by
  rw [writes.resolve_eq resolved, Location.behind, if_pos same]

/-- What was written to a path is read from it. -/
theorem readFile_eq (writes : tree.Writes place bytes after) {path : String} {location : Location}
    (resolved : tree.resolve true path = .ok location) (same : location.place = place) :
    after.readFile path = .ok bytes :=
  readFile_of_found (writes.resolve_self resolved same) writes.written

/-- What is read from another file is read from it behind the writing. -/
theorem readFile_of_ne (writes : tree.Writes place bytes after) {path : String}
    {content : List UInt8}
    (differs : ∀ location, tree.resolve true path = .ok location → location.place ≠ place)
    (read : tree.readFile path = .ok content) : after.readFile path = .ok content := by
  rcases readFile_eq_ok_iff.mp read with ⟨other, resolved, present⟩
  have resolved_after := writes.resolve_eq resolved
  rw [Location.behind_found] at resolved_after
  refine readFile_of_found resolved_after ?_
  rw [writes.frame other (differs _ resolved)]
  exact Entry.shape?_file_iff.mpr present

end Writes

/-- Putting a file under a name of a directory, where no directory or link is, changes that place
alone. -/
theorem writes_of_put {tree : FileTree} {directory : Place} {name : String} {bytes : List UInt8}
    (isDirectory : tree.root.shape? directory = some .directory)
    (before : tree.root.shape? (directory ++ [name]) = none ∨
      ∃ old, tree.root.shape? (directory ++ [name]) = some (.file old)) :
    tree.Writes (directory ++ [name]) bytes
      { tree with root := tree.root.put (directory ++ [name]) (.file bytes) } := by
  have notDirectory : tree.root.shape? (directory ++ [name]) ≠ some .directory := by
    rcases before with absent | ⟨old, present⟩
    · simp [absent]
    · simp [present]
  have put_eq := Entry.shape?_put isDirectory notDirectory bytes
  refine ⟨rfl, before, ?_, ?_⟩
  · simp [shape?, put_eq]
  · intro other differs
    simp [shape?, put_eq, differs]

/-- Putting a file in the place of a file changes that place alone. -/
theorem writes_of_file {tree : FileTree} {place : Place} {old bytes : List UInt8}
    (present : tree.root.shape? place = some (.file old)) :
    tree.Writes place bytes { tree with root := tree.root.put place (.file bytes) } := by
  rcases List.eq_nil_or_concat place with rfl | ⟨parent, name, rfl⟩
  · have leaf : tree.root.shape ≠ .directory := by
      rw [Entry.shape?_nil, Option.some.injEq] at present
      simp [present]
    refine ⟨rfl, Or.inr ⟨old, present⟩, rfl, ?_⟩
    intro other differs
    cases other with
    | nil => exact absurd rfl differs
    | cons name rest =>
        rw [shape?, shape?, Entry.shape?_cons_of_leaf leaf]
        exact Entry.shape?_cons_of_leaf (by simp [Entry.put, Entry.shape])
  · rw [List.concat_eq_append] at present ⊢
    have something : tree.root.shape? (parent ++ [name]) ≠ none := by simp [present]
    exact writes_of_put (Entry.shape?_parent something) (Or.inr ⟨old, present⟩)

/-- Writing a file to a path that ends at a place of the tree changes that place alone. -/
theorem writes_of_writeFile {tree after : FileTree} {path : String} {bytes : List UInt8}
    (sound : ∀ location, tree.resolve true path = .ok location → location.IsSound tree.root)
    (written : tree.writeFile path bytes = .ok after) :
    ∃ location, tree.resolve true path = .ok location ∧
      tree.Writes location.place bytes after := by
  cases resolved : tree.resolve true path with
  | error fault => simp [writeFile, resolved, bind, Except.bind] at written
  | ok location =>
      refine ⟨location, rfl, ?_⟩
      have location_sound := sound location resolved
      cases location with
      | free directory name =>
          simp only [writeFile, resolved, bind, Except.bind, pure, Except.pure,
            Except.ok.injEq] at written
          subst written
          exact writes_of_put location_sound.1 (Or.inl location_sound.2)
      | found place =>
          rcases location_sound with isDirectory | ⟨old, present⟩
          · rcases Entry.shape?_directory_iff.mp isDirectory with ⟨entries, found⟩
            simp [writeFile, resolved, found, bind, Except.bind, throw, throwThe,
              MonadExceptOf.throw] at written
          · have found := Entry.shape?_file_iff.mp present
            simp only [writeFile, resolved, found, bind, Except.bind, pure, Except.pure,
              Except.ok.injEq] at written
            subst written
            exact writes_of_file present

theorem writeFile_eq {tree after : FileTree} {path : String} {bytes : List UInt8}
    {location : Location} (resolved : tree.resolve true path = .ok location)
    (written : tree.writeFile path bytes = .ok after) :
    after = { tree with root := tree.root.put location.place (.file bytes) } := by
  simp only [writeFile, resolved, bind, Except.bind] at written
  split at written
  · cases written
    rfl
  · split at written
    · simp [throw, throwThe, MonadExceptOf.throw] at written
    · cases written
      rfl

/-- Writing to a file what is in it changes nothing. -/
theorem writeFile_of_found {tree : FileTree} {path : String} {place : Place} {bytes : List UInt8}
    (found : tree.resolve true path = .ok (.found place))
    (present : tree.shape? place = some (.file bytes)) : tree.writeFile path bytes = .ok tree := by
  have file : tree.root.at? place = some (.file bytes) := Entry.shape?_file_iff.mp present
  simp [writeFile, found, file, bind, Except.bind, pure, Except.pure, Entry.put_of_at? file]

/-! ## Paths that can be written -/

/-- Whether a path can be opened for writing. -/
def IsWritable (tree : FileTree) (path : String) : Prop :=
  ∃ bytes after, tree.writeFile path bytes = .ok after

theorem exists_writeFile_iff {tree : FileTree} {path : String} {bytes : List UInt8} :
    (∃ after, tree.writeFile path bytes = .ok after) ↔
      ∃ location, tree.resolve true path = .ok location ∧
        ∀ place, location = .found place → tree.shape? place ≠ some .directory := by
  simp only [writeFile, bind, Except.bind, shape?]
  cases tree.resolve true path with
  | error fault => simp
  | ok location =>
      cases location with
      | free directory name => simp [pure, Except.pure]
      | found place =>
          cases found : tree.root.at? place with
          | none => simp [found, Entry.shape?, pure, Except.pure]
          | some entry =>
              cases entry <;> simp [found, Entry.shape?, Entry.shape, pure, Except.pure, throw,
                throwThe, MonadExceptOf.throw]

/-- Whether a path can be written does not depend on the bytes. -/
theorem isWritable_iff {tree : FileTree} {path : String} :
    tree.IsWritable path ↔ ∃ location, tree.resolve true path = .ok location ∧
      ∀ place, location = .found place → tree.shape? place ≠ some .directory := by
  simp only [IsWritable, exists_writeFile_iff, exists_const]

theorem IsWritable.exists_writeFile {tree : FileTree} {path : String}
    (writable : tree.IsWritable path) (bytes : List UInt8) :
    ∃ after, tree.writeFile path bytes = .ok after :=
  exists_writeFile_iff.mpr (isWritable_iff.mp writable)

/-- A path that can be written still can when a file has been written. -/
theorem Writes.isWritable {tree after : FileTree} {place : Place} {bytes : List UInt8}
    {path : String} (writes : tree.Writes place bytes after) (writable : tree.IsWritable path) :
    after.IsWritable path := by
  rcases isWritable_iff.mp writable with ⟨location, resolved, notDirectory⟩
  refine isWritable_iff.mpr ⟨location.behind place, writes.resolve_eq resolved, ?_⟩
  intro other behind_eq isDirectory
  have same : location.place = other := by
    rw [← Location.place_behind, behind_eq, Location.place]
  have differs : other ≠ place := by
    rintro rfl
    simp [writes.written] at isDirectory
  rw [writes.frame other differs] at isDirectory
  refine notDirectory other ?_ isDirectory
  rw [← behind_eq, Location.behind, if_neg (same ▸ differs)]

end FileTree

end RbacManifest
