import Mathlib.Data.List.Induction
import RbacManifest.Proofs.FileTree.Path
import RbacManifest.Proofs.FileTree.Shape

/-!
# Following paths

A walk along a path looks only at what stands at the places on its way. When it starts in a
directory, it ends at what exists or at a free name of a directory: `FileTree.follow_isSound`. A
path that is continued by a name is followed from where the path itself ends:
`FileTree.exists_follow_of_resolve_join`.
-/

namespace RbacManifest

namespace FileTree

variable {root : Entry} {followsLast : Bool} {here : Place}

/-- The place where a path ends. -/
def Location.place : Location → Place
  | .found place => place
  | .free directory name => directory ++ [name]

/-- Whether a place where a path ends is one of a tree: a directory or a file, or a name that a
directory does not have. -/
def Location.IsSound (root : Entry) : Location → Prop
  | .found place =>
      root.shape? place = some .directory ∨ ∃ bytes, root.shape? place = some (.file bytes)
  | .free directory name =>
      root.shape? directory = some .directory ∧ root.shape? (directory ++ [name]) = none

/-- Whether a walk stops at what a tree has. -/
def Stop.IsSound (root : Entry) : Stop → Prop
  | .arrived location => location.IsSound root
  | .atLink directory _ _ => root.shape? directory = some .directory
  | .blocked _ => True

/-- One step of a walk looks only at what stands at the next place. -/
theorem walk_cons {name : String} {rest : List String} :
    walk root followsLast here (name :: rest) =
      if name = "." then walk root followsLast here rest
      else if name = ".." then walk root followsLast here.dropLast rest
      else if longestName < name.utf8ByteSize then .blocked .nameTooLong
      else
        match root.shape? (here ++ [name]) with
        | none => if rest.isEmpty then .arrived (.free here name) else .blocked .missing
        | some (.file _) =>
            if rest.isEmpty then .arrived (.found (here ++ [name])) else .blocked .notDirectory
        | some (.link target) =>
            if rest.isEmpty && !followsLast then .arrived (.found (here ++ [name]))
            else .atLink here target rest
        | some .directory => walk root followsLast (here ++ [name]) rest := by
  simp only [walk, Entry.shape?]
  cases root.at? (here ++ [name]) with
  | none => simp
  | some entry => cases entry <;> simp [Entry.shape]

/-- A path names what stands at the place where it ends. -/
theorem entry_eq_ok_iff {tree : FileTree} {path : String} {entry : Entry} :
    tree.entry path = .ok entry ↔
      ∃ place, tree.resolve true path = .ok (.found place) ∧
        tree.root.at? place = some entry := by
  simp only [FileTree.entry, bind, Except.bind]
  cases tree.resolve true path with
  | error fault => simp
  | ok location =>
      cases location with
      | free directory name => simp [throw, throwThe, MonadExceptOf.throw]
      | found place =>
          cases found : tree.root.at? place with
          | none => simp [found, throw, throwThe, MonadExceptOf.throw]
          | some present => simp [found, pure, Except.pure]

theorem readFile_eq_ok_iff {tree : FileTree} {path : String} {bytes : List UInt8} :
    tree.readFile path = .ok bytes ↔
      ∃ place, tree.resolve true path = .ok (.found place) ∧
        tree.root.at? place = some (.file bytes) := by
  rw [← entry_eq_ok_iff, readFile]
  cases tree.entry path with
  | error fault => simp [bind, Except.bind]
  | ok entry =>
      cases entry <;> simp [bind, Except.bind, pure, Except.pure, throw, throwThe,
        MonadExceptOf.throw]

theorem list_eq_ok_iff {tree : FileTree} {path : String} {entries : List (String × Entry)} :
    tree.list path = .ok entries ↔
      ∃ place, tree.resolve true path = .ok (.found place) ∧
        tree.root.at? place = some (.directory entries) := by
  rw [← entry_eq_ok_iff, list]
  cases tree.entry path with
  | error fault => simp [bind, Except.bind]
  | ok entry =>
      cases entry <;> simp [bind, Except.bind, pure, Except.pure, throw, throwThe,
        MonadExceptOf.throw]

/-- Whether a path leads to a directory, so that its entries can be listed. -/
def CanList (tree : FileTree) (path : String) : Prop :=
  ∃ entries, tree.list path = .ok entries

theorem not_canList_iff {tree : FileTree} {path : String} :
    ¬tree.CanList path ↔ ∃ fault, tree.list path = .error fault := by
  cases list_eq : tree.list path with
  | error fault => simp [CanList, list_eq]
  | ok entries => simp [CanList, list_eq]

/-! ## Walks from a directory -/

theorem shape?_dropLast (isDirectory : root.shape? here = some .directory) :
    root.shape? here.dropLast = some .directory := by
  rcases List.eq_nil_or_concat here with rfl | ⟨parent, name, rfl⟩
  · simpa using isDirectory
  · rw [List.concat_eq_append] at isDirectory ⊢
    rw [List.dropLast_concat]
    have present : root.shape? (parent ++ [name]) ≠ none := by simp [isDirectory]
    exact Entry.shape?_parent present

theorem shape?_root (isDirectory : root.shape? here = some .directory) :
    root.shape? [] = some .directory := by
  induction here using List.reverseRecOn with
  | nil => exact isDirectory
  | append_singleton parent name ih =>
      apply ih
      have present : root.shape? (parent ++ [name]) ≠ none := by simp [isDirectory]
      exact Entry.shape?_parent present

theorem walk_isSound (steps : List String) (isDirectory : root.shape? here = some .directory) :
    (walk root true here steps).IsSound root := by
  induction steps generalizing here with
  | nil => exact Or.inl isDirectory
  | cons name rest ih =>
      rw [walk_cons]
      split
      · exact ih isDirectory
      split
      · exact ih (shape?_dropLast isDirectory)
      split
      · trivial
      split
      · next absent =>
        split
        · exact ⟨isDirectory, absent⟩
        · trivial
      · next bytes present =>
        split
        · exact Or.inr ⟨bytes, present⟩
        · trivial
      · simpa [Stop.IsSound] using isDirectory
      · next present => exact ih present

theorem follow_isSound {links : Nat} {steps : List String} {location : Location}
    (isDirectory : root.shape? here = some .directory)
    (followed : follow root true links here steps = .ok location) : location.IsSound root := by
  have sound := walk_isSound steps isDirectory
  fun_induction follow root true links here steps with
  | case1 links here steps reached arrived =>
      rw [arrived] at sound
      cases followed
      exact sound
  | case2 links here steps fault blocked => simp at followed
  | case3 here steps directory target rest atLink => simp at followed
  | case4 here steps directory target rest atLink links ih =>
      rw [atLink] at sound
      have startsInDirectory :
          root.shape? (if Path.isAbsolute target then [] else directory) = some .directory := by
        split
        · exact shape?_root isDirectory
        · exact sound
      exact ih startsInDirectory followed (walk_isSound _ startsInDirectory)

/-! ## Paths with one more step -/

/-- A walk that arrives at a directory goes on from there when there are more steps. A last step
that stays in place is no obstacle. -/
theorem walk_append_of_arrived {place : Place} {steps last : List String} {next : String}
    {rest : List String} (last_stays : last = [] ∨ last = ["."])
    (isDirectory : root.shape? place = some .directory)
    (arrived : walk root true here (steps ++ last) = .arrived (.found place)) :
    walk root true here (steps ++ next :: rest) = walk root true place (next :: rest) := by
  induction steps generalizing here with
  | nil =>
      have here_eq : here = place := by
        rcases last_stays with rfl | rfl <;> simpa [walk] using arrived
      rw [here_eq, List.nil_append]
  | cons name steps ih =>
      rw [List.cons_append, walk_cons] at arrived ⊢
      split at arrived
      · next stays => simpa [stays] using ih arrived
      split at arrived
      · next stays up => simpa [stays, up] using ih arrived
      split at arrived
      · simp at arrived
      next stays up fits =>
      split at arrived
      · split at arrived <;> simp at arrived
      · next bytes present =>
        split at arrived
        · cases arrived
          simp [present] at isDirectory
        · simp at arrived
      · simp at arrived
      · next present => simpa [stays, up, fits, present] using ih arrived

/-- A walk that comes to a link comes to the same link when there are more steps. -/
theorem walk_append_of_atLink {directory : Place} {target : String}
    {steps last behind : List String} (next : String) (rest : List String)
    (last_stays : last = [] ∨ last = ["."])
    (atLink : walk root true here (steps ++ last) = .atLink directory target behind) :
    ∃ before, behind = before ++ last ∧
      walk root true here (steps ++ next :: rest) =
        .atLink directory target (before ++ next :: rest) := by
  induction steps generalizing here with
  | nil => rcases last_stays with rfl | rfl <;> simp [walk] at atLink
  | cons name steps ih =>
      rw [List.cons_append, walk_cons] at atLink
      rw [List.cons_append, walk_cons]
      split at atLink
      · next stays => simpa [stays] using ih atLink
      split at atLink
      · next stays up => simpa [stays, up] using ih atLink
      split at atLink
      · simp at atLink
      next stays up fits =>
      split at atLink
      · split at atLink <;> simp at atLink
      · split at atLink <;> simp at atLink
      · next found =>
        simp only [Bool.not_true, Bool.and_false, Bool.false_eq_true, if_false] at atLink
        cases atLink
        exact ⟨steps, rfl, by simp [stays, up, fits]⟩
      · next present => simpa [stays, up, fits, present] using ih atLink

theorem exists_follow_append {links : Nat} {place : Place} {steps last : List String}
    (next : String) (rest : List String) (last_stays : last = [] ∨ last = ["."])
    (isDirectory : root.shape? place = some .directory)
    (followed : follow root true links here (steps ++ last) = .ok (.found place)) :
    ∃ left, follow root true links here (steps ++ next :: rest) =
      follow root true left place (next :: rest) := by
  induction links generalizing here steps with
  | zero =>
      refine ⟨0, ?_⟩
      rw [follow] at followed
      cases stop : walk root true here (steps ++ last) with
      | arrived location =>
          simp only [stop, Except.ok.injEq] at followed
          subst followed
          rw [follow, follow, walk_append_of_arrived last_stays isDirectory stop]
      | blocked fault => simp [stop] at followed
      | atLink directory target behind => simp [stop] at followed
  | succ links ih =>
      rw [follow] at followed
      cases stop : walk root true here (steps ++ last) with
      | arrived location =>
          simp only [stop, Except.ok.injEq] at followed
          subst followed
          refine ⟨links + 1, ?_⟩
          rw [follow, follow, walk_append_of_arrived last_stays isDirectory stop]
      | blocked fault => simp [stop] at followed
      | atLink directory target behind =>
          rcases walk_append_of_atLink next rest last_stays stop with
            ⟨before, rfl, continued⟩
          simp only [stop, ← List.append_assoc] at followed
          rcases ih followed with ⟨left, continuation⟩
          refine ⟨left, ?_⟩
          rw [follow, continued]
          simpa only [← List.append_assoc] using continuation

/-- A path that is continued by a name is followed from where the path ends. -/
theorem exists_follow_of_resolve_join {tree : FileTree} {path name : String} {place : Place}
    {location : Location} (relative : Path.isAbsolute name = false)
    (name_steps : Path.steps name = [name]) (name_nonempty : name ≠ "")
    (path_resolved : tree.resolve true path = .ok (.found place))
    (isDirectory : tree.root.shape? place = some .directory)
    (resolved : tree.resolve true (Path.join path name) = .ok location) :
    ∃ left, follow tree.root true left place [name] = .ok location := by
  have path_nonempty : path ≠ "" := by
    rintro rfl
    simp [resolve, longPath] at path_resolved
  -- Both paths have passed what is asked of a path before it is followed.
  rw [resolve] at path_resolved resolved
  split at path_resolved
  · simp at path_resolved
  split at path_resolved
  · simp at path_resolved
  split at path_resolved
  · simp at path_resolved
  split at resolved
  · simp at resolved
  split at resolved
  · simp at resolved
  split at resolved
  · simp at resolved
  rw [Path.isAbsolute_join relative path_nonempty, Path.steps_join relative name_nonempty,
    name_steps] at resolved
  have last_stays : (if path.toList.getLast? = some '/' then ["."] else []) = [] ∨
      (if path.toList.getLast? = some '/' then ["."] else []) = ["."] := by
    split
    · exact Or.inr rfl
    · exact Or.inl rfl
  rcases exists_follow_append name [] last_stays isDirectory path_resolved with
    ⟨left, continuation⟩
  exact ⟨left, continuation ▸ resolved⟩

end FileTree

end RbacManifest
