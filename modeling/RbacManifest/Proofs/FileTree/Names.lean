import RbacManifest.Proofs.FileTree.LinkFree

/-!
# Names in trees of files

No name of a file holds the character that no path can hold. A path without it can be asked for,
whether or not it leads anywhere: `FileTree.resolve_ne_nullCharacter_iff`.
-/

namespace RbacManifest

/-- Whether a text is free of the character that no path can hold. -/
def Path.IsPossible (path : String) : Prop :=
  '\x00' ∉ path.toList

instance : DecidablePred Path.IsPossible :=
  fun path => inferInstanceAs (Decidable ('\x00' ∉ path.toList))

namespace Entry

/-- Whether all names in an entry and below it can stand in a path. -/
inductive HasPossibleNames : Entry → Prop
  | file (bytes : List UInt8) : HasPossibleNames (.file bytes)
  | link (target : String) : HasPossibleNames (.link target)
  | directory {entries : List (String × Entry)}
      (names : ∀ entry ∈ entries, Path.IsPossible entry.1)
      (inside : ∀ entry ∈ entries, HasPossibleNames entry.2) :
      HasPossibleNames (.directory entries)

theorem HasPossibleNames.at? {entry inner : Entry} {place : Place}
    (possible : entry.HasPossibleNames) (found : entry.at? place = some inner) :
    inner.HasPossibleNames := by
  induction place generalizing entry with
  | nil =>
      cases found
      exact possible
  | cons name rest ih =>
      rw [at?_cons, Option.bind_eq_some_iff] at found
      rcases found with ⟨next, isNext, found⟩
      cases possible with
      | file bytes => simp [Entry.entries] at isNext
      | link target => simp [Entry.entries] at isNext
      | directory names inside => exact ih (inside _ (mem_of_lookup isNext)) found

end Entry

theorem Path.IsPossible.join {path more : String} (possible : IsPossible path)
    (more_possible : IsPossible more) : IsPossible (Path.join path more) := by
  rw [Path.join]
  split
  · exact more_possible
  split
  · simpa [IsPossible] using ⟨possible, more_possible⟩
  · simpa [IsPossible] using ⟨possible, more_possible⟩

/-! ## Following paths -/

namespace FileTree

variable {root : Entry} {followsLast : Bool} {here : Place} {steps : List String}
  {fault : PathFault} {tree : FileTree} {path : String}

theorem walk_ne_nullCharacter : walk root followsLast here steps ≠ .blocked .nullCharacter := by
  induction steps generalizing here with
  | nil => simp [walk]
  | cons name rest ih =>
      rw [walk_cons]
      split
      · exact ih
      split
      · exact ih
      split
      · simp
      split
      · split <;> simp
      · split <;> simp
      · split <;> simp
      · exact ih

theorem follow_ne_nullCharacter {links : Nat} :
    follow root followsLast links here steps ≠ .error .nullCharacter := by
  fun_induction follow root followsLast links here steps with
  | case1 links here steps location arrived => simp
  | case2 links here steps fault blocked =>
      rintro ⟨⟩
      exact walk_ne_nullCharacter blocked
  | case3 here steps directory target rest atLink => simp
  | case4 here steps directory target rest atLink links ih => exact ih

theorem resolve_ne_nullCharacter_iff :
    tree.resolve followsLast path ≠ .error .nullCharacter ↔ Path.IsPossible path := by
  rw [resolve, Path.IsPossible]
  split
  · next hasNull => simpa using hasNull
  next noNull =>
  have possible : '\x00' ∉ path.toList := by simpa using noNull
  simp only [possible, not_false_eq_true, iff_true]
  split
  · simp
  split
  · simp
  · exact follow_ne_nullCharacter

theorem entry_ne_nullCharacter (possible : Path.IsPossible path) :
    tree.entry path ≠ .error .nullCharacter := by
  have resolves : tree.resolve true path ≠ .error .nullCharacter :=
    resolve_ne_nullCharacter_iff.mpr possible
  rw [FileTree.entry]
  cases resolved : tree.resolve true path with
  | error fault => simpa [bind, Except.bind, resolved] using resolves
  | ok location =>
      cases location with
      | free directory name => simp [bind, Except.bind, throw, throwThe, MonadExceptOf.throw]
      | found place =>
          simp only [bind, Except.bind]
          split <;> simp [pure, Except.pure, throw, throwThe, MonadExceptOf.throw]

theorem readFile_ne_nullCharacter (possible : Path.IsPossible path) :
    tree.readFile path ≠ .error .nullCharacter := by
  have found : tree.entry path ≠ .error .nullCharacter := entry_ne_nullCharacter possible
  rw [readFile]
  cases present : tree.entry path with
  | error fault => simpa [bind, Except.bind, present] using found
  | ok entry =>
      cases entry <;> simp [bind, Except.bind, pure, Except.pure, throw, throwThe,
        MonadExceptOf.throw]

theorem list_ne_nullCharacter (possible : Path.IsPossible path) :
    tree.list path ≠ .error .nullCharacter := by
  have found : tree.entry path ≠ .error .nullCharacter := entry_ne_nullCharacter possible
  rw [list]
  cases present : tree.entry path with
  | error fault => simpa [bind, Except.bind, present] using found
  | ok entry =>
      cases entry <;> simp [bind, Except.bind, pure, Except.pure, throw, throwThe,
        MonadExceptOf.throw]

theorem isPossible_of_list {entries : List (String × Entry)}
    (listed : tree.list path = .ok entries) : Path.IsPossible path := by
  rcases list_eq_ok_iff.mp listed with ⟨place, resolved, _⟩
  have resolves : tree.resolve true path ≠ .error .nullCharacter := by simp [resolved]
  exact resolve_ne_nullCharacter_iff.mp resolves

end FileTree

end RbacManifest
