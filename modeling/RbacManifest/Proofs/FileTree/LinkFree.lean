import RbacManifest.Proofs.FileTree.Write

/-!
# Trees without links

A tree of directories and files alone stays one when a file is written. A path that leads somewhere
in such a tree leads to a place with the last name of the path, because no link can lead elsewhere:
`FileTree.exists_place_of_resolve`.
-/

namespace RbacManifest

namespace Entry

/-- Whether an entry is a file, or a directory with no links in it and below it. -/
inductive IsLinkFree : Entry → Prop
  | file (bytes : List UInt8) : IsLinkFree (.file bytes)
  | directory {entries : List (String × Entry)} (inside : ∀ entry ∈ entries, IsLinkFree entry.2) :
      IsLinkFree (.directory entries)

theorem mem_of_lookup {name : String} {entry : Entry} {entries : List (String × Entry)}
    (found : entries.lookup name = some entry) : (name, entry) ∈ entries := by
  induction entries with
  | nil => simp at found
  | cons first rest ih =>
      rcases first with ⟨other, old⟩
      rw [lookup_cons] at found
      split at found
      · next same =>
        cases found
        simp [same]
      · exact List.mem_cons_of_mem _ (ih found)

theorem forall_mem_replace {property : Entry → Prop} {name : String} {new : Entry}
    {entries : List (String × Entry)} (old_holds : ∀ entry ∈ entries, property entry.2)
    (new_holds : property new) : ∀ entry ∈ replace name new entries, property entry.2 := by
  induction entries with
  | nil => simpa [replace] using new_holds
  | cons first rest ih =>
      rcases first with ⟨other, old⟩
      rw [List.forall_mem_cons] at old_holds
      simp only [replace]
      split
      · exact List.forall_mem_cons.mpr ⟨new_holds, old_holds.2⟩
      · exact List.forall_mem_cons.mpr ⟨old_holds.1, ih old_holds.2⟩

namespace IsLinkFree

variable {entry : Entry}

theorem entries (linkFree : entry.IsLinkFree) :
    ∀ inner ∈ entry.entries, inner.2.IsLinkFree := by
  cases linkFree with
  | file bytes => simp [Entry.entries]
  | directory inside => exact inside

theorem lookup (linkFree : entry.IsLinkFree) {name : String} {inner : Entry}
    (found : entry.entries.lookup name = some inner) : inner.IsLinkFree :=
  linkFree.entries _ (mem_of_lookup found)

theorem at? (linkFree : entry.IsLinkFree) {place : Place} {inner : Entry}
    (found : entry.at? place = some inner) : inner.IsLinkFree := by
  induction place generalizing entry with
  | nil =>
      cases found
      exact linkFree
  | cons name rest ih =>
      rw [at?_cons, Option.bind_eq_some_iff] at found
      rcases found with ⟨next, isNext, found⟩
      exact ih (linkFree.lookup isNext) found

theorem put (linkFree : entry.IsLinkFree) (place : Place) {new : Entry}
    (new_linkFree : new.IsLinkFree) : (entry.put place new).IsLinkFree := by
  induction place generalizing entry with
  | nil => exact new_linkFree
  | cons name rest ih =>
      rw [Entry.put]
      cases found : entry.entries.lookup name with
      | none => exact .directory (forall_mem_replace linkFree.entries new_linkFree)
      | some old =>
          exact .directory (forall_mem_replace linkFree.entries (ih (linkFree.lookup found)))

theorem shape?_ne_link (linkFree : entry.IsLinkFree) {place : Place} {target : String} :
    entry.shape? place ≠ some (.link target) := by
  rw [shape?]
  cases found : entry.at? place with
  | none => simp
  | some inner => cases linkFree.at? found <;> simp [shape]

end IsLinkFree

end Entry

namespace FileTree

variable {root : Entry}

theorem walk_ne_atLink (linkFree : root.IsLinkFree) {here directory : Place} {target : String}
    {steps rest : List String} : walk root true here steps ≠ .atLink directory target rest := by
  induction steps generalizing here with
  | nil => simp [walk]
  | cons name more ih =>
      rw [walk_cons]
      split
      · exact ih
      split
      · exact ih
      split
      · simp
      split
      · split <;> simp
      · split <;> simp
      · next isLink => exact absurd isLink linkFree.shape?_ne_link
      · exact ih

/-- A walk that arrives behind a name has gone to that name. -/
theorem exists_place_of_walk {here : Place} {before : List String} {last : String}
    {location : Location} (proper : last ≠ "." ∧ last ≠ "..")
    (arrived : walk root true here (before ++ [last]) = .arrived location) :
    ∃ parent, location.place = parent ++ [last] := by
  induction before generalizing here with
  | nil =>
      rw [List.nil_append, walk_cons, if_neg proper.1, if_neg proper.2] at arrived
      refine ⟨here, ?_⟩
      split at arrived
      · simp at arrived
      split at arrived
      · cases arrived
        rfl
      · cases arrived
        rfl
      · simp at arrived
      · cases arrived
        rfl
  | cons name rest ih =>
      rw [List.cons_append, walk_cons] at arrived
      split at arrived
      · exact ih arrived
      split at arrived
      · exact ih arrived
      split at arrived
      · simp at arrived
      split at arrived
      · simp at arrived
      · simp at arrived
      · simp at arrived
      · exact ih arrived

theorem exists_place_of_resolve {tree : FileTree} (linkFree : tree.root.IsLinkFree)
    {path last : String} {before : List String} {location : Location}
    (steps_eq : Path.steps path = before ++ [last]) (proper : last ≠ "." ∧ last ≠ "..")
    (resolved : tree.resolve true path = .ok location) :
    ∃ parent, location.place = parent ++ [last] := by
  rw [resolve] at resolved
  split at resolved
  · simp at resolved
  split at resolved
  · simp at resolved
  split at resolved
  · simp at resolved
  rw [steps_eq, follow] at resolved
  split at resolved
  · next arrived =>
    cases resolved
    exact exists_place_of_walk proper arrived
  · simp at resolved
  · next atLink => exact absurd atLink (walk_ne_atLink linkFree)

/-- Whether a tree comes from a tree without links by writing a file under a name of a directory,
where no directory is. -/
structure Stores (tree : FileTree) (parent : Place) (name : String) (bytes : List UInt8)
    (after : FileTree) : Prop extends tree.Writes (parent ++ [name]) bytes after where
  linkFree : tree.root.IsLinkFree
  isDirectory : tree.root.shape? parent = some .directory
  root_eq : after.root = tree.root.put (parent ++ [name]) (.file bytes)

namespace Stores

variable {tree after : FileTree} {parent : Place} {name : String} {bytes : List UInt8}

theorem linkFree_after (stores : tree.Stores parent name bytes after) :
    after.root.IsLinkFree := by
  rw [stores.root_eq]
  exact stores.linkFree.put _ (.file bytes)

theorem notDirectory (stores : tree.Stores parent name bytes after) :
    tree.root.shape? (parent ++ [name]) ≠ some .directory := by
  intro isDirectory
  exact stores.ne_of_directory isDirectory rfl

end Stores

/-- Writing to a path without links stores the file under the last name of the path. -/
theorem exists_stores_of_writeFile {tree after : FileTree} {path last : String}
    {before : List String} {bytes : List UInt8} (linkFree : tree.root.IsLinkFree)
    (sound : ∀ location, tree.resolve true path = .ok location → location.IsSound tree.root)
    (steps_eq : Path.steps path = before ++ [last]) (proper : last ≠ "." ∧ last ≠ "..")
    (written : tree.writeFile path bytes = .ok after) :
    ∃ parent location, tree.resolve true path = .ok location ∧ location.place = parent ++ [last] ∧
      tree.Stores parent last bytes after := by
  rcases writes_of_writeFile sound written with ⟨location, resolved, writes⟩
  rcases exists_place_of_resolve linkFree steps_eq proper resolved with ⟨parent, place_eq⟩
  have after_eq := writeFile_eq resolved written
  refine ⟨parent, location, resolved, place_eq, place_eq ▸ writes, linkFree, ?_, ?_⟩
  · have isSound := sound location resolved
    cases location with
    | free directory name =>
        rcases List.append_inj' place_eq rfl with ⟨rfl, _⟩
        exact isSound.1
    | found place =>
        have present : tree.root.shape? (parent ++ [last]) ≠ none := by
          rw [← place_eq]
          rcases isSound with isDirectory | ⟨old, isFile⟩
          · simp [Location.place, isDirectory]
          · simp [Location.place, isFile]
        exact Entry.shape?_parent present
  · rw [after_eq, place_eq]

end FileTree

end RbacManifest
