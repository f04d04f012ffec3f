import Mathlib.Data.List.Nodup
import RbacManifest.Proofs.FileTree.LinkFree

/-!
# Reordered trees of files

The entries of a directory have different names, and they may be listed in any order. Trees that
differ in this order alone have the same at every place, `Entry.IsReordered.hasSame`, so paths
lead to the same places in them, with the same content.
-/

namespace RbacManifest

/-- Whether a text can be the name of an entry of a directory. -/
def Path.IsName (name : String) : Prop :=
  name ≠ "" ∧ '/' ∉ name.toList

instance : DecidablePred Path.IsName :=
  fun name => inferInstanceAs (Decidable (name ≠ "" ∧ '/' ∉ name.toList))

namespace Entry

variable {entry other : Entry} {entries others : List (String × Entry)} {name : String}

/-- Whether the entries of all directories have names, and different ones within one directory. -/
inductive IsWellNamed : Entry → Prop
  | file (bytes : List UInt8) : IsWellNamed (.file bytes)
  | link (target : String) : IsWellNamed (.link target)
  | directory {entries : List (String × Entry)} (distinct : (entries.map (·.1)).Nodup)
      (names : ∀ entry ∈ entries, Path.IsName entry.1)
      (inside : ∀ entry ∈ entries, IsWellNamed entry.2) : IsWellNamed (.directory entries)

/-- Whether two entries differ only in the order in which directories list what is in them. -/
inductive IsReordered : Entry → Entry → Prop
  | file (bytes : List UInt8) : IsReordered (.file bytes) (.file bytes)
  | link (target : String) : IsReordered (.link target) (.link target)
  | directory {entries others : List (String × Entry)}
      (names : (entries.map (·.1)).Perm (others.map (·.1)))
      (inside : ∀ name entry other, (name, entry) ∈ entries → (name, other) ∈ others →
        IsReordered entry other) :
      IsReordered (.directory entries) (.directory others)

/-- Whether two entries have the same at every place below them. -/
def HasSame (entry other : Entry) : Prop :=
  ∀ place, other.shape? place = entry.shape? place

theorem HasSame.shape_eq (same : entry.HasSame other) : other.shape = entry.shape := by
  have atStart := same []
  rwa [shape?_nil, shape?_nil, Option.some.injEq] at atStart

theorem HasSame.at? {inner otherInner : Entry} {place : Place} (same : entry.HasSame other)
    (present : entry.at? place = some inner) (otherPresent : other.at? place = some otherInner) :
    inner.HasSame otherInner := by
  intro more
  have shape?_eq : other.shape? (place ++ more) = entry.shape? (place ++ more) := same _
  simpa only [shape?, at?_append, present, otherPresent, Option.bind_some] using shape?_eq

/-! ## Entries by their names -/

theorem lookup_eq_some_iff (distinct : (entries.map (·.1)).Nodup) :
    entries.lookup name = some entry ↔ (name, entry) ∈ entries := by
  constructor
  · exact mem_of_lookup
  · intro isEntry
    cases found : entries.lookup name with
    | none =>
        have absent := List.lookup_eq_none_iff.mp found (name, entry) isEntry
        simp at absent
    | some inner =>
        have same : (name, inner) = (name, entry) :=
          List.inj_on_of_nodup_map distinct (mem_of_lookup found) isEntry rfl
        cases same
        rfl

theorem exists_lookup_iff (distinct : (entries.map (·.1)).Nodup) :
    (∃ entry, entries.lookup name = some entry) ↔ name ∈ entries.map (·.1) := by
  simp only [lookup_eq_some_iff distinct, List.mem_map, Prod.exists, exists_and_right,
    exists_eq_right]

theorem IsWellNamed.at? {inner : Entry} {place : Place} (wellNamed : entry.IsWellNamed)
    (found : entry.at? place = some inner) : inner.IsWellNamed := by
  induction place generalizing entry with
  | nil =>
      cases found
      exact wellNamed
  | cons name rest ih =>
      rw [at?_cons, Option.bind_eq_some_iff] at found
      rcases found with ⟨next, isNext, found⟩
      cases wellNamed with
      | file bytes => simp [Entry.entries] at isNext
      | link target => simp [Entry.entries] at isNext
      | directory distinct names inside => exact ih (inside _ (mem_of_lookup isNext)) found

theorem IsWellNamed.isName_of_mem {place : Place} (wellNamed : entry.IsWellNamed)
    (present : entry.shape? place ≠ none) : ∀ name ∈ place, Path.IsName name := by
  induction place generalizing entry with
  | nil => simp
  | cons name rest ih =>
      cases wellNamed with
      | file bytes => exact absurd rfl present
      | link target => exact absurd rfl present
      | @directory entries distinct names inside =>
          rw [shape?_cons, entries_directory] at present
          cases found : entries.lookup name with
          | none => simp [found] at present
          | some inner =>
              rw [found, Option.bind_some] at present
              have isEntry : (name, inner) ∈ entries := mem_of_lookup found
              intro step isStep
              rcases List.mem_cons.mp isStep with rfl | isStep
              · exact names _ isEntry
              · exact ih (inside _ isEntry) present step isStep

/-! ## Other orders -/

theorem IsReordered.refl (wellNamed : entry.IsWellNamed) : entry.IsReordered entry := by
  induction wellNamed with
  | file bytes => exact .file bytes
  | link target => exact .link target
  | directory distinct names inside ih =>
      apply IsReordered.directory (List.Perm.refl _)
      intro name entry other isEntry isOther
      have same : (name, entry) = (name, other) :=
        List.inj_on_of_nodup_map distinct isEntry isOther rfl
      cases same
      exact ih (name, entry) isEntry

theorem IsReordered.of_perm (wellNamed : (Entry.directory entries).IsWellNamed)
    (permuted : entries.Perm others) :
    (Entry.directory entries).IsReordered (.directory others) := by
  cases IsReordered.refl wellNamed with
  | directory _ inside =>
      apply IsReordered.directory (permuted.map _)
      intro name entry other isEntry isOther
      exact inside name entry other isEntry (permuted.mem_iff.mpr isOther)

theorem IsReordered.isWellNamed (wellNamed : entry.IsWellNamed)
    (reordered : entry.IsReordered other) : other.IsWellNamed := by
  induction wellNamed generalizing other with
  | file bytes =>
      cases reordered
      exact .file bytes
  | link target =>
      cases reordered
      exact .link target
  | @directory entries distinct names inside ih =>
      cases reordered with
      | @directory _ others permuted reorderedInside =>
          have exists_partner (inner : String × Entry) (isInner : inner ∈ others) :
              ∃ partner ∈ entries, partner.1 = inner.1 := by
            have isName : inner.1 ∈ others.map (·.1) := List.mem_map_of_mem isInner
            exact List.mem_map.mp (permuted.mem_iff.mpr isName)
          apply IsWellNamed.directory (permuted.nodup distinct)
          · intro inner isInner
            rcases exists_partner inner isInner with ⟨partner, isPartner, name_eq⟩
            rw [← name_eq]
            exact names partner isPartner
          · intro inner isInner
            rcases exists_partner inner isInner with ⟨partner, isPartner, name_eq⟩
            apply ih partner isPartner
            apply reorderedInside partner.1 partner.2 inner.2 isPartner
            rw [name_eq]
            exact isInner

/-- The order of entries does not show at any place. -/
theorem IsReordered.hasSame (wellNamed : entry.IsWellNamed)
    (reordered : entry.IsReordered other) : entry.HasSame other := by
  -- Names may be looked up in either order of a directory as they differ, so the induction is on
  -- the place and not on the entries.
  intro place
  induction place generalizing entry other with
  | nil => cases reordered <;> rfl
  | cons name rest ih =>
      cases reordered with
      | file bytes => rfl
      | link target => rfl
      | @directory entries others names inside =>
          cases wellNamed with
          | directory distinct _ innerNamed =>
              have otherDistinct : (others.map (·.1)).Nodup := names.nodup distinct
              rw [shape?_cons, shape?_cons, entries_directory, entries_directory]
              cases found : entries.lookup name with
              | none =>
                  cases otherFound : others.lookup name with
                  | none => rfl
                  | some inner =>
                      have isName := (exists_lookup_iff otherDistinct).mp ⟨inner, otherFound⟩
                      rcases (exists_lookup_iff distinct).mpr (names.mem_iff.mpr isName) with
                        ⟨entry, isFound⟩
                      simp [found] at isFound
              | some inner =>
                  have isName := (exists_lookup_iff distinct).mp ⟨inner, found⟩
                  rcases (exists_lookup_iff otherDistinct).mpr (names.mem_iff.mp isName) with
                    ⟨otherInner, otherFound⟩
                  rw [otherFound, Option.bind_some, Option.bind_some]
                  apply ih (innerNamed _ (mem_of_lookup found))
                  exact inside name inner otherInner (mem_of_lookup found)
                    (mem_of_lookup otherFound)

end Entry

namespace FileTree

/-- Whether two trees differ only in the order in which directories list what is in them. -/
structure IsReordered (tree other : FileTree) : Prop where
  root : tree.root.IsReordered other.root
  working : other.working = tree.working

/-- Whether two trees have the same at every place. -/
structure HasSame (tree other : FileTree) : Prop where
  root : tree.root.HasSame other.root
  working : other.working = tree.working

theorem HasSame.symm {tree other : FileTree} (same : tree.HasSame other) : other.HasSame tree where
  root place := (same.root place).symm
  working := same.working.symm

theorem IsReordered.hasSame {tree other : FileTree} (wellNamed : tree.root.IsWellNamed)
    (reordered : tree.IsReordered other) : tree.HasSame other where
  root := reordered.root.hasSame wellNamed
  working := reordered.working

section Entries

variable {tree : FileTree} {path : String}

theorem entry_of_error {fault : PathFault} (failed : tree.resolve true path = .error fault) :
    tree.entry path = .error fault := by
  rw [entry, failed]
  rfl

theorem entry_of_free {directory : Place} {name : String}
    (resolved : tree.resolve true path = .ok (.free directory name)) :
    tree.entry path = .error .missing := by
  rw [entry, resolved]
  rfl

theorem entry_of_absent {place : Place} (resolved : tree.resolve true path = .ok (.found place))
    (absent : tree.root.at? place = none) : tree.entry path = .error .missing := by
  rw [entry, resolved]
  simp [bind, Except.bind, absent, throw, throwThe, MonadExceptOf.throw]

theorem list_of_directory {entries : List (String × Entry)}
    (found : tree.entry path = .ok (.directory entries)) : tree.list path = .ok entries := by
  rw [list, found]
  rfl

theorem list_of_leaf {inner : Entry} (found : tree.entry path = .ok inner)
    (leaf : inner.shape ≠ .directory) : tree.list path = .error .notDirectory := by
  rw [list, found]
  cases inner with
  | file bytes => rfl
  | link target => rfl
  | directory entries => exact absurd rfl leaf

end Entries

namespace HasSame

variable {tree other : FileTree} {followsLast : Bool} {path : String}

theorem walk_eq (same : tree.HasSame other) (here : Place) (steps : List String) :
    walk other.root followsLast here steps = walk tree.root followsLast here steps := by
  induction steps generalizing here with
  | nil => rfl
  | cons name rest ih =>
      have next : other.root.shape? (here ++ [name]) = tree.root.shape? (here ++ [name]) :=
        same.root _
      rw [walk_cons, walk_cons, next, ih, ih, ih]

theorem follow_eq (same : tree.HasSame other) (links : Nat) (here : Place) (steps : List String) :
    follow other.root followsLast links here steps =
      follow tree.root followsLast links here steps := by
  induction links generalizing here steps with
  | zero => rw [follow, follow, same.walk_eq]
  | succ links ih =>
      rw [follow, follow, same.walk_eq]
      split
      · rfl
      · rfl
      · exact ih _ _

theorem resolve_eq (same : tree.HasSame other) :
    other.resolve followsLast path = tree.resolve followsLast path := by
  rw [resolve, resolve, same.follow_eq, same.working]

/-- A path names nothing in both trees, or what has the same at every place below it. -/
theorem entry_cases (same : tree.HasSame other) (path : String) :
    (∃ fault, tree.entry path = .error fault ∧ other.entry path = .error fault) ∨
      ∃ inner otherInner, tree.entry path = .ok inner ∧ other.entry path = .ok otherInner ∧
        inner.HasSame otherInner := by
  have resolve_eq : other.resolve true path = tree.resolve true path := same.resolve_eq
  cases resolved : tree.resolve true path with
  | error fault =>
      left
      rw [resolved] at resolve_eq
      exact ⟨fault, entry_of_error resolved, entry_of_error resolve_eq⟩
  | ok location =>
      rw [resolved] at resolve_eq
      cases location with
      | free directory name =>
          left
          exact ⟨.missing, entry_of_free resolved, entry_of_free resolve_eq⟩
      | found place =>
          have shape?_eq : (other.root.at? place).map Entry.shape =
              (tree.root.at? place).map Entry.shape := same.root place
          cases present : tree.root.at? place with
          | none =>
              left
              rw [present, Option.map_none, Option.map_eq_none_iff] at shape?_eq
              refine ⟨.missing, entry_of_absent resolved present, ?_⟩
              exact entry_of_absent resolve_eq shape?_eq
          | some inner =>
              right
              rw [present, Option.map_some, Option.map_eq_some_iff] at shape?_eq
              rcases shape?_eq with ⟨otherInner, otherPresent, _⟩
              refine ⟨inner, otherInner, ?_, ?_, same.root.at? present otherPresent⟩
              · exact entry_eq_ok_iff.mpr ⟨place, resolved, present⟩
              · exact entry_eq_ok_iff.mpr ⟨place, resolve_eq, otherPresent⟩

theorem readFile_eq (same : tree.HasSame other) (path : String) :
    other.readFile path = tree.readFile path := by
  rcases same.entry_cases path with ⟨fault, failed, otherFailed⟩ |
    ⟨inner, otherInner, found, otherFound, sameInner⟩
  · rw [readFile, readFile, failed, otherFailed]
  · have shape_eq := sameInner.shape_eq
    rw [readFile, readFile, found, otherFound]
    cases inner <;> cases otherInner <;> cases shape_eq <;> rfl

theorem hasDirectory_eq (same : tree.HasSame other) (path : String) :
    other.hasDirectory path = tree.hasDirectory path := by
  rcases same.entry_cases path with ⟨fault, failed, otherFailed⟩ |
    ⟨inner, otherInner, found, otherFound, sameInner⟩
  · rw [hasDirectory, hasDirectory, failed, otherFailed]
  · have shape_eq := sameInner.shape_eq
    rw [hasDirectory, hasDirectory, found, otherFound]
    cases inner <;> cases otherInner <;> cases shape_eq <;> rfl

/-- A directory is listed in both trees with the same at every place below it, or in neither. -/
theorem list_cases (same : tree.HasSame other) (path : String) :
    (∃ fault, tree.list path = .error fault ∧ other.list path = .error fault) ∨
      ∃ entries others, tree.list path = .ok entries ∧ other.list path = .ok others ∧
        (Entry.directory entries).HasSame (.directory others) := by
  rcases same.entry_cases path with ⟨fault, failed, otherFailed⟩ |
    ⟨inner, otherInner, found, otherFound, sameInner⟩
  · left
    refine ⟨fault, ?_, ?_⟩
    · rw [list, failed]
      rfl
    · rw [list, otherFailed]
      rfl
  · have shape_eq := sameInner.shape_eq
    by_cases isDirectory : inner.shape = .directory
    · right
      rcases Entry.shape_eq_directory_iff.mp isDirectory with ⟨entries, rfl⟩
      rcases Entry.shape_eq_directory_iff.mp (shape_eq.trans isDirectory) with ⟨others, rfl⟩
      exact ⟨entries, others, list_of_directory found, list_of_directory otherFound, sameInner⟩
    · left
      refine ⟨.notDirectory, list_of_leaf found isDirectory, list_of_leaf otherFound ?_⟩
      rw [shape_eq]
      exact isDirectory

end HasSame

end FileTree

end RbacManifest
