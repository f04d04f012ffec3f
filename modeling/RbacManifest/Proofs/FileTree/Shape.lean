import Mathlib.Data.List.Basic
import RbacManifest.FileTree.Resolve

/-!
# Places of a tree of files

A tree of files is seen here place by place: at a place there is a file with its bytes, a link with
its target, a directory, or nothing. `Entry.shape?_put` says what putting a file at a place does to
this view: that place holds the file, and every other place is as it was.
-/

namespace RbacManifest

/-- What stands at a place, without what is inside it. -/
inductive Shape
  | file (bytes : List UInt8)
  | link (target : String)
  | directory
  deriving DecidableEq, Repr

namespace Entry

/-- What an entry is, without what is inside it. -/
def shape : Entry → Shape
  | file bytes => .file bytes
  | link target => .link target
  | directory _ => .directory

/-- What stands at a place below an entry. -/
def shape? (place : Place) (entry : Entry) : Option Shape :=
  (entry.at? place).map shape

@[simp]
theorem shape_eq_directory_iff {entry : Entry} :
    entry.shape = .directory ↔ ∃ entries, entry = directory entries := by
  cases entry <;> simp [shape]

@[simp]
theorem entries_directory {entries : List (String × Entry)} :
    (directory entries).entries = entries := rfl

theorem lookup_cons {name other : String} {entry : Entry} {entries : List (String × Entry)} :
    ((name, entry) :: entries).lookup other =
      if other = name then some entry else entries.lookup other := by
  by_cases same : other = name
  · simp [same]
  · simp [List.lookup_cons, same, beq_false_of_ne same]

theorem lookup_replace {name other : String} {new : Entry} {entries : List (String × Entry)} :
    (replace name new entries).lookup other =
      if other = name then some new else entries.lookup other := by
  induction entries with
  | nil => simp [replace, lookup_cons]
  | cons entry rest ih =>
      rcases entry with ⟨first, old⟩
      simp only [replace]
      split
      · next same =>
        subst same
        simp only [lookup_cons]
        split <;> rfl
      · next differs =>
        simp only [lookup_cons, ih]
        by_cases same : other = first
        · subst same
          simp [differs]
        · simp [same]

@[simp]
theorem at?_nil {entry : Entry} : entry.at? [] = some entry := rfl

theorem at?_cons {name : String} {place : Place} {entry : Entry} :
    entry.at? (name :: place) = (entry.entries.lookup name).bind (at? place) := rfl

theorem at?_append {place more : Place} {entry : Entry} :
    entry.at? (place ++ more) = (entry.at? place).bind (at? more) := by
  induction place generalizing entry with
  | nil => rfl
  | cons name rest ih =>
      simp only [List.cons_append, at?_cons]
      cases entry.entries.lookup name with
      | none => rfl
      | some inner => exact ih

theorem shape?_nil {entry : Entry} : entry.shape? [] = some entry.shape := rfl

theorem shape?_cons {name : String} {place : Place} {entry : Entry} :
    entry.shape? (name :: place) = (entry.entries.lookup name).bind (shape? place) := by
  rw [shape?, at?_cons]
  cases entry.entries.lookup name <;> rfl

theorem shape?_directory_iff {entry : Entry} {place : Place} :
    entry.shape? place = some .directory ↔
      ∃ entries, entry.at? place = some (directory entries) := by
  simp only [shape?, Option.map_eq_some_iff, shape_eq_directory_iff]
  constructor
  · rintro ⟨_, found, entries, rfl⟩
    exact ⟨entries, found⟩
  · rintro ⟨entries, found⟩
    exact ⟨_, found, entries, rfl⟩

theorem shape?_file_iff {entry : Entry} {place : Place} {bytes : List UInt8} :
    entry.shape? place = some (.file bytes) ↔ entry.at? place = some (file bytes) := by
  rw [shape?]
  cases entry.at? place with
  | none => simp
  | some found => cases found <;> simp [shape]

/-- Below what is no directory there is nothing. -/
theorem shape?_cons_of_leaf {name : String} {place : Place} {entry : Entry}
    (leaf : entry.shape ≠ .directory) : entry.shape? (name :: place) = none := by
  cases entry with
  | file bytes => rfl
  | link target => rfl
  | directory entries => exact absurd rfl leaf

/-- What has something inside it is a directory. -/
theorem shape?_parent {parent : Place} {name : String} {entry : Entry}
    (present : entry.shape? (parent ++ [name]) ≠ none) :
    entry.shape? parent = some .directory := by
  simp only [shape?, at?_append] at present ⊢
  cases found : entry.at? parent with
  | none => simp [found] at present
  | some inner =>
      cases inner with
      | file bytes => simp [found, at?, entries] at present
      | link target => simp [found, at?, entries] at present
      | directory entries => rfl

theorem put_singleton {name : String} {new entry : Entry} :
    entry.put [name] new = directory (replace name new entry.entries) := by
  simp only [put]
  split <;> rfl

theorem shape_put {place : Place} {entry new : Entry} (below : place ≠ []) :
    (entry.put place new).shape = .directory := by
  cases place with
  | nil => exact absurd rfl below
  | cons name rest =>
      rw [put]
      split <;> rfl

theorem replace_of_lookup {name : String} {old : Entry} {entries : List (String × Entry)}
    (found : entries.lookup name = some old) : replace name old entries = entries := by
  induction entries with
  | nil => simp at found
  | cons first rest ih =>
      rcases first with ⟨other, entry⟩
      rw [lookup_cons] at found
      rw [replace]
      split at found
      · next same =>
        cases found
        rw [if_pos same.symm]
      · next differs => rw [if_neg (Ne.symm differs), ih found]

theorem eq_directory_of_lookup {name : String} {old entry : Entry}
    (found : entry.entries.lookup name = some old) : entry = directory entry.entries := by
  cases entry with
  | file bytes => simp [entries] at found
  | link target => simp [entries] at found
  | directory entries => rfl

/-- Putting at a place what stands there changes nothing. -/
theorem put_of_at? {place : Place} {entry present : Entry}
    (found : entry.at? place = some present) : entry.put place present = entry := by
  induction place generalizing entry with
  | nil => exact (Option.some.inj found).symm
  | cons name rest ih =>
      rw [at?_cons, Option.bind_eq_some_iff] at found
      rcases found with ⟨inner, isInner, found⟩
      simp only [put, isInner]
      rw [ih found, replace_of_lookup isInner]
      exact (eq_directory_of_lookup isInner).symm

/-- Putting a file where a directory may have one changes that place and no other. -/
theorem shape?_put {parent : Place} {name : String} {entry : Entry}
    (isDirectory : entry.shape? parent = some .directory)
    (notDirectory : entry.shape? (parent ++ [name]) ≠ some .directory) (bytes : List UInt8)
    (other : Place) :
    (entry.put (parent ++ [name]) (.file bytes)).shape? other =
      if other = parent ++ [name] then some (.file bytes) else entry.shape? other := by
  induction parent generalizing entry other with
  | nil =>
      rcases shape?_directory_iff.mp isDirectory with ⟨entries, found⟩
      simp only [at?_nil, Option.some.injEq] at found
      subst found
      simp only [List.nil_append, put_singleton]
      cases other with
      | nil => simp [shape?_nil, shape]
      | cons first rest =>
          simp only [shape?_cons, entries_directory, lookup_replace]
          by_cases same : first = name
          · subst same
            cases rest with
            | nil => simp [shape?_nil, shape]
            | cons second rest =>
                -- The place lay below the file's own place, where no directory was.
                have nothing : (entries.lookup first).bind (shape? (second :: rest)) = none := by
                  cases old : entries.lookup first with
                  | none => rfl
                  | some inner =>
                      apply shape?_cons_of_leaf
                      intro isDirectory
                      apply notDirectory
                      simp [shape?_cons, old, shape?_nil, isDirectory]
                have nothing_new : shape? (second :: rest) (file bytes) = none :=
                  shape?_cons_of_leaf (by simp [shape])
                simp [nothing, nothing_new]
          · simp [same]
  | cons first parent ih =>
      simp only [shape?_cons] at isDirectory
      cases found : entry.entries.lookup first with
      | none => simp [found] at isDirectory
      | some inner =>
          simp only [found, Option.bind_some] at isDirectory
          have innerNotDirectory : inner.shape? (parent ++ [name]) ≠ some .directory := by
            simpa [shape?_cons, found] using notDirectory
          have hasEntries : entry.shape = .directory := by
            cases entry with
            | file bytes => simp [Entry.entries] at found
            | link target => simp [Entry.entries] at found
            | directory entries => rfl
          simp only [List.cons_append, put, found]
          cases other with
          | nil =>
              rw [shape?_nil, shape?_nil, hasEntries]
              simp [shape]
          | cons second rest =>
              simp only [shape?_cons, entries_directory, lookup_replace]
              by_cases same : second = first
              · subst same
                simp only [if_true, Option.bind_some, ih isDirectory innerNotDirectory, found,
                  List.cons.injEq, true_and]
              · simp [same]

end Entry

namespace FileTree

/-- What stands at a place of a tree. -/
def shape? (tree : FileTree) (place : Place) : Option Shape :=
  tree.root.shape? place

end FileTree

end RbacManifest
