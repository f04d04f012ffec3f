import RbacManifest.Text.Quoted

/-!
# Trees of files

A tree of files consists of directories, files and symbolic links, and one of its directories is
the working directory. A place is the row of names from the root to an entry, without links on
the way. `Entry.at?` and `Entry.put` read and change what stands at a place.
-/

namespace RbacManifest

inductive Entry
  | file (bytes : List UInt8)
  | link (target : String)
  | directory (entries : List (String × Entry))

/-- The names from the root to an entry. -/
abbrev Place := List String

namespace Entry

/-- The entries of a directory; what is no directory has none. -/
def entries : Entry → List (String × Entry)
  | directory entries => entries
  | _ => []

def at? (place : Place) (entry : Entry) : Option Entry :=
  match place with
  | [] => some entry
  | name :: rest => (entry.entries.lookup name).bind (at? rest)

/-- The entries of a directory, where the entry with a name is replaced, or added at the end. -/
def replace (name : String) (new : Entry) : List (String × Entry) → List (String × Entry)
  | [] => [(name, new)]
  | (other, old) :: rest =>
      if other = name then (other, new) :: rest else (other, old) :: replace name new rest

/-- An entry with another one put at a place below it. The directories on the way must exist. -/
def put (entry : Entry) (place : Place) (new : Entry) : Entry :=
  match place with
  | [] => new
  | name :: rest =>
      match entry.entries.lookup name with
      | some old => directory (replace name (put old rest new) entry.entries)
      | none => directory (replace name new entry.entries)

/-- An entry without what stands at a place below it. -/
def erase (place : Place) (entry : Entry) : Entry :=
  match place with
  | [] => entry
  | [name] => directory (entry.entries.filter (·.1 ≠ name))
  | name :: rest =>
      match entry.entries.lookup name with
      | some old => directory (replace name (erase rest old) entry.entries)
      | none => entry

def isDirectory : Entry → Bool
  | directory _ => true
  | _ => false

end Entry

/-- A tree of files with a working directory. -/
structure FileTree where
  root : Entry
  working : Place

/-- Why a path cannot be used. -/
inductive PathFault
  | missing
  /-- A step leads on from what is no directory, or a directory is expected. -/
  | notDirectory
  /-- A file is expected. -/
  | isDirectory
  /-- More links are on the way than are followed. -/
  | tooManyLinks
  | nameTooLong
  /-- The path holds a character that no path can hold. -/
  | nullCharacter
  deriving DecidableEq, Repr

namespace PathFault

/-- The name of a fault. -/
def reason : PathFault → String
  | missing => "No such file or directory"
  | notDirectory => "Not a directory"
  | isDirectory => "Is a directory"
  | tooManyLinks => "Too many levels of symbolic links"
  | nameTooLong => "File name too long"
  | nullCharacter => "embedded null byte"

/-- The standard number of a fault. -/
def number : PathFault → Nat
  | missing => 2
  | notDirectory => 20
  | isDirectory => 21
  | nameTooLong => 36
  | tooManyLinks => 40
  | nullCharacter => 22

def message (path : String) : PathFault → String
  | nullCharacter => nullCharacter.reason
  | fault => s!"[Errno {fault.number}] {fault.reason}: {Text.quoted path}"

end PathFault

end RbacManifest
