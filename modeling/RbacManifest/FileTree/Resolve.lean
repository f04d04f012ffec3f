import RbacManifest.FileTree
import RbacManifest.FileTree.Path

/-!
# What a path names

A path is followed step by step from the working directory or from the root. Links on the way are
replaced by their targets; `FileTree.resolve` gives the place where the path ends. Every walk ends,
because at most `FileTree.mostLinks` links are followed.
-/

namespace RbacManifest

namespace FileTree

/-- Where a path ends. -/
inductive Location
  /-- An entry of the tree. -/
  | found (place : Place)
  /-- A name that a directory does not have. -/
  | free (directory : Place) (name : String)
  deriving DecidableEq, Repr

/-- Where a walk along steps stops. -/
inductive Stop
  | arrived (location : Location)
  /-- A link in a directory, with its target and the steps behind it. -/
  | atLink (directory : Place) (target : String) (rest : List String)
  | blocked (fault : PathFault)

/-- The greatest number of links on the way of one path. -/
def mostLinks : Nat := 40

/-- The greatest number of bytes of a name. -/
def longestName : Nat := 255

/-- The least number of bytes that is too many for a path. -/
def longPath : Nat := 4096

/-- Walks from a directory along steps up to the first link. A link at the end is followed only
where that is asked for. -/
def walk (root : Entry) (followsLast : Bool) (here : Place) : List String → Stop
  | [] => .arrived (.found here)
  | name :: rest =>
      if name = "." then walk root followsLast here rest
      else if name = ".." then walk root followsLast here.dropLast rest
      else if longestName < name.utf8ByteSize then .blocked .nameTooLong
      else
        let place := here ++ [name]
        match root.at? place with
        | none => if rest.isEmpty then .arrived (.free here name) else .blocked .missing
        | some (.file _) =>
            if rest.isEmpty then .arrived (.found place) else .blocked .notDirectory
        | some (.link target) =>
            if rest.isEmpty && !followsLast then .arrived (.found place)
            else .atLink here target rest
        | some (.directory _) => walk root followsLast place rest

/-- Walks from a directory along steps, following at most the given number of links. -/
def follow (root : Entry) (followsLast : Bool) :
    (links : Nat) → Place → List String → Except PathFault Location
  | links, here, steps =>
      match walk root followsLast here steps with
      | .arrived location => .ok location
      | .blocked fault => .error fault
      | .atLink directory target rest =>
          match links with
          | 0 => .error .tooManyLinks
          | links + 1 =>
              follow root followsLast links (if Path.isAbsolute target then [] else directory)
                (Path.steps target ++ rest)

/-- Where a path ends. A link at its end is followed only where that is asked for. -/
def resolve (followsLast : Bool) (path : String) (tree : FileTree) :
    Except PathFault Location :=
  if path.toList.contains '\x00' then .error .nullCharacter
  else if longPath ≤ path.utf8ByteSize then .error .nameTooLong
  else if path.isEmpty then .error .missing
  else
    follow tree.root followsLast mostLinks (if Path.isAbsolute path then [] else tree.working)
      (Path.steps path)

/-- The entry that a path names. -/
def entry (path : String) (tree : FileTree) : Except PathFault Entry := do
  match ← tree.resolve true path with
  | .found place =>
      match tree.root.at? place with
      | some entry => return entry
      | none => throw .missing
  | .free _ _ => throw .missing

def has (path : String) (tree : FileTree) : Bool :=
  (tree.entry path).toOption.isSome

def hasDirectory (path : String) (tree : FileTree) : Bool :=
  match tree.entry path with
  | .ok (.directory _) => true
  | _ => false

def readFile (path : String) (tree : FileTree) : Except PathFault (List UInt8) := do
  match ← tree.entry path with
  | .file bytes => return bytes
  | .directory _ => throw .isDirectory
  | .link _ => throw .tooManyLinks

/-- The tree with the given bytes in a file, which is made if it does not exist. -/
def writeFile (path : String) (bytes : List UInt8) (tree : FileTree) :
    Except PathFault FileTree := do
  match ← tree.resolve true path with
  | .free directory name =>
      return { tree with root := tree.root.put (directory ++ [name]) (.file bytes) }
  | .found place =>
      match tree.root.at? place with
      | some (.directory _) => throw .isDirectory
      | _ => return { tree with root := tree.root.put place (.file bytes) }

/-- The entries of a directory by their names. -/
def list (path : String) (tree : FileTree) : Except PathFault (List (String × Entry)) := do
  match ← tree.entry path with
  | .directory entries => return entries
  | _ => throw .notDirectory

end FileTree

end RbacManifest
