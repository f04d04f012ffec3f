import RbacManifest.FileTree.Resolve
import RbacManifest.Ordered

/-!
# Editing trees of files

Making directories, files and links, removing them, and listing all that is below a directory.
-/

namespace RbacManifest

namespace FileTree

/-- A tree with a working directory and nothing else. -/
def empty : FileTree where
  root := .directory [("tmp", .directory [("work", .directory [])])]
  working := ["tmp", "work"]

/-- The tree with a directory, unless its path names something already. -/
def makeDirectory (path : String) (tree : FileTree) : FileTree :=
  match tree.resolve true path with
  | .ok (.free directory name) =>
      { tree with root := tree.root.put (directory ++ [name]) (.directory []) }
  | _ => tree

/-- The paths of the directories on the way to what a path names, and the path itself. -/
def onTheWay (path : String) : List String :=
  let root := if Path.isAbsolute path then "/" else ""
  let names := Path.names path
  (List.range names.length).map fun count =>
    root ++ String.intercalate "/" (names.take (count + 1))

/-- The tree with a directory and all directories on the way to it. -/
def makeDirectories (path : String) (tree : FileTree) : FileTree :=
  (onTheWay path).foldl (fun tree path => tree.makeDirectory path) tree

/-- The tree with a file and all directories on the way to it. -/
def makeFile (path : String) (bytes : List UInt8) (tree : FileTree) :
    Except PathFault FileTree :=
  (tree.makeDirectories (Path.parent path)).writeFile path bytes

/-- The tree with a link and all directories on the way to it, unless something has its name. -/
def makeLink (path target : String) (tree : FileTree) : FileTree :=
  let tree := tree.makeDirectories (Path.parent path)
  match tree.resolve false path with
  | .ok (.free directory name) =>
      { tree with root := tree.root.put (directory ++ [name]) (.link target) }
  | _ => tree

/-- The tree without what a path names; a link at the end of the path is removed itself. -/
def remove (path : String) (tree : FileTree) : FileTree :=
  match tree.resolve false path with
  | .ok (.found place) => { tree with root := tree.root.erase place }
  | _ => tree

/-- Whether an entry with a name in the directory of a path is a directory or leads to one. -/
def leadsToDirectory (tree : FileTree) (path name : String) : Bool :=
  tree.hasDirectory (Path.join path name)

mutual

/-- The paths of all that is below the entries of a directory. Directories end with a slash, and
so do links to directories. -/
def below (tree : FileTree) (path : String) : List (String × Entry) → List String
  | [] => []
  | (name, entry) :: rest =>
      let place := Path.join path name
      let written := if tree.leadsToDirectory path name then place ++ "/" else place
      written :: belowEntry tree place entry ++ below tree path rest

/-- The paths of all that is below an entry. -/
def belowEntry (tree : FileTree) (path : String) : Entry → List String
  | .directory entries => below tree path entries
  | _ => []

end

/-- The paths of all that is below a directory, in increasing order. -/
def listAll (path : String) (tree : FileTree) : List String :=
  match tree.list path with
  | .ok entries => Ordered.ofList (below tree path entries)
  | .error _ => []

end FileTree

end RbacManifest
