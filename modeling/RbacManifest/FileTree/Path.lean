import RbacManifest.Text.Split

/-!
# Paths

A path names a file or a directory by the names on the way to it, with slashes between them. This
file takes paths apart and puts them together; what they name is decided by a tree of files.
-/

namespace RbacManifest

namespace Path

/-- Whether a path starts at the root and not at the working directory. -/
def isAbsolute (path : String) : Bool :=
  path.toList.head? = some '/'

/-- The names between the slashes of a path, without empty ones. -/
def names (path : String) : List String :=
  ((Text.pieces '/' path.toList).filter (!·.isEmpty)).map String.ofList

/-- The steps of a path: its names, and one more step that stays in place if the path ends with a
slash, because such a path can only name a directory. -/
def steps (path : String) : List String :=
  names path ++ (if path.toList.getLast? = some '/' then ["."] else [])

/-- A path continued by another one. An absolute path continues nothing. -/
def join (path more : String) : String :=
  if isAbsolute more then more
  else if path.isEmpty || path.toList.getLast? = some '/' then path ++ more
  else path ++ "/" ++ more

/-- A path without empty names, steps that stay in place and slashes at its end. -/
def normalized (path : String) : String :=
  let root :=
    match path.toList with
    | '/' :: '/' :: '/' :: _ => "/"
    | '/' :: '/' :: _ => "//"
    | '/' :: _ => "/"
    | _ => ""
  let text := root ++ String.intercalate "/" ((names path).filter (· ≠ "."))
  if text.isEmpty then "." else text

/-- The path without its last name and the slashes around it. -/
def parent (path : String) : String :=
  let before := (path.toList.reverse.dropWhile (· ≠ '/'))
  let stripped := before.dropWhile (· = '/')
  String.ofList (if stripped.isEmpty then before else stripped).reverse

/-- The last name of a path, which is empty if the path ends with a slash. -/
def fileName (path : String) : List Char :=
  (path.toList.reverse.takeWhile (· ≠ '/')).reverse

/-- The ending of a path from the last dot of its last name on. Dots at the start of the name
begin no ending. -/
def extension (path : String) : String :=
  let reversed := ((fileName path).dropWhile (· = '.')).reverse
  if reversed.contains '.' then
    String.ofList ('.' :: (reversed.takeWhile (· ≠ '.')).reverse)
  else ""

end Path

end RbacManifest
