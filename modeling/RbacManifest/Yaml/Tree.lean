import RbacManifest.Yaml.Token

/-!
# The tree of a document

`Tree.ofTokens` reads the one document that a row of tokens may hold. Its tree still has aliases
in it, and the tags of its values are only those that are written in the document.

Empty places count as values: behind a dash, on either side of a colon, and behind properties.
-/

namespace RbacManifest

namespace Yaml

/-- What can stand in front of a value. -/
structure Properties where
  /-- The name by which aliases refer to the value. -/
  anchor : Option String := none
  tag : Option String := none
  deriving DecidableEq, Repr

/-- A value of a document. -/
inductive Tree
  | alias (name : String)
  | scalar (properties : Properties) (text : List Char) (isPlain : Bool)
  | list (properties : Properties) (items : List Tree)
  | mapping (properties : Properties) (entries : List (Tree × Tree))

namespace Tree

/-- The value of an empty place. -/
def blank : Tree := scalar {} [] true

/-- The meanings of the handles that stand in front of tags. -/
abbrev Handles := List (String × String)

/-- The meanings that handles have unless a directive says otherwise. -/
def standardHandles : Handles := [("!", "!"), ("!!", "tag:yaml.org,2002:")]

/-- The fault of a row that goes on with the wrong token. -/
def unexpected (tokens : List Token) : Fault :=
  match tokens with
  | .bad fault :: _ => fault
  | _ => .malformed

/-- The tag that a handle and a suffix make. -/
def fullTag (handles : Handles) (handle : Option String) (suffix : String) : Except Fault String :=
  match handle with
  | none => .ok suffix
  | some handle =>
      match handles.lookup handle with
      | some meaning => .ok (meaning ++ suffix)
      | none => .error .malformed

/-- Reads the properties in front of a value: an anchor, a tag, or both in either order. An anchor
is looked for behind a tag before the meaning of its handle is. -/
def properties (handles : Handles) : List Token → Except Fault (Properties × List Token)
  | .anchor name :: .tag handle suffix :: rest => do
      return ({ anchor := some name, tag := some (← fullTag handles handle suffix) }, rest)
  | .tag handle suffix :: .anchor name :: rest => do
      return ({ anchor := some name, tag := some (← fullTag handles handle suffix) }, rest)
  | .anchor name :: rest => .ok ({ anchor := some name }, rest)
  | .tag _ _ :: .bad fault :: _ => .error fault
  | .tag handle suffix :: rest => do
      return ({ tag := some (← fullTag handles handle suffix) }, rest)
  | rest => .ok ({}, rest)

/-- Which collections a value may be, where it stands. -/
inductive Place
  /-- Inside brackets: only those with brackets. -/
  | inFlow
  /-- Also those that are given by indentation. -/
  | inBlock
  /-- Also a list whose dashes stand no further right than the mapping around it. -/
  | inMapping
  deriving DecidableEq, Repr

/-- Whether a row goes on with one of the given tokens. -/
def atAny (stops : List Token) : List Token → Bool
  | [] => false
  | token :: _ => stops.contains token

/-- The value behind properties where no value follows: an empty one. Without properties a value
may not be missing. -/
def missing (properties : Properties) (rest : List Token) : Except Fault (Tree × List Token) :=
  if properties.anchor.isSome || properties.tag.isSome then
    .ok (.scalar properties [] true, rest)
  else .error (unexpected rest)

/-- The tokens behind the comma that stands between two members in brackets. -/
def behindComma (isFirst : Bool) (tokens : List Token) : Except Fault (List Token) :=
  match isFirst, tokens with
  | true, tokens => .ok tokens
  | false, .comma :: rest => .ok rest
  | false, tokens => .error (unexpected tokens)

mutual

def value (handles : Handles) (place : Place) :
    (fuel : Nat) → List Token → Except Fault (Tree × List Token)
  | 0, tokens => .error (unexpected tokens)
  | _ + 1, .alias name :: rest => .ok (.alias name, rest)
  | fuel + 1, tokens => do
      let (properties, tokens) ← properties handles tokens
      match place, tokens with
      | _, .scalar text isPlain :: rest => return (.scalar properties text isPlain, rest)
      | _, .listStart :: rest =>
          let (items, rest) ← flowItems handles true fuel rest
          return (.list properties items, rest)
      | _, .mappingStart :: rest =>
          let (entries, rest) ← flowEntries handles true fuel rest
          return (.mapping properties entries, rest)
      | .inMapping, .entry :: rest =>
          let (items, rest) ← items handles false fuel (.entry :: rest)
          return (.list properties items, rest)
      | .inFlow, tokens => missing properties tokens
      | _, .blockList :: rest =>
          let (items, rest) ← items handles true fuel rest
          return (.list properties items, rest)
      | _, .blockMapping :: rest =>
          let (entries, rest) ← entries handles fuel rest
          return (.mapping properties entries, rest)
      | _, tokens => missing properties tokens

/-- Reads a value, unless the row goes on with a token that leaves its place empty. -/
def part (handles : Handles) (place : Place) (stops : List Token) :
    (fuel : Nat) → List Token → Except Fault (Tree × List Token)
  | 0, tokens => .error (unexpected tokens)
  | fuel + 1, tokens =>
      if atAny stops tokens then .ok (blank, tokens) else value handles place fuel tokens

/-- Reads the members of a list behind dashes. A list whose dashes stand further right than the
collection around it has an end of its own. -/
def items (handles : Handles) (isIndented : Bool) :
    (fuel : Nat) → List Token → Except Fault (List Tree × List Token)
  | 0, tokens => .error (unexpected tokens)
  | fuel + 1, .entry :: tokens => do
      let stops := if isIndented then [.entry, .blockEnd] else [.entry, .key, .value, .blockEnd]
      let (item, rest) ← part handles .inBlock stops fuel tokens
      let (items, rest) ← items handles isIndented fuel rest
      return (item :: items, rest)
  | _ + 1, tokens =>
      match isIndented, tokens with
      | false, tokens => .ok ([], tokens)
      | true, .blockEnd :: rest => .ok ([], rest)
      | true, tokens => .error (unexpected tokens)

/-- Reads the entries of a mapping that is given by indentation. -/
def entries (handles : Handles) :
    (fuel : Nat) → List Token → Except Fault (List (Tree × Tree) × List Token)
  | fuel + 1, .key :: tokens => do
      let (entry, rest) ← pair handles .inMapping [.key, .value, .blockEnd] fuel tokens
      let (entries, rest) ← entries handles fuel rest
      return (entry :: entries, rest)
  | _ + 1, .blockEnd :: rest => .ok ([], rest)
  | _, tokens => .error (unexpected tokens)

/-- Reads a key and the value behind its colon; the colon may be missing. -/
def pair (handles : Handles) (place : Place) (stops : List Token) :
    (fuel : Nat) → List Token → Except Fault ((Tree × Tree) × List Token)
  | 0, tokens => .error (unexpected tokens)
  | fuel + 1, tokens => do
      let (key, rest) ← part handles place stops fuel tokens
      match rest with
      | .value :: rest =>
          let (value, rest) ← part handles place (stops.filter fun stop =>
            place = .inMapping ∨ stop ≠ .value) fuel rest
          return ((key, value), rest)
      | rest => return ((key, blank), rest)

/-- Reads the members of a list in brackets. -/
def flowItems (handles : Handles) (isFirst : Bool) :
    (fuel : Nat) → List Token → Except Fault (List Tree × List Token)
  | 0, tokens => .error (unexpected tokens)
  | _ + 1, .listEnd :: rest => .ok ([], rest)
  | fuel + 1, tokens => do
      match ← behindComma isFirst tokens with
      | .listEnd :: rest => return ([], rest)
      | .key :: rest =>
          let (entry, rest) ← pair handles .inFlow [.value, .comma, .listEnd] fuel rest
          let (items, rest) ← flowItems handles false fuel rest
          return (.mapping {} [entry] :: items, rest)
      | tokens =>
          let (item, rest) ← value handles .inFlow fuel tokens
          let (items, rest) ← flowItems handles false fuel rest
          return (item :: items, rest)

/-- Reads the entries of a mapping in braces. -/
def flowEntries (handles : Handles) (isFirst : Bool) :
    (fuel : Nat) → List Token → Except Fault (List (Tree × Tree) × List Token)
  | 0, tokens => .error (unexpected tokens)
  | _ + 1, .mappingEnd :: rest => .ok ([], rest)
  | fuel + 1, tokens => do
      match ← behindComma isFirst tokens with
      | .mappingEnd :: rest => return ([], rest)
      | .key :: rest =>
          let (entry, rest) ← pair handles .inFlow [.value, .comma, .mappingEnd] fuel rest
          let (entries, rest) ← flowEntries handles false fuel rest
          return (entry :: entries, rest)
      | tokens =>
          let (key, rest) ← value handles .inFlow fuel tokens
          let (entries, rest) ← flowEntries handles false fuel rest
          return ((key, blank) :: entries, rest)

end

/-- A number of steps that reading a value from a row never exceeds: between two tokens there are
at most three steps. -/
def steps (tokens : List Token) : Nat := 3 * tokens.length + 3

/-- What the directives in front of a document say. -/
structure Directives where
  /-- Whether the version is stated. -/
  hasVersion : Bool := false
  handles : Handles := []

/-- Reads the directives in front of a document. -/
def directives (found : Directives) : List Token → Except Fault (Handles × List Token)
  | .version major :: rest =>
      if found.hasVersion || major ≠ 1 then .error .malformed
      else directives { found with hasVersion := true } rest
  | .tagHandle handle meaning :: rest =>
      if (found.handles.lookup handle).isSome then .error .malformed
      else directives { found with handles := (handle, meaning) :: found.handles } rest
  | .directive :: rest => directives found rest
  | rest => .ok (found.handles ++ standardHandles, rest)

/-- The tokens behind the marks that end documents. -/
def skipEnds : List Token → List Token
  | .documentEnd :: rest => skipEnds rest
  | rest => rest

/-- Reads the content of a document that begins with a mark. -/
def content (handles : Handles) (tokens : List Token) : Except Fault (Tree × List Token) :=
  match tokens with
  | [] => .ok (blank, [])
  | .version _ :: _ | .tagHandle _ _ :: _ | .directive :: _ | .documentStart :: _
  | .documentEnd :: _ => .ok (blank, tokens)
  | _ => value handles .inBlock (steps tokens) tokens

/-- Reads a document, if there is one. -/
def document? (tokens : List Token) : Except Fault (Option Tree × List Token) :=
  match tokens with
  | [] => .ok (none, [])
  | .version _ :: _ | .tagHandle _ _ :: _ | .directive :: _ | .documentStart :: _ => do
      let (handles, rest) ← directives {} tokens
      match rest with
      | .documentStart :: rest =>
          let (tree, rest) ← content handles rest
          return (some tree, rest)
      | rest => throw (unexpected rest)
  | _ => do
      let (tree, rest) ← value standardHandles .inBlock (steps tokens) tokens
      return (some tree, rest)

/-- The only document of a row of tokens. The directives in front of a second one are read before it
is known to be one. -/
def onlyDocument? (tokens : List Token) : Except Fault (Option Tree) := do
  let (tree, rest) ← document? tokens
  match skipEnds rest with
  | [] => return tree
  | rest =>
      let (_, rest) ← directives {} rest
      throw (unexpected rest)

/-- Whether a row goes on with a place where the text is no token. -/
def atBad : List Token → Bool
  | .bad _ :: _ => true
  | _ => false

/-- Whether the value behind an anchor is not seen, because the row breaks off behind the anchor and
its tag. -/
def isUnseen : List Token → Bool
  | .tag _ _ :: rest => atBad rest
  | rest => atBad rest

/-- Whether an alias in a row names what no anchor before it names, or an anchor takes a name that
is taken. An anchor takes its name when the value behind it is seen. -/
def misnames (taken : List String) : List Token → Bool
  | [] => false
  | .alias name :: rest => !taken.contains name || misnames taken rest
  | .anchor name :: rest =>
      (taken.contains name && !isUnseen rest) || misnames (name :: taken) rest
  | _ :: rest => misnames taken rest

/-- The document that a row of tokens holds; `none` if it holds none. More than one document is
no document. In a row that breaks off, wrong names are found before the place where it does. -/
def ofTokens? (tokens : List Token) : Except Fault (Option Tree) :=
  (onlyDocument? tokens).mapError fun fault =>
    if misnames [] tokens then .malformed else fault

end Tree

end Yaml

end RbacManifest
