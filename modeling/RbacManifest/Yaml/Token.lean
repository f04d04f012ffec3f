import RbacManifest.Yaml.Fault

/-!
# Tokens of a document

A document is a row of tokens: the indicators of its collections, and values with the properties
in front of them. What begins as a value may turn out to be the key of a mapping when a colon
follows it on the same line. The row is therefore first read with a mark at every place where a
key could begin, and each colon names the mark of its key; `Token.ofLexemes` then puts the tokens
for keys in place of these marks.

A token at a mark is not given away before it is known whether a key begins there. Where the text
stops being a row of tokens in the meantime, the row ends at the mark.
-/

namespace RbacManifest

namespace Yaml

inductive Token
  /-- The version directive, with the first part of the version. -/
  | version (major : Nat)
  /-- A directive that gives a handle for tags a meaning. -/
  | tagHandle (handle meaning : String)
  /-- A directive without a meaning. -/
  | directive
  | documentStart
  | documentEnd
  | blockList
  | blockMapping
  /-- The end of a list or a mapping that is given by indentation. -/
  | blockEnd
  | listStart
  | listEnd
  | mappingStart
  | mappingEnd
  /-- The dash before a member of a list. -/
  | entry
  | comma
  | key
  | value
  | alias (name : String)
  | anchor (name : String)
  | tag (handle : Option String) (suffix : String)
  /-- A single value. -/
  | scalar (text : List Char) (isPlain : Bool)
  /-- A place where the text is no token. -/
  | bad (fault : Fault)
  deriving DecidableEq, Repr

/-- A token, or a mark in the row of tokens. -/
inductive Lexeme
  | token (token : Token)
  /-- A place where a key could begin, numbered by the characters before it. -/
  | mark (index : Nat)
  /-- The colon behind a key, with the mark where the key began and whether a mapping begins
  there too. -/
  | colon (index : Nat) (opensMapping : Bool)
  /-- A place where the text is no token, with the first mark at which a key could still have
  begun. -/
  | broken (awaited : Option Nat) (fault : Fault)
  deriving DecidableEq, Repr

namespace Token

/-- The tokens of a row, and the marks that are named in it: by colons, which say whether a mapping
begins there too, or by the fault at which the row breaks off. -/
def resolve : List Lexeme → List Token × List (Nat × Except Fault Bool)
  | [] => ([], [])
  | .token token :: rest =>
      let (tokens, keys) := resolve rest
      (token :: tokens, keys)
  | .mark index :: rest =>
      let (tokens, keys) := resolve rest
      match keys.lookup index with
      | some (.ok true) => (.blockMapping :: .key :: tokens, keys)
      | some (.ok false) => (.key :: tokens, keys)
      | some (.error fault) => ([.bad fault], keys)
      | none => (tokens, keys)
  | .colon index opensMapping :: rest =>
      let (tokens, keys) := resolve rest
      (.value :: tokens, (index, .ok opensMapping) :: keys)
  | .broken awaited fault :: _ =>
      ([.bad fault], awaited.toList.map fun index => (index, .error fault))

/-- The tokens of a row. -/
def ofLexemes (lexemes : List Lexeme) : List Token :=
  (resolve lexemes).1

end Token

end Yaml

end RbacManifest
