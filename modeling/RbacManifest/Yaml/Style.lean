import RbacManifest.Yaml.Tag

/-!
# How single values are written

A value is written without quotes if that leaves no doubt about its type and its characters, with
apostrophes if all of its characters can stand for themselves, and otherwise with double quotes
and escapes. The choice depends on the value alone and not on where it stands.
-/

namespace RbacManifest

namespace Yaml

/-- How a single value is written. -/
inductive Style
  | plain
  /-- Between apostrophes. -/
  | quoted
  /-- Between double quotes, with escapes. -/
  | escaped
  deriving DecidableEq, Repr

namespace Style

/-- Whether a character is written as it is only between double quotes or not at all. -/
def isSpecial (c : Char) : Bool :=
  let code := c.toNat
  !(c = '\n' || (0x20 ≤ code && code ≤ 0x7E) || code = 0x85 || (0xA0 ≤ code && code ≤ 0xD7FF)
      || (0xE000 ≤ code && code ≤ 0xFFFD) || (0x10000 ≤ code && code < 0x10FFFF))
    || c = byteOrderMark

/-- Whether a character is a space or ends a line. -/
def isGap (c : Char) : Bool :=
  c = ' ' || isBreak c

/-- Whether a space and a line end stand next to each other. -/
def hasBlankLineEdge : List Char → Bool
  | first :: second :: rest =>
      (first = ' ' && isBreak second) || (isBreak first && second = ' ')
        || hasBlankLineEdge (second :: rest)
  | _ => false

/-- Whether a text starts or ends with a space or a line end. -/
def hasOuterGap (text : List Char) : Bool :=
  text.head?.any isGap || text.getLast?.any isGap

/-- Whether the rest of a text starts with white space, or there is no rest. -/
def endsWord (rest : List Char) : Bool :=
  match rest with
  | [] => true
  | c :: _ => isBlankOrEnd c

/-- Whether the rest of a text has a colon in front of white space or a number sign behind it. -/
def hasInnerIndicator (afterBlank : Bool) : List Char → Bool
  | [] => false
  | c :: rest =>
      (c = ':' && endsWord rest) || (c = '#' && afterBlank)
        || hasInnerIndicator (isBlankOrEnd c) rest

/-- Whether a text would be taken for something else than a value because of the characters that
structure documents. -/
def hasIndicator : List Char → Bool
  | [] => false
  | c :: rest =>
      (Text.after? "---".toList (c :: rest)).isSome
        || (Text.after? "...".toList (c :: rest)).isSome
        || "#,[]\x7b\x7d&*!|>'\"%@`".toList.contains c
        || ((c = '?' || c = ':' || c = '-') && endsWord rest)
        || hasInnerIndicator (isBlankOrEnd c) rest

/-- Whether a text keeps its characters without quotes. -/
def allowsPlain (text : List Char) : Bool :=
  !(text.isEmpty || hasOuterGap text || text.any isBreak || text.any isSpecial
    || hasIndicator text)

/-- Whether a text keeps its characters between apostrophes. -/
def allowsQuoted (text : List Char) : Bool :=
  !(text.any isSpecial || hasBlankLineEdge text)

/-- How a text is written as a value of a type. -/
def choose (tag : Tag) (text : List Char) : Style :=
  if Tag.ofPlain text = tag && allowsPlain text then .plain
  else if allowsQuoted text then .quoted
  else .escaped

end Style

end Yaml

end RbacManifest
