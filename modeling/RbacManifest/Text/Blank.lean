/-!
# Blank characters

Marker lines, label arguments and identity names are compared without the white space around
them. This file says which characters are blank and takes them off the ends of a text.
-/

namespace RbacManifest

namespace Text

/-- The code points that count as white space, as inclusive ranges in increasing order: the
separators of Unicode and the control characters that end a line, a field or a record. -/
def blankRanges : List (Nat × Nat) :=
  [(0x9, 0xD), (0x1C, 0x20), (0x85, 0x85), (0xA0, 0xA0), (0x1680, 0x1680), (0x2000, 0x200A),
    (0x2028, 0x2029), (0x202F, 0x202F), (0x205F, 0x205F), (0x3000, 0x3000)]

/-- Whether a code point lies in one of the given inclusive ranges. -/
def inRanges (ranges : List (Nat × Nat)) (code : Nat) : Bool :=
  ranges.any fun range => range.1 ≤ code && code ≤ range.2

/-- Whether a character is white space. -/
def isBlank (c : Char) : Bool :=
  inRanges blankRanges c.toNat

/-- A text without the white space at its start. -/
def trimStart (text : List Char) : List Char :=
  text.dropWhile isBlank

/-- A text without the white space at its end. -/
def trimEnd (text : List Char) : List Char :=
  (text.reverse.dropWhile isBlank).reverse

/-- A text without the white space at either end. -/
def trim (text : List Char) : List Char :=
  trimEnd (trimStart text)

end Text

end RbacManifest
