/-!
# Lines

A line ends with a line feed, a carriage return, or a carriage return and a line feed together.
-/

namespace RbacManifest

namespace Text

/-- The lines of a text without their ends. A last line counts only if it has characters. -/
def lines : List Char → List (List Char)
  | [] => []
  | '\r' :: '\n' :: rest => [] :: lines rest
  | c :: rest =>
      if c = '\n' ∨ c = '\r' then [] :: lines rest
      else
        match lines rest with
        | [] => [[c]]
        | line :: others => (c :: line) :: others

/-- A text in which every line ends with a line feed alone. -/
def unifyLineEnds : List Char → List Char
  | [] => []
  | '\r' :: '\n' :: rest => '\n' :: unifyLineEnds rest
  | c :: rest => (if c = '\r' then '\n' else c) :: unifyLineEnds rest

end Text

end RbacManifest
