/-!
# Splitting texts

The small cuts that the marker grammar, label arguments and configuration keys are made of: a
text between separators, a text at its first separator, and a text behind a fixed beginning.
-/

namespace RbacManifest

namespace Text

/-- The pieces of a text between the occurrences of a separator. There is always at least one
piece, and one more than there are separators. -/
def pieces (separator : Char) : List Char → List (List Char)
  | [] => [[]]
  | c :: rest =>
      match pieces separator rest with
      | [] => [[c]]
      | piece :: others =>
          if c = separator then [] :: piece :: others else (c :: piece) :: others

/-- A text cut at the first occurrence of a separator, which belongs to neither part; `none`
when the separator does not occur. -/
def cut? (separator : Char) : List Char → Option (List Char × List Char)
  | [] => none
  | c :: rest =>
      if c = separator then some ([], rest)
      else (cut? separator rest).map fun parts => (c :: parts.1, parts.2)

/-- What follows a fixed beginning; `none` when the text starts otherwise. -/
def after? : List Char → List Char → Option (List Char)
  | [], text => some text
  | _ :: _, [] => none
  | b :: beginning, c :: text => if b = c then after? beginning text else none

/-- What follows the first of several beginnings that the text has. -/
def afterAny? (beginnings : List (List Char)) (text : List Char) : Option (List Char) :=
  beginnings.findSome? fun beginning => after? beginning text

end Text

end RbacManifest
