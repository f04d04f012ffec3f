import RbacManifest.Yaml.Gap

/-!
# Plain values

A value without quotes ends before a blank and a number sign, before a colon and a blank, and
before a line that is not indented far enough. Inside brackets the characters that structure a
list or a mapping end it as well.
-/

namespace RbacManifest

namespace Yaml

/-- A plain value that was read. -/
structure PlainText where
  text : List Char
  /-- What follows the value and the gap behind it. -/
  rest : List Cell
  /-- Whether the gap behind the value goes over lines. -/
  endsLine : Bool

namespace PlainText

/-- A value with more characters in front of it. -/
def prepend (chars : List Char) (value : PlainText) : PlainText :=
  { value with text := chars ++ value.text }

/-- Whether a plain value ends before a character and what follows it. -/
def isEndBefore (inFlow : Bool) (c next : Char) : Bool :=
  (c = ':' && (isBlankOrEnd next || (inFlow && ",[]\x7b\x7d".toList.contains next)))
    || (inFlow && ",?[]\x7b\x7d".toList.contains c)

/-- Reads the rest of a plain value behind a gap. Behind a line end the value goes on only at the
given column or to the right of it. -/
def read (inFlow : Bool) (column : Int) (gap : Gap) : List Cell → PlainText
  | [] => ⟨[], [], gap.isLines⟩
  | cell :: rest =>
      let c := cell.char
      if c = ' ' then read inFlow column (gap.addBlank c) rest
      else if isBreak c then
        let gap := gap.addBreak c
        if Cell.isDocumentMark rest then ⟨[], rest, true⟩ else read inFlow column gap rest
      else if isBlankOrEnd c || isEndBefore inFlow c (Cell.peek rest)
          || (!gap.isEmpty && c = '#')
          || (gap.isLines && !inFlow && (cell.column : Int) < column) then
        ⟨[], cell :: rest, gap.isLines⟩
      else (read inFlow column Gap.empty rest).prepend (gap.text ++ [c])

end PlainText

end Yaml

end RbacManifest
