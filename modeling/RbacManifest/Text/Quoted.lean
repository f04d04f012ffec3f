import RbacManifest.Text.Hex
import RbacManifest.Text.Printable

/-!
# Quoted texts

How messages show a text so that its exact characters can be told: between quotes, with a
backslash before what would end the quotes and numbers in place of unprintable characters. Rows
of texts are shown with brackets or parentheses around them.
-/

namespace RbacManifest

namespace Text

/-- The quote around a shown text: an apostrophe, unless the text holds an apostrophe and no
double quote. -/
def quoteFor (text : List Char) : Char :=
  if text.contains '\'' && !text.contains '"' then '"' else '\''

/-- A character as it is shown between the given quotes. -/
def quotedChar (quote c : Char) : List Char :=
  if c = quote ∨ c = '\\' then ['\\', c]
  else if c = '\t' then ['\\', 't']
  else if c = '\n' then ['\\', 'n']
  else if c = '\r' then ['\\', 'r']
  else if isPrintable c then [c]
  else if c.toNat < 0x100 then ['\\', 'x'] ++ hex hexDigit 2 c.toNat
  else if c.toNat < 0x10000 then ['\\', 'u'] ++ hex hexDigit 4 c.toNat
  else ['\\', 'U'] ++ hex hexDigit 8 c.toNat

/-- A text between quotes. -/
def quotedText (text : List Char) : List Char :=
  let quote := quoteFor text
  quote :: text.flatMap (quotedChar quote) ++ [quote]

def quoted (s : String) : String :=
  String.ofList (quotedText s.toList)

/-- The parts of a row, with a comma and a blank between neighbours. -/
def commaSeparated (parts : List String) : String :=
  String.intercalate ", " parts

/-- A row in brackets. -/
def bracketed (parts : List String) : String :=
  "[" ++ commaSeparated parts ++ "]"

/-- A row in parentheses. A row of one part keeps a comma behind it. -/
def parenthesized : List String → String
  | [part] => "(" ++ part ++ ",)"
  | parts => "(" ++ commaSeparated parts ++ ")"

end Text

end RbacManifest
