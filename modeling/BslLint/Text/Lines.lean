import BslLint.Text.Basic

/-!
The lines of a text. A line ends at a line feed, and a carriage return directly before the line
feed belongs to the ending; a text that ends in a line feed has no further, empty line.
-/

namespace BslLint.Text

/-- One carriage return less at the end. -/
def dropCarriageReturn (line : Text) : Text :=
  if line.getLast? = some '\r' then line.dropLast else line

/-- The lines of the rest of a text, given the characters of its first line read so far,
backwards. -/
def linesAfter : List Char → Text → List Text
  | [], [] => []
  | line, [] => [line.reverse]
  | line, c :: cs =>
    if c = '\n' then dropCarriageReturn line.reverse :: linesAfter [] cs
    else linesAfter (c :: line) cs

def lines (t : Text) : List Text := linesAfter [] t

end BslLint.Text
