import BslLint.Text.Basic
import BslLint.Text.Ranges

/-!
White space, by the Unicode property White_Space, and the removal of it at the ends of a text.
-/

namespace BslLint.Text

/-- Code points with the property White_Space. -/
def blankRanges : List (Nat × Nat) :=
  [(0x9, 0xD), (0x20, 0x20), (0x85, 0x85), (0xA0, 0xA0), (0x1680, 0x1680), (0x2000, 0x200A),
   (0x2028, 0x2029), (0x202F, 0x202F), (0x205F, 0x205F), (0x3000, 0x3000)]

def isBlank (c : Char) : Bool := inRanges c.toNat blankRanges

def trimStart (t : Text) : Text := t.dropWhile isBlank

def trimEnd (t : Text) : Text := (t.reverse.dropWhile isBlank).reverse

def trim (t : Text) : Text := trimEnd (trimStart t)

/-- What the test accepts is removed at both ends of the text. -/
def stripBoth (test : Char → Bool) (t : Text) : Text :=
  ((t.dropWhile test).reverse.dropWhile test).reverse

end BslLint.Text
