import BslLint.Text.Alphabetic
import BslLint.Text.Numeric
import BslLint.Text.Lowercase

/-!
Identifiers in a text and the search for a whole word.
-/

namespace BslLint.Text

def isAlphanumeric (c : Char) : Bool := isAlphabetic c || isNumeric c

def isIdentifier (c : Char) : Bool := isAlphanumeric c || c == '_'

/-- Whether the neighbour of a word ends the word: there is none, or it is no identifier
character. -/
def endsWord (neighbour : Option Char) : Bool := !neighbour.any isIdentifier

/-- Whether the text begins with the word, up to case, as a whole word after the given
character. -/
def startsWithWord (word : Text) (before : Option Char) (t : Text) : Bool :=
  match splitAt? t (byteLength word) with
  | none => false
  | some (candidate, rest) =>
    sameName candidate word && endsWord before && endsWord rest.head?

/-- The offset of the first whole-word occurrence at or after the start of the rest of a text,
where `before` is the last character before the rest and `pos` its offset. -/
def findWordFrom (word : Text) : Option Char → Nat → Text → Option Nat
  | _, _, [] => none
  | before, pos, c :: cs =>
    if startsWithWord word before (c :: cs) then some pos
    else findWordFrom word (some c) (pos + c.utf8Size) cs

/-- The offset of the first whole-word occurrence of `word` at or after the offset `start`; nothing
when `start` is no boundary of the text. -/
def findWord? (t word : Text) (start : Nat) : Option Nat :=
  (splitAt? t start).bind fun (before, rest) => findWordFrom word before.getLast? start rest

end BslLint.Text
