import BslLint.Span
import BslLint.Spelling
import BslLint.Text.Blank
import BslLint.Text.Word

/-!
Finding the pieces of a described tree in a text. Every search runs forward from a cursor, a byte
offset. A word is found as a whole word, whatever its case; a word behind a `#` is part of a
preprocessor instruction and is found only together with its `#`.

A search from an offset that is no boundary of the text finds nothing; to cut the text there breaks
off the whole work.
-/

namespace BslLint.Outline

def startsWord (word : Text) (before : Option Char) : Bool :=
  !before.any fun c => Text.isIdentifier c || (c == '#' && word.head? != some '#')

/-- Whether the text begins with the word, as a whole word behind the given character. -/
def matchesWord (word : Text) (before : Option Char) (t : Text) : Bool :=
  match Text.splitAt? t (Text.byteLength word) with
  | none => false
  | some (candidate, rest) =>
    Text.sameName candidate word && startsWord word before && Text.endsWord rest.head?

/-- The first occurrence of one of the words in the rest of a text, where `before` is the last
character before the rest and `pos` its offset. -/
def searchFrom (words : List Text) : Option Char → Nat → Text → Option Span
  | _, _, [] => none
  | before, pos, c :: cs =>
    match words.find? fun word => matchesWord word before (c :: cs) with
    | some word => some ⟨pos, Text.byteLength word⟩
    | none => searchFrom words (some c) (pos + c.utf8Size) cs

/-- The first occurrence of one of the words at or after the offset `start`; nothing when `start` is
no boundary of the text. -/
def search (source : Text) (words : List Text) (start : Nat) : Option Span :=
  (Text.splitAt? source start).bind fun (before, rest) =>
    searchFrom words before.getLast? start rest

def seek (source : Text) (words : List Text) (cursor : Nat) : Option Span × Nat :=
  match search source words cursor with
  | some found => (some found, max cursor found.stop)
  | none => (none, cursor)

def spellings (word : Spelling) : List Text := [word.textIn .primary, word.textIn .alternate]

def restAt (source : Text) (pos : Nat) : Checked Text :=
  match Text.drop? source pos with
  | some rest => return rest
  | none => .abort .offBoundary

/-- The text between two offsets, which must be boundaries in order. -/
def sliceAt (source : Text) (start stop : Nat) : Checked Text :=
  match Text.slice? source start stop with
  | some t => return t
  | none => .abort .offBoundary

def standsAt (source : Text) (c : Char) (pos : Nat) : Checked Bool := do
  return (← restAt source pos).head? == some c

/-- The offset of a character in the rest of a text that starts at `pos`. -/
def findCharFrom (needle : Char) : Nat → Text → Option Nat
  | _, [] => none
  | pos, c :: cs => if c = needle then some pos else findCharFrom needle (pos + c.utf8Size) cs

def findChar (source : Text) (needle : Char) (start : Nat) : Option Nat :=
  (Text.drop? source start).bind (findCharFrom needle start)

def findText (needle : Text) : Nat → Text → Option Nat
  | pos, [] => if needle.isEmpty then some pos else none
  | pos, c :: cs =>
    if needle.isPrefixOf (c :: cs) then some pos else findText needle (pos + c.utf8Size) cs

/-- The offset of the parenthesis that closes the open ones in the rest of a text that starts at
`pos`. Parentheses in strings do not count. -/
def closingParen (depth : Nat) (inString : Bool) : Nat → Text → Option Nat
  | _, [] => none
  | pos, c :: cs =>
    if c = '"' then closingParen depth (!inString) (pos + c.utf8Size) cs
    else if c = '(' ∧ !inString then closingParen (depth + 1) inString (pos + c.utf8Size) cs
    else if c = ')' ∧ !inString then
      if depth = 0 then none
      else if depth = 1 then some pos
      else closingParen (depth - 1) inString (pos + c.utf8Size) cs
    else closingParen depth inString (pos + c.utf8Size) cs

def matchingParen (source : Text) (opening : Nat) : Option Nat :=
  (Text.drop? source opening).bind (closingParen 0 false opening)

def skipBlanks (source : Text) (pos : Nat) : Nat :=
  pos + Text.byteLength (((Text.drop? source pos).getD []).takeWhile Text.isBlank)

end BslLint.Outline
