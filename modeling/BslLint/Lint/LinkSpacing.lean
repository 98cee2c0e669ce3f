import BslLint.Edit.Basic
import BslLint.Text.Blank
import BslLint.Text.Cut
import BslLint.Text.Word

/-!
Links in documentation comments. A link keyword is followed by white space and then the link. A
link that is attached to its keyword gets a space in between; punctuation in between is replaced by
a space, or removed in front of one.
-/

namespace BslLint.LinkSpacing

structure Keyword where
  text : Text
  /-- The word is also an ordinary one and only counts in front of a qualified name. -/
  isOrdinary : Bool
deriving DecidableEq, Repr

def keywords : List Keyword := [⟨"См.".toList, false⟩, ⟨"See".toList, true⟩]

/-- Whether the text begins with the word, each character up to case. -/
def startsWithFold : Text → Text → Bool
  | [], _ => true
  | _ :: _, [] => false
  | p :: ps, c :: cs => Text.lowerChar c == Text.lowerChar p && startsWithFold ps cs

/-- Whether a character separates a keyword from its link where white space should. -/
def isSeparator (c : Char) : Bool := c == ':' || c == '_'

/-- A badly separated link: the range that is reported and the edit that mends it, both with
offsets in the comment. -/
structure Issue where
  offset : Nat
  length : Nat
  edit : Edit
deriving DecidableEq, Repr

def lastSize (t : Text) : Nat := (t.getLast?.map Char.utf8Size).getD 0

/-- The issue of a keyword that was matched at the offset `pos`, given the text behind it. -/
def issueBehind (keyword : Keyword) (matched : Text) (pos : Nat) (tail : Text) : Option Issue :=
  let linkStart := pos + Text.byteLength matched
  let run := tail.takeWhile isSeparator
  let after := tail.dropWhile isSeparator
  let length := Text.byteLength run
  let link := after.takeWhile fun c => !Text.isBlank c
  if keyword.isOrdinary && !link.contains '.' && run.isEmpty then none
  else match after with
    | [] => none
    | c :: _ =>
      if run.isEmpty then
        if Text.isIdentifier c then
          some ⟨linkStart - lastSize matched, lastSize matched + c.utf8Size,
            Edit.insert linkStart [' ']⟩
        else none
      else if c == ' ' || c == '\t' then
        some ⟨linkStart, length, Edit.delete linkStart (linkStart + length)⟩
      else if Text.isIdentifier c then
        some ⟨linkStart, length, Edit.replace linkStart (linkStart + length) [' ']⟩
      else none

/-- The issue of a keyword at the front of the rest of a comment, where `before` is the character
before the rest and `pos` its offset. A keyword directly behind a letter is part of a word. -/
def issueAt (before : Option Char) (pos : Nat) (rest : Text) : Option Issue :=
  match keywords.find? fun k => startsWithFold k.text rest with
  | none => none
  | some keyword =>
    if before.any Text.isAlphabetic then none
    else issueBehind keyword (rest.take keyword.text.length) pos
      (rest.drop keyword.text.length)

def issuesFrom : Option Char → Nat → Text → List Issue
  | _, _, [] => []
  | before, pos, c :: cs =>
    (issueAt before pos (c :: cs)).toList ++ issuesFrom (some c) (pos + c.utf8Size) cs

def issues (comment : Text) : List Issue := issuesFrom none 0 comment

/-! ### The scan by offsets -/

/-- The issue of a keyword behind which a link starts at the given offset of the comment. -/
def linkAt (keyword : Keyword) (comment : Text) (linkStart : Nat) : Checked (Option Issue) := do
  let (front, tail) ← Text.cut comment linkStart
  let length := Text.lengthUntil (!isSeparator ·) tail
  let (_, after) ← Text.cut tail length
  let link := after.takeWhile fun c => !Text.isBlank c
  if keyword.isOrdinary && !link.contains '.' && length == 0 then return none
  match after.head? with
  | none => return none
  | some c =>
    if length = 0 then
      if Text.isIdentifier c then
        let last := Text.byteLength front.dropLast
        return some ⟨last, linkStart + c.utf8Size - last, Edit.insert linkStart [' ']⟩
      else return none
    else if c == ' ' || c == '\t' then
      return some ⟨linkStart, length, Edit.delete linkStart (linkStart + length)⟩
    else if Text.isIdentifier c then
      return some ⟨linkStart, length, Edit.replace linkStart (linkStart + length) [' ']⟩
    else return none

def keywordAt (comment : Text) (start : Nat) : Checked (Option Issue) := do
  let (before, rest) ← Text.cut comment start
  match keywords.find? fun k => startsWithFold k.text rest with
  | none => return none
  | some keyword =>
    if before.getLast?.any Text.isAlphabetic then return none
    linkAt keyword comment (start + Text.offsetOfIndex keyword.text.length rest)

/-- The issues of a comment, looked for at the offset of each of its characters. -/
def scan (comment : Text) : Checked (List Issue) := do
  return (← Outcome.mapList (keywordAt comment) (Text.offsetsFrom 0 comment)).filterMap id

end BslLint.LinkSpacing
