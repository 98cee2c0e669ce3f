import BslLint.Outline.Search
import BslLint.Syntax.Module

/-!
What stands above the declaration of a method: a run of mark lines, each with a directive or an
annotation, and above them the documentation comment.
-/

namespace BslLint.Outline

/-- A line of a text and the offset it starts at. -/
structure Line where
  start : Nat
  text : Text
deriving DecidableEq, Repr

namespace Line

def lead (l : Line) : Nat := l.start + Text.byteLength (l.text.takeWhile Text.isBlank)

def isMark (l : Line) : Bool := (Text.trim l.text).head? == some '&'

def isComment (l : Line) : Bool := ['/', '/'].isPrefixOf (Text.trimStart l.text)

end Line

/-- The lines of a text that starts at an offset, where `line` is what the first of them has read so
far, backwards. Carriage returns at the end of a line are no part of it. -/
def linesFrom (start : Nat) (line : List Char) : Text → List Line
  | [] => [⟨start, line.reverse⟩]
  | c :: cs =>
    if c = '\n' then
      ⟨start, (line.dropWhile (· == '\r')).reverse⟩ ::
        linesFrom (start + Text.byteLength line + 1) [] cs
    else linesFrom start (c :: line) cs

/-- The lines above the line of an offset, the nearest first. -/
def linesAbove (source : Text) (pos : Nat) : Checked (List Line) := do
  return (linesFrom 0 [] (← sliceAt source 0 pos)).dropLast.reverse

/-- The mark lines directly above a declaration, of the lines above it, the nearest first. -/
def markLines (above : List Line) : List Line := above.takeWhile Line.isMark

/-- The comment lines directly above the mark lines of a declaration, the nearest first. -/
def commentLines (above : List Line) : List Line :=
  (above.dropWhile Line.isMark).takeWhile Line.isComment

inductive Mark where
  | directive (d : Directive)
  | extending (a : Annotation)

namespace Mark

/-- The target of an annotation: the text behind its name without parentheses, white space and
quotes around it. -/
def target (behindName : Text) : Text :=
  Text.stripBoth (· == '"')
    (Text.stripBoth (fun c => c == '(' || c == ')' || Text.isBlank c) behindName)

/-- The mark of a line; nothing when its name is unknown. -/
def ofLine? (l : Line) : Option Mark :=
  let text := Text.trim l.text
  let name := text.takeWhile (· != '(')
  match Directive.ofName? name with
  | some d => some (.directive d)
  | none =>
    (AnnotationKind.ofName? name).map fun kind =>
      .extending ⟨kind, target (text.dropWhile (· != '(')),
        some ⟨l.lead, Text.byteLength text⟩⟩

def directive? : Mark → Option Directive
  | directive d => some d
  | extending _ => none

def extending? : Mark → Option Annotation
  | directive _ => none
  | extending a => some a

end Mark

def marksAbove (above : List Line) : List Mark := (markLines above).reverse.filterMap Mark.ofLine?

/-- Where a declaration starts: at its topmost mark, or at its keyword. -/
def declarationStart (above : List Line) (keyword : Nat) : Nat :=
  match (markLines above).getLast? with
  | some top => top.lead
  | none => keyword

/-- The documentation comment above a declaration: from the start of its top line to the last
character of its bottom line that is no white space. -/
def docComment (above : List Line) : Option Span :=
  let lines := commentLines above
  match lines.getLast?, lines.head? with
  | some top, some bottom =>
    some (Span.between top.lead (bottom.start + Text.byteLength (Text.trimEnd bottom.text)))
  | _, _ => none

end BslLint.Outline
