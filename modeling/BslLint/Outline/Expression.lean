import BslLint.Outline.Search
import BslLint.Syntax.Expression

/-!
Described expressions. A description has the structure of an expression and the words it is written
with, but no spans; placing it finds every node in the text, in document order, by searching forward
from a cursor. A node whose words are not found gets no span.
-/

namespace BslLint

inductive ExpressionOutline where
  | ident (name : Text)
  | member (source : ExpressionOutline) (name : Text)
  | call (name : Text) (params : List (Option ExpressionOutline))
  | methodCall (receiver : ExpressionOutline) (name : Text)
      (params : List (Option ExpressionOutline))
  | boolean (text : Text)
  | string (text : Text)
  | number (text : Text)
  | undefined (text : Text)
  | binary (op : BinaryOp) (left right : ExpressionOutline)
  | not (operand : ExpressionOutline)

namespace Outline

def trueWord : Spelling := ⟨"Истина", "True"⟩

def notWord : Spelling := ⟨"НЕ", "Not"⟩

def undouble : Text → Text
  | '"' :: '"' :: rest => '"' :: undouble rest
  | c :: rest => c :: undouble rest
  | [] => []

/-- The text between two quotes at the ends, if both are there. -/
def unquote? : Text → Option Text
  | '"' :: rest => if rest.getLast? = some '"' then some rest.dropLast else none
  | _ => none

def stringValue (text : Text) : Text := undouble ((unquote? text).getD text)

/-- A text as it stands, from the cursor on, and the cursor behind it. -/
def seekText (source : Text) (text : Text) (cursor : Nat) : Checked (Option Span × Nat) := do
  match findText text cursor (← restAt source cursor) with
  | some pos =>
    return (some ⟨pos, Text.byteLength text⟩, max cursor (pos + Text.byteLength text))
  | none => return (none, cursor)

def openingParen (source : Text) (name : Option Span) : Option Nat :=
  name.bind fun name => findChar source '(' name.stop

/-- The offset behind a character of one byte, if it was found. -/
def behind (found : Option Nat) (cursor : Nat) : Nat :=
  match found with
  | some pos => pos + 1
  | none => cursor

/-- The span of a call from its start through its closing parenthesis. -/
def callSpan (start closing : Option Nat) : Option Span := do
  return Span.between (← start) ((← closing) + 1)

end Outline

namespace ExpressionOutline

open Outline

mutual

/-- Places an expression from the cursor on, and moves the cursor behind it. -/
def place (source : Text) : ExpressionOutline → Nat → Checked (Expression × Nat)
  | .ident name, cursor => do
    let (span, cursor) := seek source [name] cursor
    return (.access name none span, cursor)
  | .member object name, cursor => do
    let (object, cursor) ← object.place source cursor
    let (found, cursor) := seek source [name] cursor
    return (.access name (some object) (Span.join object.span found), cursor)
  | .call name params, cursor => do
    let found := search source [name] cursor
    let opening := openingParen source found
    let (params, cursor) ← placeParams source params (behind opening cursor)
    let closing := opening.bind (matchingParen source)
    return (.invocation name none params (callSpan (found.map Span.offset) closing),
      behind closing cursor)
  | .methodCall receiver name params, cursor => do
    let (receiver, cursor) ← receiver.place source cursor
    let found := search source [name] cursor
    let opening := openingParen source found
    let (params, cursor) ← placeParams source params (behind opening cursor)
    let closing := opening.bind (matchingParen source)
    let start := receiver.span.map Span.offset
    return (.invocation name (some receiver) params (callSpan start closing),
      behind closing cursor)
  | .boolean text, cursor => do
    let (span, cursor) := seek source [text] cursor
    return (.literal (.boolean (trueWord.covers text)) span, cursor)
  | .string text, cursor => do
    let (span, cursor) ← seekText source text cursor
    return (.literal (.string (stringValue text)) span, cursor)
  | .number text, cursor => do
    let (span, cursor) := seek source [text] cursor
    return (.literal (.number text) span, cursor)
  | .undefined text, cursor => do
    let (span, cursor) := seek source [text] cursor
    return (.literal .undefined span, cursor)
  | .binary op left right, cursor => do
    let (left, cursor) ← left.place source cursor
    let (right, cursor) ← right.place source cursor
    return (.binary op left right (Span.join left.span right.span), cursor)
  | .not operand, cursor => do
    let (keyword, cursor) := seek source (spellings notWord) cursor
    let (operand, cursor) ← operand.place source cursor
    return (.unary .not operand (Span.join keyword operand.span), cursor)

def placeParams (source : Text) :
    List (Option ExpressionOutline) → Nat → Checked (List (Option Expression) × Nat)
  | [], cursor => return ([], cursor)
  | none :: params, cursor => do
    let (params, cursor) ← placeParams source params cursor
    return (none :: params, cursor)
  | some param :: params, cursor => do
    let (param, cursor) ← param.place source cursor
    let (params, cursor) ← placeParams source params cursor
    return (some param :: params, cursor)

end

end ExpressionOutline

end BslLint
