import BslLint.Outline.Expression
import BslLint.Syntax.Statement

/-!
Described statements and their places in a text. The span of a statement runs from its first keyword
or expression through its last one, and over a semicolon behind it.
-/

namespace BslLint

mutual

inductive StatementOutline where
  | simple (expression : ExpressionOutline)
  | assign (left right : ExpressionOutline)
  | ifChain (first : BranchOutline) (elseIfs : List BranchOutline)
      (otherwise : Option (List StatementOutline))
  | whileLoop (predicate : ExpressionOutline) (body : List StatementOutline)
  | forEach (loopVar : Text) (collection : ExpressionOutline) (body : List StatementOutline)
  | tryExcept (body handler : List StatementOutline)
  | execute (code : ExpressionOutline)
  | returnValue (value : Option ExpressionOutline)

inductive BranchOutline where
  | mk (predicate : ExpressionOutline) (body : List StatementOutline)

end

namespace Outline

def ifWord : Spelling := ⟨"Если", "If"⟩

def thenWord : Spelling := ⟨"Тогда", "Then"⟩

def elseWord : Spelling := ⟨"Иначе", "Else"⟩

def endIfWord : Spelling := ⟨"КонецЕсли", "EndIf"⟩

def whileWord : Spelling := ⟨"Пока", "While"⟩

def forWord : Spelling := ⟨"Для", "For"⟩

def doWord : Spelling := ⟨"Цикл", "Do"⟩

def endDoWord : Spelling := ⟨"КонецЦикла", "EndDo"⟩

def tryWord : Spelling := ⟨"Попытка", "Try"⟩

def exceptWord : Spelling := ⟨"Исключение", "Except"⟩

def endTryWord : Spelling := ⟨"КонецПопытки", "EndTry"⟩

def executeWord : Spelling := ⟨"Выполнить", "Execute"⟩

def returnWord : Spelling := ⟨"Возврат", "Return"⟩

def seekWord (source : Text) (word : Spelling) (cursor : Nat) : Option Span × Nat :=
  seek source (spellings word) cursor

/-- The end of a statement whose last node ends at `stop`: behind a semicolon that follows, white
space apart. -/
def statementStop (source : Text) (stop : Nat) : Checked Nat := do
  let next := skipBlanks source stop
  return if ← standsAt source ';' next then next + 1 else stop

/-- The span of a statement from its start through its last node, and the cursor behind it; no span
without both. -/
def statementSpan (source : Text) (start : Option Nat) (last : Option Span) (cursor : Nat) :
    Checked (Option Span × Nat) := do
  match start, last with
  | some start, some last =>
    let stop ← statementStop source last.stop
    return (some (Span.between start stop), max cursor stop)
  | _, _ => return (none, cursor)

/-- The parenthesis that directly follows a keyword, white space apart. -/
def parenBehind (source : Text) (keyword : Option Span) : Checked (Option Nat) := do
  match keyword with
  | none => return none
  | some keyword =>
    let next := skipBlanks source keyword.stop
    return if ← standsAt source '(' next then some next else none

end Outline

namespace StatementOutline

open Outline

def placeValue (source : Text) : Option ExpressionOutline → Nat → Checked (Option Expression × Nat)
  | none, cursor => return (none, cursor)
  | some value, cursor => do
    let (value, cursor) ← value.place source cursor
    return (some value, cursor)

mutual

def place (source : Text) : StatementOutline → Nat → Checked (Statement × Nat)
  | .simple expression, cursor => do
    let (left, cursor) ← expression.place source cursor
    let (span, cursor) ← statementSpan source (left.span.map Span.offset) left.span cursor
    return (.simple left none span, cursor)
  | .assign left right, cursor => do
    let (left, cursor) ← left.place source cursor
    let (right, cursor) ← right.place source cursor
    let (span, cursor) ← statementSpan source (left.span.map Span.offset) right.span cursor
    return (.simple left (some right) span, cursor)
  | .ifChain first elseIfs otherwise, cursor => do
    let (start, cursor) := seekWord source ifWord cursor
    let (first, cursor) ← placeBranch source first cursor
    let (elseIfs, cursor) ← placeBranches source elseIfs cursor
    let (otherwise, cursor) ← placeElse source otherwise cursor
    let (last, cursor) := seekWord source endIfWord cursor
    let (span, cursor) ← statementSpan source (start.map Span.offset) last cursor
    return (.ifChain first elseIfs otherwise span, cursor)
  | .whileLoop predicate body, cursor => do
    let (start, cursor) := seekWord source whileWord cursor
    let (predicate, cursor) ← predicate.place source cursor
    let (_, cursor) := seekWord source doWord cursor
    let (body, cursor) ← placeList source body cursor
    let (last, cursor) := seekWord source endDoWord cursor
    let (span, cursor) ← statementSpan source (start.map Span.offset) last cursor
    return (.whileLoop predicate body span, cursor)
  | .forEach loopVar collection body, cursor => do
    let (start, cursor) := seekWord source forWord cursor
    let (_, cursor) := seek source [loopVar] cursor
    let (collection, cursor) ← collection.place source cursor
    let (_, cursor) := seekWord source doWord cursor
    let (body, cursor) ← placeList source body cursor
    let (last, cursor) := seekWord source endDoWord cursor
    let (span, cursor) ← statementSpan source (start.map Span.offset) last cursor
    return (.forEach loopVar collection body span, cursor)
  | .tryExcept body handler, cursor => do
    let (start, cursor) := seekWord source tryWord cursor
    let (body, cursor) ← placeList source body cursor
    let (_, cursor) := seekWord source exceptWord cursor
    let (handler, cursor) ← placeList source handler cursor
    let (last, cursor) := seekWord source endTryWord cursor
    let (span, cursor) ← statementSpan source (start.map Span.offset) last cursor
    return (.tryExcept body handler span, cursor)
  | .execute code, cursor => do
    let (start, cursor) := seekWord source executeWord cursor
    let opening ← parenBehind source start
    let (code, cursor) ← code.place source (behind opening cursor)
    let closing := opening.bind (matchingParen source)
    let last := (closing.map fun pos => Span.mk pos 1).or code.span
    let (span, cursor) ←
      statementSpan source (start.map Span.offset) last (behind closing cursor)
    return (.execute code span, cursor)
  | .returnValue value, cursor => do
    let (start, cursor) := seekWord source returnWord cursor
    let (value, cursor) ← placeValue source value cursor
    let last := (value.bind Expression.span).or start
    let (span, cursor) ← statementSpan source (start.map Span.offset) last cursor
    return (.returnValue value span, cursor)

def placeList (source : Text) : List StatementOutline → Nat → Checked (List Statement × Nat)
  | [], cursor => return ([], cursor)
  | s :: ss, cursor => do
    let (s, cursor) ← s.place source cursor
    let (ss, cursor) ← placeList source ss cursor
    return (s :: ss, cursor)

def placeBranch (source : Text) : BranchOutline → Nat → Checked (Branch × Nat)
  | .mk predicate body, cursor => do
    let (predicate, cursor) ← predicate.place source cursor
    let (_, cursor) := seekWord source thenWord cursor
    let (body, cursor) ← placeList source body cursor
    return (.mk predicate body, cursor)

def placeBranches (source : Text) : List BranchOutline → Nat → Checked (List Branch × Nat)
  | [], cursor => return ([], cursor)
  | b :: bs, cursor => do
    let (b, cursor) ← placeBranch source b cursor
    let (bs, cursor) ← placeBranches source bs cursor
    return (b :: bs, cursor)

def placeElse (source : Text) :
    Option (List StatementOutline) → Nat → Checked (Option (List Statement) × Nat)
  | none, cursor => return (none, cursor)
  | some body, cursor => do
    let (_, cursor) := seekWord source elseWord cursor
    let (body, cursor) ← placeList source body cursor
    return (some body, cursor)

end

end StatementOutline

end BslLint
