import BslLint.Syntax.Expression

/-!
Statements of the language.
-/

namespace BslLint

mutual

/-- A statement. A simple statement is an expression, or an assignment when it has a right side;
an absent else branch differs from an empty one. -/
inductive Statement where
  | simple (left : Expression) (right : Option Expression) (span : Option Span)
  | ifChain (first : Branch) (elseIfs : List Branch) (otherwise : Option (List Statement))
      (span : Option Span)
  | whileLoop (predicate : Expression) (body : List Statement) (span : Option Span)
  | forEach (loopVar : Text) (collection : Expression) (body : List Statement)
      (span : Option Span)
  | tryExcept (body : List Statement) (handler : List Statement) (span : Option Span)
  | execute (code : Expression) (span : Option Span)
  | returnValue (value : Option Expression) (span : Option Span)

inductive Branch where
  | mk (predicate : Expression) (body : List Statement)

end

namespace Branch

def predicate : Branch → Expression
  | .mk p _ => p

def body : Branch → List Statement
  | .mk _ b => b

end Branch

namespace Statement

def span : Statement → Option Span
  | .simple _ _ s | .ifChain _ _ _ s | .whileLoop _ _ s | .forEach _ _ _ s | .tryExcept _ _ s
  | .execute _ s | .returnValue _ s => s

/-- The expressions that the statement holds directly, without those of nested statements. -/
def expressions : Statement → List Expression
  | .simple left right _ => left :: right.toList
  | .ifChain first elseIfs _ _ => (first :: elseIfs).map Branch.predicate
  | .whileLoop predicate _ _ => [predicate]
  | .forEach _ collection _ _ => [collection]
  | .tryExcept _ _ _ => []
  | .execute code _ => [code]
  | .returnValue value _ => value.toList

/-- The statement lists nested directly in the statement, in document order. -/
def bodies : Statement → List (List Statement)
  | .ifChain first elseIfs otherwise _ => (first :: elseIfs).map Branch.body ++ otherwise.toList
  | .whileLoop _ body _ | .forEach _ _ body _ => [body]
  | .tryExcept body handler _ => [body, handler]
  | .simple _ _ _ | .execute _ _ | .returnValue _ _ => []

end Statement

end BslLint
