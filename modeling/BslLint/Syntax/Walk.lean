import BslLint.Scope

/-!
The walk over a module in document order: what it meets, each with its scope, as one list, and the
run of a visitor over that list.

A visitor may call the walk off. The walk notices it before the next method and before the next
statement, so that the expressions of a statement are always visited together.
-/

namespace BslLint

/-- What the walk over a module meets. -/
inductive Event where
  | method (m : Method) (scope : Scope)
  | statement (s : Statement) (scope : Scope)
  | execute (s : Statement) (scope : Scope)
  | call (e : Expression) (scope : Scope)

namespace Event

def isStop : Event → Bool
  | .method _ _ | .statement _ _ => true
  | .execute _ _ | .call _ _ => false

def ofExpressions (scope : Scope) (es : List Expression) : List Event :=
  (es.flatMap Expression.calls).map fun e => .call e scope

mutual

/-- The events of a statement: the statement, the code it executes, the calls in its own
expressions, and then its nested statements. -/
def ofStatement (scope : Scope) : Statement → List Event
  | .simple left right span =>
    .statement (.simple left right span) scope :: ofExpressions scope (left :: right.toList)
  | .ifChain first elseIfs otherwise span =>
    .statement (.ifChain first elseIfs otherwise span) scope ::
      (ofExpressions scope ((first :: elseIfs).map Branch.predicate) ++
        ofBranch scope first ++ ofBranches scope elseIfs ++ ofElse scope otherwise)
  | .whileLoop predicate body span =>
    .statement (.whileLoop predicate body span) scope ::
      (ofExpressions scope [predicate] ++ ofStatements scope body)
  | .forEach loopVar collection body span =>
    .statement (.forEach loopVar collection body span) scope ::
      (ofExpressions scope [collection] ++ ofStatements scope body)
  | .tryExcept body handler span =>
    .statement (.tryExcept body handler span) scope ::
      (ofStatements scope body ++ ofStatements scope handler)
  | .execute code span =>
    .statement (.execute code span) scope :: .execute (.execute code span) scope ::
      ofExpressions scope [code]
  | .returnValue value span =>
    .statement (.returnValue value span) scope :: ofExpressions scope value.toList

def ofBranch (scope : Scope) : Branch → List Event
  | .mk _ body => ofStatements scope body

def ofBranches (scope : Scope) : List Branch → List Event
  | [] => []
  | b :: bs => ofBranch scope b ++ ofBranches scope bs

def ofElse (scope : Scope) : Option (List Statement) → List Event
  | none => []
  | some body => ofStatements scope body

def ofStatements (scope : Scope) : List Statement → List Event
  | [] => []
  | s :: ss => ofStatement scope s ++ ofStatements scope ss

end

mutual

def ofItem (scope : Scope) : Item → List Event
  | .method m =>
    .method m (scope.enterMethod m) :: ofStatements (scope.enterMethod m) m.statements
  | .region r items => ofItems (scope.enterRegion r) items

def ofItems (scope : Scope) : List Item → List Event
  | [] => []
  | item :: items => ofItem scope item ++ ofItems scope items

end

def ofModule (m : Module) : List Event :=
  ofItems (Scope.ofModule m) m.items ++ ofStatements (Scope.ofModule m) m.statements

end Event

/-- Runs a visitor over events. Before a method and before a statement the state is asked whether
the walk was called off. -/
def walk {ε σ : Type} (isCancelled : σ → Bool) (visit : σ → Event → Outcome ε σ) (s : σ) :
    List Event → Outcome ε σ
  | [] => return s
  | e :: rest =>
    if e.isStop && isCancelled s then return s
    else do walk isCancelled visit (← visit s e) rest

end BslLint
