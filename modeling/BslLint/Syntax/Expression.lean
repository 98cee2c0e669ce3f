import BslLint.Span

/-!
Expressions of the language. A node that was read from a text carries the span it was read from;
a node without a span has no text behind it.
-/

namespace BslLint

/-- A literal value; numbers and dates keep their spelling. -/
inductive Literal where
  | boolean (value : Bool)
  | string (value : Text)
  | number (value : Text)
  | date (value : Text)
  | undefined
  | null
deriving DecidableEq, Repr

inductive BinaryOp where
  | and
  | or
  | eq
  | notEq
  | less
  | lessEq
  | greater
  | greaterEq
  | add
  | sub
  | mul
  | div
  | mod
deriving DecidableEq, Repr

namespace BinaryOp

def all : List BinaryOp :=
  [and, or, eq, notEq, less, lessEq, greater, greaterEq, add, sub, mul, div, mod]

def code : BinaryOp → String
  | and => "and"
  | or => "or"
  | eq => "eq"
  | notEq => "not_eq"
  | less => "less"
  | lessEq => "less_eq"
  | greater => "greater"
  | greaterEq => "greater_eq"
  | add => "add"
  | sub => "sub"
  | mul => "mul"
  | div => "div"
  | mod => "mod"

end BinaryOp

inductive UnaryOp where
  | not
  | neg
deriving DecidableEq, Repr

namespace UnaryOp

def all : List UnaryOp := [not, neg]

def code : UnaryOp → String
  | not => "not"
  | neg => "neg"

end UnaryOp

/-- An expression. An access is an identifier, or a member of its source; an invocation calls a
routine, or a method of its receiver, and an omitted argument is `none`. -/
inductive Expression where
  | literal (value : Literal) (span : Option Span)
  | access (name : Text) (source : Option Expression) (span : Option Span)
  | invocation (name : Text) (receiver : Option Expression) (params : List (Option Expression))
      (span : Option Span)
  | binary (op : BinaryOp) (left right : Expression) (span : Option Span)
  | unary (op : UnaryOp) (operand : Expression) (span : Option Span)
deriving Repr

namespace Expression

def span : Expression → Option Span
  | .literal _ s | .access _ _ s | .invocation _ _ _ s | .binary _ _ _ s | .unary _ _ s => s

/-- The direct operands, in document order. -/
def children : Expression → List Expression
  | .literal _ _ => []
  | .access _ source _ => source.toList
  | .invocation _ receiver params _ => receiver.toList ++ params.filterMap id
  | .binary _ left right _ => [left, right]
  | .unary _ operand _ => [operand]

def boolean? : Expression → Option Bool
  | .literal (.boolean b) _ => some b
  | _ => none

mutual

/-- The invocations in an expression, each before those in its receiver and then those in its
arguments. -/
def calls : Expression → List Expression
  | .literal _ _ => []
  | .access _ source _ => callsOption source
  | .invocation name receiver params s =>
    .invocation name receiver params s :: (callsOption receiver ++ callsList params)
  | .binary _ left right _ => left.calls ++ right.calls
  | .unary _ operand _ => operand.calls

def callsOption : Option Expression → List Expression
  | none => []
  | some e => e.calls

def callsList : List (Option Expression) → List Expression
  | [] => []
  | e :: es => callsOption e ++ callsList es

end

end Expression

end BslLint
