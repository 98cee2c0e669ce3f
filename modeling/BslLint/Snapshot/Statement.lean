import BslLint.Snapshot.Expression
import BslLint.Syntax.Statement

/-!
Statements in snapshots.
-/

namespace BslLint

namespace Statement

def kinds : List String := ["simple", "if", "while", "for", "try", "execute", "return"]

mutual

def toJson : Statement → Json
  | .simple left right span =>
    .object [("kind", .string "simple"), ("left", left.toJson),
      ("right", .ofOption Expression.toJson right), ("span", .ofOption Span.toJson span)]
  | .ifChain first elseIfs otherwise span =>
    .object [("kind", .string "if"), ("if_part", branchToJson first),
      ("else_if_parts", .array (branchesToJson elseIfs)),
      ("else_statements", optionToJson otherwise), ("span", .ofOption Span.toJson span)]
  | .whileLoop predicate body span =>
    .object [("kind", .string "while"), ("predicate", predicate.toJson),
      ("statements", .array (listToJson body)), ("span", .ofOption Span.toJson span)]
  | .forEach loopVar collection body span =>
    .object [("kind", .string "for"), ("variable", .ofText loopVar),
      ("collection", collection.toJson), ("statements", .array (listToJson body)),
      ("span", .ofOption Span.toJson span)]
  | .tryExcept body handler span =>
    .object [("kind", .string "try"), ("statements", .array (listToJson body)),
      ("except_statements", .array (listToJson handler)), ("span", .ofOption Span.toJson span)]
  | .execute code span =>
    .object [("kind", .string "execute"), ("expression", code.toJson),
      ("span", .ofOption Span.toJson span)]
  | .returnValue value span =>
    .object [("kind", .string "return"), ("value", .ofOption Expression.toJson value),
      ("span", .ofOption Span.toJson span)]

def listToJson : List Statement → List Json
  | [] => []
  | s :: ss => s.toJson :: listToJson ss

def optionToJson : Option (List Statement) → Json
  | none => .null
  | some ss => .array (listToJson ss)

def branchToJson : Branch → Json
  | .mk predicate body =>
    .object [("predicate", predicate.toJson), ("statements", .array (listToJson body))]

def branchesToJson : List Branch → List Json
  | [] => []
  | b :: bs => branchToJson b :: branchesToJson bs

end

def readExpression? (v : Json) : Option Expression := Expression.ofJson? true v

def readBranch? (read : Json → Option Statement) (v : Json) : Option Branch := do
  match ← v.fields? ["predicate", "statements"] with
  | [predicate, body] =>
    return .mk (← Json.required? readExpression? predicate)
      (← Json.defaulted? [] (Json.list? read) body)
  | _ => none

/-- The statement of a kind whose fields a record gives, where `read` reads nested statements. -/
def ofFields? (read : Json → Option Statement) (kind : String) (v : Json) : Option Statement := do
  match kind with
  | "simple" =>
    match ← v.fields? ["left", "right", "span"] with
    | [left, right, span] =>
      return .simple (← Json.required? readExpression? left)
        (← Json.optional? readExpression? right) (← Json.optional? Span.ofJson? span)
    | _ => none
  | "if" =>
    match ← v.fields? ["if_part", "else_if_parts", "else_statements", "span"] with
    | [first, elseIfs, otherwise, span] =>
      return .ifChain (← Json.required? (readBranch? read) first)
        (← Json.defaulted? [] (Json.list? (readBranch? read)) elseIfs)
        (← Json.optional? (Json.list? read) otherwise) (← Json.optional? Span.ofJson? span)
    | _ => none
  | "while" =>
    match ← v.fields? ["predicate", "statements", "span"] with
    | [predicate, body, span] =>
      return .whileLoop (← Json.required? readExpression? predicate)
        (← Json.defaulted? [] (Json.list? read) body) (← Json.optional? Span.ofJson? span)
    | _ => none
  | "for" =>
    match ← v.fields? ["variable", "collection", "statements", "span"] with
    | [loopVar, collection, body, span] =>
      return .forEach (← Json.required? Json.text? loopVar)
        (← Json.required? readExpression? collection)
        (← Json.defaulted? [] (Json.list? read) body) (← Json.optional? Span.ofJson? span)
    | _ => none
  | "try" =>
    match ← v.fields? ["statements", "except_statements", "span"] with
    | [body, handler, span] =>
      return .tryExcept (← Json.defaulted? [] (Json.list? read) body)
        (← Json.defaulted? [] (Json.list? read) handler) (← Json.optional? Span.ofJson? span)
    | _ => none
  | "execute" =>
    match ← v.fields? ["expression", "span"] with
    | [code, span] =>
      return .execute (← Json.required? readExpression? code) (← Json.optional? Span.ofJson? span)
    | _ => none
  | "return" =>
    match ← v.fields? ["value", "span"] with
    | [value, span] =>
      return .returnValue (← Json.optional? readExpression? value)
        (← Json.optional? Span.ofJson? span)
    | _ => none
  | _ => none

def read? : Nat → Bool → Json → Option Statement
  | 0, _, _ => none
  | depth + 1, nested, v => do
    let (kind, fields) ← v.tagged? "kind" kinds nested
    ofFields? (read? depth true) kind fields

def ofJson? (nested : Bool) (v : Json) : Option Statement := read? (v.depth + 1) nested v

end Statement

end BslLint
