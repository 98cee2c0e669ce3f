import BslLint.Json.Record
import BslLint.Syntax.Expression

/-!
Expressions in snapshots. Everything is written, with null for what is absent; what may be absent
can be left out when reading. Expressions are always read out of a larger value.
-/

namespace BslLint

namespace Span

def toJson (s : Span) : Json :=
  .object [("offset", .natural s.offset), ("length", .natural s.length)]

def ofJson? (v : Json) : Option Span := do
  match ← v.fields? ["offset", "length"] with
  | [offset, length] =>
    return ⟨← Json.required? Json.offset? offset, ← Json.required? Json.offset? length⟩
  | _ => none

end Span

namespace Literal

def types : List String := ["boolean", "string", "number", "date", "undefined", "null"]

def toJson : Literal → Json
  | .boolean b => .object [("type", .string "boolean"), ("value", .bool b)]
  | .string t => .object [("type", .string "string"), ("value", .ofText t)]
  | .number t => .object [("type", .string "number"), ("value", .ofText t)]
  | .date t => .object [("type", .string "date"), ("value", .ofText t)]
  | .undefined => .object [("type", .string "undefined")]
  | .null => .object [("type", .string "null")]

/-- The literal of a type and a value; the two constants have none, or null. -/
def ofContent? : String → Option Json → Option Literal
  | "boolean", some v => v.bool?.map .boolean
  | "string", some v => v.text?.map .string
  | "number", some v => v.text?.map .number
  | "date", some v => v.text?.map .date
  | "undefined", none | "undefined", some .null => some .undefined
  | "null", none | "null", some .null => some .null
  | _, _ => none

def ofJson? (v : Json) : Option Literal := do
  let (type, content) ← v.content? "type" "value" types true
  ofContent? type content.value

end Literal

namespace Expression

def kinds : List String := ["literal", "access", "invocation", "binary", "unary"]

mutual

def toJson : Expression → Json
  | .literal value span =>
    .object [("kind", .string "literal"), ("value", value.toJson),
      ("span", .ofOption Span.toJson span)]
  | .access name source span =>
    .object [("kind", .string "access"), ("name", .ofText name), ("source", optionToJson source),
      ("span", .ofOption Span.toJson span)]
  | .invocation name receiver params span =>
    .object [("kind", .string "invocation"), ("name", .ofText name),
      ("receiver", optionToJson receiver), ("params", .array (listToJson params)),
      ("span", .ofOption Span.toJson span)]
  | .binary op left right span =>
    .object [("kind", .string "binary"), ("op", .string op.code), ("left", left.toJson),
      ("right", right.toJson), ("span", .ofOption Span.toJson span)]
  | .unary op operand span =>
    .object [("kind", .string "unary"), ("op", .string op.code), ("operand", operand.toJson),
      ("span", .ofOption Span.toJson span)]

def optionToJson : Option Expression → Json
  | none => .null
  | some e => e.toJson

def listToJson : List (Option Expression) → List Json
  | [] => []
  | e :: es => optionToJson e :: listToJson es

end

/-- The expression of a kind whose fields a record gives, where `read` reads the operands. -/
def ofFields? (read : Json → Option Expression) (kind : String) (v : Json) : Option Expression := do
  match kind with
  | "literal" =>
    match ← v.fields? ["value", "span"] with
    | [value, span] =>
      return .literal (← Json.required? Literal.ofJson? value) (← Json.optional? Span.ofJson? span)
    | _ => none
  | "access" =>
    match ← v.fields? ["name", "source", "span"] with
    | [name, source, span] =>
      return .access (← Json.required? Json.text? name) (← Json.optional? read source)
        (← Json.optional? Span.ofJson? span)
    | _ => none
  | "invocation" =>
    match ← v.fields? ["name", "receiver", "params", "span"] with
    | [name, receiver, params, span] =>
      return .invocation (← Json.required? Json.text? name) (← Json.optional? read receiver)
        (← Json.defaulted? [] (Json.list? fun p => Json.optional? read (some p)) params)
        (← Json.optional? Span.ofJson? span)
    | _ => none
  | "binary" =>
    match ← v.fields? ["op", "left", "right", "span"] with
    | [op, left, right, span] =>
      return .binary (← Json.required? (Json.choice? BinaryOp.all BinaryOp.code true) op)
        (← Json.required? read left) (← Json.required? read right)
        (← Json.optional? Span.ofJson? span)
    | _ => none
  | "unary" =>
    match ← v.fields? ["op", "operand", "span"] with
    | [op, operand, span] =>
      return .unary (← Json.required? (Json.choice? UnaryOp.all UnaryOp.code true) op)
        (← Json.required? read operand) (← Json.optional? Span.ofJson? span)
    | _ => none
  | _ => none

def read? : Nat → Bool → Json → Option Expression
  | 0, _, _ => none
  | depth + 1, nested, v => do
    let (kind, fields) ← v.tagged? "kind" kinds nested
    ofFields? (read? depth true) kind fields

def ofJson? (nested : Bool) (v : Json) : Option Expression := read? (v.depth + 1) nested v

end Expression

end BslLint
