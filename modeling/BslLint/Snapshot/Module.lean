import BslLint.Json.Reader
import BslLint.Snapshot.Condition
import BslLint.Snapshot.Statement
import BslLint.Syntax.Module
import BslLint.Text.Blank

/-!
Modules in snapshots: the JSON texts in which modules are handed in. A snapshot names its module.
-/

namespace BslLint

namespace Annotation

def toJson (a : Annotation) : Json :=
  .object [("kind", .string a.kind.code), ("target", .ofText a.target),
    ("span", .ofOption Span.toJson a.span)]

def ofJson? (v : Json) : Option Annotation := do
  match ← v.fields? ["kind", "target", "span"] with
  | [kind, target, span] =>
    return ⟨← Json.required? (Json.choice? AnnotationKind.all AnnotationKind.code true) kind,
      ← Json.required? Json.text? target, ← Json.optional? Span.ofJson? span⟩
  | _ => none

end Annotation

namespace Method

def toFields (m : Method) : List (String × Json) :=
  [("name", .ofText m.name), ("kind", .string m.kind.code), ("export", .bool m.isExport),
    ("directives", .array (m.directives.map fun d => .string d.code)),
    ("annotations", .array (m.annotations.map Annotation.toJson)),
    ("statements", .array (Statement.listToJson m.statements)),
    ("span", .ofOption Span.toJson m.span), ("name_span", .ofOption Span.toJson m.nameSpan),
    ("doc_comment", .ofOption Span.toJson m.docComment)]

def ofFields? (v : Json) : Option Method := do
  match ← v.fields? ["name", "kind", "export", "directives", "annotations", "statements", "span",
    "name_span", "doc_comment"] with
  | [name, kind, isExport, directives, annotations, statements, span, nameSpan, docComment] =>
    return {
      name := ← Json.required? Json.text? name
      kind := ← Json.required? (Json.choice? MethodKind.all MethodKind.code true) kind
      isExport := ← Json.defaulted? false Json.bool? isExport
      directives := ←
        Json.defaulted? [] (Json.list? (Json.choice? Directive.all Directive.code true)) directives
      annotations := ← Json.defaulted? [] (Json.list? Annotation.ofJson?) annotations
      statements := ← Json.defaulted? [] (Json.list? (Statement.ofJson? true)) statements
      span := ← Json.optional? Span.ofJson? span
      nameSpan := ← Json.optional? Span.ofJson? nameSpan
      docComment := ← Json.optional? Span.ofJson? docComment }
  | _ => none

end Method

namespace Item

def kinds : List String := ["method", "region"]

mutual

def toJson : Item → Json
  | .method m => .object (("item", .string "method") :: m.toFields)
  | .region head items =>
    .object [("item", .string "region"), ("condition", head.condition.toJson),
      ("condition_span", .ofOption Span.toJson head.conditionSpan),
      ("items", .array (listToJson items)), ("span", .ofOption Span.toJson head.span)]

def listToJson : List Item → List Json
  | [] => []
  | i :: is => i.toJson :: listToJson is

end

def ofFields? (read : Json → Option Item) (kind : String) (v : Json) : Option Item := do
  match kind with
  | "method" => return .method (← Method.ofFields? v)
  | "region" =>
    match ← v.fields? ["condition", "condition_span", "items", "span"] with
    | [condition, conditionSpan, items, span] =>
      let condition ← Json.required? (Condition.ofJson? true) condition
      let conditionSpan ← Json.optional? Span.ofJson? conditionSpan
      let items ← Json.defaulted? [] (Json.list? read) items
      return .region ⟨condition, conditionSpan, ← Json.optional? Span.ofJson? span⟩ items
    | _ => none
  | _ => none

def read? : Nat → Bool → Json → Option Item
  | 0, _, _ => none
  | depth + 1, nested, v => do
    let (kind, fields) ← v.tagged? "item" kinds nested
    ofFields? (read? depth true) kind fields

def ofJson? (nested : Bool) (v : Json) : Option Item := read? (v.depth + 1) nested v

end Item

inductive SnapshotError where
  /-- The text is no JSON, or not of the form of a module. -/
  | invalid
  /-- The module has no name, or one of white space only. -/
  | unnamed
deriving DecidableEq, Repr

namespace SnapshotError

def message : SnapshotError → String
  | invalid => "invalid AST snapshot"
  | unnamed => "module snapshot has no name"

end SnapshotError

namespace Module

def fieldNames : List String := ["name", "source", "environments", "items", "statements"]

def toJson (m : Module) : Json :=
  .object [("name", .ofText m.name), ("source", .ofText m.source),
    ("environments", m.environments.toJson), ("items", .array (Item.listToJson m.items)),
    ("statements", .array (Statement.listToJson m.statements))]

def ofJson? (v : Json) : Option Module := do
  match ← v.fields? fieldNames with
  | [name, source, environments, items, statements] =>
    return ⟨← Json.required? Json.text? name, ← Json.required? Json.text? source,
      ← Json.defaulted? .all (EnvironmentSet.ofJson? false) environments,
      ← Json.defaulted? [] (Json.list? (Item.ofJson? false)) items,
      ← Json.defaulted? [] (Json.list? (Statement.ofJson? false)) statements⟩
  | _ => none

def named (m : Module) : Except SnapshotError Module :=
  if (Text.trim m.name).isEmpty then .error .unnamed else .ok m

/-- The module of a snapshot. Members that modules do not have are passed over unread. -/
def ofSnapshot (t : Text) : Except SnapshotError Module :=
  match (Json.parseRecord? fieldNames.contains t).bind ofJson? with
  | none => .error .invalid
  | some m => m.named

end Module

end BslLint
