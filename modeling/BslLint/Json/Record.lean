import BslLint.Json.Basic
import BslLint.Outcome
import BslLint.Text.Basic

/-!
Typed values in JSON: records, choices between named constants, and variants with a tag.

A record is an object or the array of its fields in order. A value that was taken in whole before
its variant was known is *nested*; there a variant may also be given by its number, and an empty
object stands for the missing content of a constant.
-/

namespace BslLint.Json

def member? (key : String) (members : List (String × Json)) : Option (Option Json) :=
  match members.filter (·.1 == key) with
  | [] => some none
  | [m] => some (some m.2)
  | _ => none

/-- The values of the named fields of a record. In an object other members do not count; an array
may leave out fields at its end. -/
def fields? (names : List String) : Json → Option (List (Option Json))
  | .object members => names.mapM fun name => member? name members
  | .array elements =>
    if elements.length ≤ names.length then
      some (elements.map some ++ List.replicate (names.length - elements.length) none)
    else none
  | _ => none

def required? {α : Type} (read : Json → Option α) (field : Option Json) : Option α :=
  field.bind read

/-- A field that may be missing or null. -/
def optional? {α : Type} (read : Json → Option α) : Option Json → Option (Option α)
  | none => some none
  | some v => if v.isNull then some none else (read v).map some

/-- A field with a value for when it is missing. -/
def defaulted? {α : Type} (otherwise : α) (read : Json → Option α) : Option Json → Option α
  | none => some otherwise
  | some v => read v

def list? {α : Type} (read : Json → Option α) : Json → Option (List α)
  | .array elements => elements.mapM read
  | _ => none

def bool? : Json → Option Bool
  | .bool b => some b
  | _ => none

def string? : Json → Option String
  | .string s => some s
  | _ => none

def text? (v : Json) : Option Text := v.string?.map String.toList

def offset? : Json → Option Nat
  | .natural n => if n < offsetLimit then some n else none
  | _ => none

def ofText (t : Text) : Json := .string (String.ofList t)

/-- A value that may be absent; null stands for its absence. -/
def ofOption {α : Type} (write : α → Json) : Option α → Json
  | none => .null
  | some a => write a

/-- Whether a value is the missing content of a constant. -/
def isNoContent (nested : Bool) : Json → Bool
  | .null => true
  | .object [] => nested
  | _ => false

/-- A constant of a list: its name, or an object that has no content under its name. -/
def choice? {α : Type} (all : List α) (name : α → String) (nested : Bool) : Json → Option α
  | .string s => all.find? fun a => name a == s
  | .object [(s, content)] =>
    if isNoContent nested content then all.find? fun a => name a == s else none
  | _ => none

/-- A variant of a list by its name or, in a nested value, by its number. -/
def variantName? (names : List String) (nested : Bool) : Json → Option String
  | .string s => if names.contains s then some s else none
  | .natural n => if nested then names[n]? else none
  | _ => none

/-- The variant of a record that has its tag among its fields, and the record without the tag. In an
array the tag comes first. -/
def tagged? (key : String) (names : List String) (nested : Bool) :
    Json → Option (String × Json)
  | .object members => do
    let tag ← variantName? names nested (← ← member? key members)
    return (tag, .object (members.filter (·.1 != key)))
  | .array (first :: fields) => do return (← variantName? names nested first, .array fields)
  | _ => none

/-- The content of a variant, and whether it is nested. -/
structure Content where
  value : Option Json
  nested : Bool

def standsBefore (first second : String) (members : List (String × Json)) : Bool :=
  (members.find? fun m => m.1 == first || m.1 == second).any (·.1 == first)

/-- The variant of a record that has its tag in one field and its content in another. An object has
the tag as a constant, and a content that stands before its tag is taken in whole until the tag is
known; an array of two has the tag as the name of a variant. -/
def content? (tagKey contentKey : String) (names : List String) (nested : Bool) :
    Json → Option (String × Content)
  | .object members => do
    let tag ← choice? names id nested (← ← member? tagKey members)
    let value ← member? contentKey members
    return (tag, ⟨value, nested || standsBefore contentKey tagKey members⟩)
  | .array [first, content] => do
    return (← variantName? names nested first, ⟨some content, nested⟩)
  | _ => none

end BslLint.Json
