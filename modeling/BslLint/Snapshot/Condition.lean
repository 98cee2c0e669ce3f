import BslLint.Json.Record
import BslLint.Environment.Condition

/-!
Preprocessor conditions and environment sets in snapshots.
-/

namespace BslLint

namespace EnvironmentSet

def toJson (s : EnvironmentSet) : Json := .array (s.toList.map fun e => .string e.code)

def ofJson? (nested : Bool) (v : Json) : Option EnvironmentSet :=
  (v.list? (Json.choice? Environment.all Environment.code nested)).map ofList

end EnvironmentSet

namespace Condition

def ops : List String := ["symbol", "not", "and", "or"]

mutual

def toJson : Condition → Json
  | .symbol s => .object [("op", .string "symbol"), ("args", .string s.code)]
  | .not c => .object [("op", .string "not"), ("args", c.toJson)]
  | .and cs => .object [("op", .string "and"), ("args", .array (listToJson cs))]
  | .or cs => .object [("op", .string "or"), ("args", .array (listToJson cs))]

def listToJson : List Condition → List Json
  | [] => []
  | c :: cs => c.toJson :: listToJson cs

end

/-- The condition of an operator and its operands, where `read` reads the operands. -/
def ofContent? (read : Json → Option Condition) (nested : Bool) : String → Json → Option Condition
  | "symbol", v => (v.choice? Symbol.all Symbol.code nested).map .symbol
  | "not", v => (read v).map .not
  | "and", v => (v.list? read).map .and
  | "or", v => (v.list? read).map .or
  | _, _ => none

def read? : Nat → Bool → Json → Option Condition
  | 0, _, _ => none
  | depth + 1, nested, v => do
    let (op, operands) ← v.content? "op" "args" ops nested
    ofContent? (read? depth operands.nested) operands.nested op (← operands.value)

def ofJson? (nested : Bool) (v : Json) : Option Condition := read? (v.depth + 1) nested v

end Condition

end BslLint
