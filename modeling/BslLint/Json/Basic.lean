/-!
JSON values. The members of an object keep their order and may repeat a key; what a repetition
means is for the reader of a record to say.
-/

namespace BslLint

/-- A JSON value. A number is a natural number, or keeps its spelling. -/
inductive Json where
  | null
  | bool (value : Bool)
  | natural (value : Nat)
  | decimal (spelling : String)
  | string (value : String)
  | array (elements : List Json)
  | object (members : List (String × Json))

namespace Json

mutual

def depth : Json → Nat
  | .array elements => depthElements elements + 1
  | .object members => depthMembers members + 1
  | _ => 0

def depthElements : List Json → Nat
  | [] => 0
  | v :: vs => max v.depth (depthElements vs)

def depthMembers : List (String × Json) → Nat
  | [] => 0
  | m :: ms => max (depthMember m) (depthMembers ms)

def depthMember : String × Json → Nat
  | (_, v) => v.depth

end

def get? (key : String) : Json → Option Json
  | .object members => members.lookup key
  | _ => none

def isNull : Json → Bool
  | .null => true
  | _ => false

end Json

end BslLint
