/-!
Faults of a whole operation, as opposed to the errors of single nodes.
-/

namespace BslLint

/-- What went wrong with an operation. -/
inductive Fault where
  | config (text : String)
  | other (text : String)
deriving DecidableEq, Repr

namespace Fault

def message : Fault → String
  | config text => "configuration error: " ++ text
  | other text => text

/-- The fault that is left of a chain of causes, the outermost first: only the wording of that one
is kept. -/
def ofCauses (causes : List String) : Fault := .other (causes.headD "")

end Fault

end BslLint
