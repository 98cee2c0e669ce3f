import BslLint.Toml.Basic
import BslLint.Toml.Scalar

/-!
Sound values: those in which every number can be held. A document may hold other numbers as long as
nobody looks at them.
-/

namespace BslLint.Toml

mutual

/-- Whether every number inside a value can be held. -/
def isSound : Toml → Bool
  | .string _ | .boolean _ | .moment _ => true
  | .number spelling => isHeld spelling.toList
  | .array elements | .tables elements => areSound elements
  | .table _ entries => areEntriesSound entries

def areSound : List Toml → Bool
  | [] => true
  | v :: vs => v.isSound && areSound vs

def areEntriesSound : List (String × Toml) → Bool
  | [] => true
  | (_, v) :: entries => v.isSound && areEntriesSound entries

end

end BslLint.Toml
