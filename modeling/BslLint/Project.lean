import BslLint.Spelling

/-!
What the checks have to know about the project under analysis.
-/

namespace BslLint

/-- How the configuration treats modal calls. -/
inductive ModalityPolicy where
  | unrestricted
  | dontUse
deriving DecidableEq, Repr

/-- The spelling of the project's code, its policy on modal calls, and whether its modules belong
to an extension. -/
structure Project where
  variant : ScriptVariant := .primary
  modality : ModalityPolicy := .unrestricted
  isExtension : Bool := false
deriving DecidableEq, Repr

namespace ScriptVariant

/-- The names of a variant in settings, the one it is written with first. -/
def names : ScriptVariant → List String
  | .primary => ["primary", "russian", "ru"]
  | .alternate => ["alternate", "english", "en"]

def ofName? (name : String) : Option ScriptVariant :=
  [primary, alternate].find? fun v => v.names.contains name

def code (v : ScriptVariant) : String := v.pick "primary" "alternate"

end ScriptVariant

namespace ModalityPolicy

/-- The names of a policy in settings, the one it is written with first. -/
def names : ModalityPolicy → List String
  | .unrestricted => ["unrestricted", "use", "use-with-warnings"]
  | .dontUse => ["dont-use"]

def ofName? (name : String) : Option ModalityPolicy :=
  [unrestricted, dontUse].find? fun p => p.names.contains name

def code : ModalityPolicy → String
  | .unrestricted => "unrestricted"
  | .dontUse => "dont-use"

def forbidsModalCalls (p : ModalityPolicy) : Bool := p == .dontUse

end ModalityPolicy

namespace Project

def withVariant (p : Project) (v : ScriptVariant) : Project := { p with variant := v }

def withModality (p : Project) (m : ModalityPolicy) : Project := { p with modality := m }

def asExtension (p : Project) : Project := { p with isExtension := true }

end Project

end BslLint
