import BslLint.Json.Record
import BslLint.Project

/-!
Project settings as JSON records.
-/

namespace BslLint

namespace ScriptVariant

def spellings : List (String × ScriptVariant) :=
  [primary, alternate].flatMap fun v => v.names.map fun name => (name, v)

def ofJson? (v : Json) : Option ScriptVariant := (v.choice? spellings Prod.fst false).map Prod.snd

end ScriptVariant

namespace ModalityPolicy

def spellings : List (String × ModalityPolicy) :=
  [unrestricted, dontUse].flatMap fun p => p.names.map fun name => (name, p)

def ofJson? (v : Json) : Option ModalityPolicy := (v.choice? spellings Prod.fst false).map Prod.snd

end ModalityPolicy

namespace Project

/-- A record with the second name of the variant replaced by its first one. -/
def normalize : Json → Json
  | .object members =>
    .object (members.map fun m => if m.1 == "script_variant" then ("variant", m.2) else m)
  | v => v

def ofJson? (v : Json) : Option Project := do
  match ← (normalize v).fields? ["variant", "modality", "extension"] with
  | [variant, modality, isExtension] =>
    return ⟨← Json.defaulted? .primary ScriptVariant.ofJson? variant,
      ← Json.defaulted? .unrestricted ModalityPolicy.ofJson? modality,
      ← Json.defaulted? false Json.bool? isExtension⟩
  | _ => none

def toJson (p : Project) : Json :=
  .object [("variant", .string p.variant.code), ("modality", .string p.modality.code),
    ("extension", .bool p.isExtension)]

end Project

end BslLint
