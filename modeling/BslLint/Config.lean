import BslLint.Lint.Settings
import BslLint.Project
import BslLint.Toml.Reader
import BslLint.Toml.Sound

/-!
Configuration files. The table `project` holds the settings of the project; in the table `lints` the
key `disabled` lists lints that do not run, and every other key sets the level of the lint it names.
-/

namespace BslLint

/-- What a configuration file says. -/
structure Config where
  project : Project := {}
  disabled : List String := []
  levels : List (String × LintLevel) := []
deriving DecidableEq, Repr

namespace Config

def fileName : String := "bsl-clippy.toml"

/-- Whether a value is an empty table or an empty array. -/
def isVoid : Toml → Bool
  | .table _ [] | .array [] => true
  | _ => false

/-- The name of a constant: a string, or the only key of a table with nothing under it. -/
def constant? : Toml → Option String
  | .string s => some s
  | .table _ [(s, content)] => if isVoid content then some s else none
  | _ => none

def string? : Toml → Option String
  | .string s => some s
  | _ => none

def bool? : Toml → Option Bool
  | .boolean b => some b
  | _ => none

def strings? : Toml → Option (List String)
  | .array elements => elements.mapM string?
  | _ => none

def orDefault {α : Type} (otherwise : α) (read : Toml → Option α) : Option Toml → Option α
  | none => some otherwise
  | some v => read v

/-- The settings of a project from its three values. -/
def projectOf? (variant modality isExtension : Option Toml) : Option Project := do
  return ⟨← orDefault .primary (fun v => (constant? v).bind ScriptVariant.ofName?) variant,
    ← orDefault .unrestricted (fun v => (constant? v).bind ModalityPolicy.ofName?) modality,
    ← orDefault false bool? isExtension⟩

/-- Whether the entries under all keys but the known ones are sound. That is all that is asked of
them. -/
def othersAreSound (known : List String) (entries : List (String × Toml)) : Bool :=
  Toml.areEntriesSound (entries.filter (!known.contains ·.1))

def projectKeys : List String := ["variant", "script_variant", "modality", "extension"]

/-- The settings of a project: a table, or an array of its values in order. The variant has two
names and may be given only once. A date has parts like a table, but none of the settings. -/
def project? : Toml → Option Project
  | .table _ entries =>
    match entries.lookup "variant", entries.lookup "script_variant" with
    | some _, some _ => none
    | variant, second =>
      if othersAreSound projectKeys entries then
        projectOf? (variant.or second) (entries.lookup "modality") (entries.lookup "extension")
      else none
  | .array elements | .tables elements => projectOf? elements[0]? elements[1]? elements[2]?
  | .moment _ => some {}
  | _ => none

/-- The level that a setting gives. -/
def level? (v : Toml) : Option LintLevel := (string? v).bind LintLevel.ofName?

/-- The lints that do not run, and the levels of the others. -/
def lints? : Toml → Option (List String × List (String × LintLevel))
  | .table _ entries => do
    let disabled ← orDefault [] strings? (entries.lookup "disabled")
    let levels ← (entries.filter (·.1 != "disabled")).mapM fun e => do
      return (e.1, ← level? e.2)
    return (disabled, levels)
  | _ => none

/-- The configuration of a document; of what stands under other keys only the numbers are looked
at. -/
def ofToml? : Toml → Option Config
  | .table _ entries => do
    let project ← orDefault {} project? (entries.lookup "project")
    let (disabled, levels) ← orDefault ([], []) lints? (entries.lookup "lints")
    if othersAreSound ["project", "lints"] entries then return ⟨project, disabled, levels⟩ else none
  | _ => none

def parse? (t : Text) : Option Config := (Toml.parse? t).bind ofToml?

/-- The settings of lints that the configuration asks for. -/
def settings (c : Config) : LintSettings :=
  (LintSettings.withLevels {} c.levels).disable c.disabled

end Config

end BslLint
