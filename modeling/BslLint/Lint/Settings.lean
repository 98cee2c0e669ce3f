import BslLint.Lint.Descriptor

/-!
The levels of lints. A setting is stored under the first name of its lint, and the last setting of
a lint counts.
-/

namespace BslLint

inductive LintLevel where
  | allow
  | warn
  | error
deriving DecidableEq, Repr

namespace LintLevel

def label : LintLevel → String
  | .allow => "allow"
  | .warn => "warning"
  | .error => "error"

def code : LintLevel → String
  | .allow => "allow"
  | .warn => "warn"
  | .error => "error"

def all : List LintLevel := [allow, warn, error]

def ofName? (name : String) : Option LintLevel := all.find? fun l => l.code == name

end LintLevel

/-- The levels that were set, the latest first. -/
structure LintSettings where
  levels : List (String × LintLevel) := []
deriving DecidableEq, Repr

namespace LintSettings

def set (s : LintSettings) (name : String) (level : LintLevel) : LintSettings :=
  ⟨(resolveLintAlias name, level) :: s.levels⟩

def withLevels (s : LintSettings) (levels : List (String × LintLevel)) : LintSettings :=
  levels.foldl (fun s l => s.set l.1 l.2) s

def disable (s : LintSettings) (names : List String) : LintSettings :=
  names.foldl (fun s name => s.set name .allow) s

/-- The level of a lint: what is stored under the given name itself, or under the first name of its
lint, and a warning when nothing was set. -/
def levelFor (s : LintSettings) (name : String) : LintLevel :=
  match s.levels.lookup name with
  | some level => level
  | none => (s.levels.lookup (resolveLintAlias name)).getD .warn

end LintSettings

end BslLint
