import BslLint.Edit.Basic
import BslLint.Lint.Settings
import BslLint.Span

/-!
Findings and the fixes they suggest.
-/

namespace BslLint

inductive Applicability where
  | machineApplicable
  | maybeIncorrect
  | hasPlaceholders
  | unspecified
deriving DecidableEq, Repr

structure Suggestion where
  message : String
  edit : Edit
  applicability : Applicability
deriving DecidableEq, Repr

/-- A finding: its lint and level, the file it is in once that is known, its place, and what it
says. -/
structure Diagnostic where
  lint : LintDescriptor
  level : LintLevel
  file : Option String
  extent : Extent
  message : String
  help : Option String
  suggestion : Option Suggestion
deriving DecidableEq, Repr

end BslLint
