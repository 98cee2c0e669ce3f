import BslLint.Lint.Rules.Modality
import BslLint.Lint.Rules.DynamicCode
import BslLint.Lint.Rules.ExtensionMode
import BslLint.Lint.Rules.LinkSpacing

/-!
The rules, the choice among them, and their run over a module.
-/

namespace BslLint

/-- The rules in the order in which they run. -/
def defaultRules : List Rule :=
  [Rules.modality, Rules.dynamicCode, Rules.extensionMode, Rules.linkSpacing]

def findLint? (name : String) : Option LintDescriptor :=
  (defaultRules.map Rule.lint).find? fun l => l.name == resolveLintAlias name

def isKnownLint (name : String) : Bool :=
  isLintAlias name || defaultRules.any fun r => r.lint.name == name

def knownLints : List String :=
  defaultRules.map (fun r => r.lint.name) ++ lintAliases.map Prod.fst

structure UnknownLint where
  name : String
deriving DecidableEq, Repr

namespace UnknownLint

def message (e : UnknownLint) : String := "unknown lint: " ++ e.name

end UnknownLint

/-- Which rules run: only the named ones, if any are named, and none of the excluded ones. -/
structure RuleFilter where
  only : List String := []
  skip : List String := []
  disabled : List String := []
deriving DecidableEq, Repr

namespace RuleFilter

def passes (f : RuleFilter) (r : Rule) : Bool :=
  (f.only.isEmpty || (f.only.map resolveLintAlias).contains r.lint.name) &&
    !((f.skip ++ f.disabled).map resolveLintAlias).contains r.lint.name

/-- The rules that run, provided every name belongs to a lint. -/
def rules (f : RuleFilter) : Except UnknownLint (List Rule) :=
  match (f.only ++ f.skip ++ f.disabled).find? fun name => !isKnownLint name with
  | some name => .error ⟨name⟩
  | none => .ok (defaultRules.filter f.passes)

end RuleFilter

/-- Runs rules one after the other, until the run is seen to be cancelled. -/
def runRules (input : LintInput) (ctx : LintContext) : List Rule → Checked LintContext
  | [] => return ctx
  | r :: rest =>
    if ctx.isCancelled then return ctx
    else do runRules input (← r.check input ctx) rest

def lintModule (rules : List Rule) (input : LintInput) (c : Cancellation := .never) :
    Checked (List Diagnostic) := do
  return (← runRules input { cancellation := c } rules).finish

end BslLint
