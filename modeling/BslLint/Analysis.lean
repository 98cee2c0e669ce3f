import BslLint.Span

/-!
The ways in which the analysis of one node can fail. None of them ends a run: the node is passed
over, and the analysis goes on with the next one.
-/

namespace BslLint

/-- Why a node yields no finding. -/
inductive AnalysisError where
  /-- The node has no text behind it: no span, or one that is no slice of the text. -/
  | noConcreteSyntax
  /-- The text of a call has no name or no argument list where one is needed. -/
  | malformedCall (text : Text)
  /-- The expression is no invocation. -/
  | notACall
  /-- The statement executes no code. -/
  | notExecute
  /-- The registered call has no replacement. -/
  | noReplacement (call : String)
  /-- The module does not declare the method. -/
  | undeclared (method : Text) (module : Text)
  /-- The run was cancelled. -/
  | cancelled
deriving DecidableEq, Repr

namespace AnalysisError

def message : AnalysisError → String
  | noConcreteSyntax => "node has no concrete syntax"
  | malformedCall text => "malformed call text: " ++ String.ofList text
  | notACall => "malformed call text: expression is not a call"
  | notExecute => "malformed call text: statement is not Execute"
  | noReplacement call => "malformed call text: `" ++ call ++ "` has no rewrite template"
  | undeclared method module =>
    "cannot determine containing scope: method `" ++ String.ofList method ++
      "` is not declared in module `" ++ String.ofList module ++ "`"
  | cancelled => "analysis cancelled"

end AnalysisError

abbrev Analysis (α : Type) := Outcome AnalysisError α

/-- The text behind a span of a module's text. -/
def locate (source : Text) (span : Option Span) : Analysis SourceText :=
  match span with
  | none => .error .noConcreteSyntax
  | some s => do
    let stop ← s.checkedStop
    match Text.slice? source s.offset stop with
    | none => .error .noConcreteSyntax
    | some raw => return ⟨s.offset, s.length, Text.rowAt source s.offset, raw⟩

end BslLint
