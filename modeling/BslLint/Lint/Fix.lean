import BslLint.Lint.Diagnostic

/-!
The application of suggestions. They are taken in the order of their findings; one that does not
fit the text or overlaps one taken before is left for a later run.
-/

namespace BslLint

/-- Which suggestions were taken, and how many were left for which reason. -/
structure FixSelection where
  accepted : List Edit := []
  skippedUnsafe : Nat := 0
  skippedOther : Nat := 0
deriving DecidableEq, Repr

structure FixResult where
  source : Text
  applied : Nat
  skippedUnsafe : Nat
  skippedOther : Nat
deriving DecidableEq, Repr

namespace FixResult

def skipped (r : FixResult) : Nat := r.skippedUnsafe + r.skippedOther

end FixResult

/-- What becomes of a suggestion by its applicability alone. -/
inductive Eligibility where
  | eligible
  | needsConsent
  | never
deriving DecidableEq, Repr

namespace Applicability

/-- Suggestions for machines are always eligible, those with risks only by consent, and those
without a statement never. -/
def eligibility (allowUnsafe : Bool) : Applicability → Eligibility
  | .machineApplicable => .eligible
  | .maybeIncorrect | .hasPlaceholders => if allowUnsafe then .eligible else .needsConsent
  | .unspecified => .never

end Applicability

namespace FixSelection

/-- Whether an edit fits the text and overlaps none that was accepted. -/
def admits {ε : Type} (sel : FixSelection) (source : Text) (e : Edit) : Outcome ε Bool := do
  match ← (Edit.validate source e).attempt with
  | .error _ => return false
  | .ok _ => return !(← Edit.anyOverlaps e sel.accepted)

def consider {ε : Type} (source : Text) (allowUnsafe : Bool) (sel : FixSelection)
    (s : Suggestion) : Outcome ε FixSelection :=
  match s.applicability.eligibility allowUnsafe with
  | .needsConsent => return { sel with skippedUnsafe := sel.skippedUnsafe + 1 }
  | .never => return { sel with skippedOther := sel.skippedOther + 1 }
  | .eligible => do
    if ← sel.admits source s.edit then return { sel with accepted := sel.accepted ++ [s.edit] }
    else return { sel with skippedOther := sel.skippedOther + 1 }

def of {ε : Type} (source : Text) (diagnostics : List Diagnostic) (allowUnsafe : Bool) :
    Outcome ε FixSelection :=
  Outcome.foldList (consider source allowUnsafe) {} (diagnostics.filterMap Diagnostic.suggestion)

end FixSelection

def applySuggestions (source : Text) (diagnostics : List Diagnostic) (allowUnsafe : Bool) :
    Outcome EditError FixResult := do
  let sel ← FixSelection.of source diagnostics allowUnsafe
  let fixed ← Edit.applyAll source sel.accepted
  return ⟨fixed, sel.accepted.length, sel.skippedUnsafe, sel.skippedOther⟩

end BslLint
