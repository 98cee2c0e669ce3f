import BslLint.Guard
import BslLint.Lint.Context
import BslLint.Syntax.Walk

/-!
The rule against code that is evaluated on the server without the safe mode.
-/

namespace BslLint.Rules

def dynamicCodeLint : LintDescriptor where
  name := "restriction_execute_eval_server"
  category := .security
  description := "Execute and Eval on the server require safe mode to be enabled first"

def checkDynamicCode (input : LintInput) (ctx : LintContext) (site : Analysis CallSite) :
    Checked LintContext := do
  match ← site.attempt with
  | .error e => return ctx.skip e
  | .ok site =>
    if !site.requiresGuard then return ctx
    else match site.isGuarded ctx.cancellation with
      | (.error e, c) => return (ctx.withCancellation c).skip e
      | (.ok true, c) => return ctx.withCancellation c
      | (.ok false, c) =>
        (ctx.withCancellation c).report input dynamicCodeLint site.text.start site.text.length
          ("`" ++ String.ofList site.callee ++ "` may run on the server without safe mode enabled")

def visitDynamicCode (input : LintInput) (ctx : LintContext) : Event → Checked LintContext
  | .execute s scope => checkDynamicCode input ctx (CallSite.ofExecute scope s)
  | .call e scope =>
    if e.isEval then checkDynamicCode input ctx (CallSite.ofInvocation scope e) else return ctx
  | _ => return ctx

/-- Reports code that is evaluated on the server in a routine without guard. -/
def dynamicCode : Rule where
  lint := dynamicCodeLint
  check input ctx :=
    walk LintContext.isCancelled (visitDynamicCode input) ctx (Event.ofModule input.module)

end BslLint.Rules
