import BslLint.Call.Replace
import BslLint.Lint.Context
import BslLint.Syntax.Walk

/-!
The rule against modal calls in configurations that do without them.
-/

namespace BslLint.Rules

def modalityLint : LintDescriptor where
  name := "dont_use_modality_mode"
  category := .codeStyle
  description := "Modal dialogs are not allowed when the configuration disables modality"
  fix := some ⟨.safe, "Replace the modal call with its asynchronous counterpart"⟩

/-- The suggestion to replace a modal call, if its text can be taken apart. -/
def modalitySuggestion (site : CallSite) (call : CallId) (variant : ScriptVariant) :
    Checked (Option Suggestion) := do
  match ← (site.replacementEdit call variant).attempt with
  | .error _ => return none
  | .ok edit =>
    let name := (call.replacement?.map Replacement.name).getD call.spelling
    return some ⟨"use `" ++ name.inVariant variant ++ "` instead", edit, .machineApplicable⟩

def reportModal (input : LintInput) (ctx : LintContext) (site : CallSite) (call : CallId)
    (nameStart : Nat) : Checked LintContext := do
  let fix ← modalitySuggestion site call input.project.variant
  let offset ← addOffsets site.text.start nameStart
  ctx.report input modalityLint offset site.nameLength
    ("Modal call `" ++ String.ofList site.callee ++ "` is not allowed in this configuration") fix

def visitModal (input : LintInput) (ctx : LintContext) : Event → Checked LintContext
  | .call (.invocation name receiver params span) scope =>
    match CallId.lookupModal? name with
    | none => return ctx
    | some call =>
      match ctx.checkpoint with
      | (.error e, ctx) => return ctx.skip e
      | (.ok _, ctx) => do
        let located : Analysis (CallSite × Nat) := do
          let site ← CallSite.ofInvocation scope (.invocation name receiver params span)
          return (site, ← site.nameStart)
        match ← located.attempt with
        | .error e => return ctx.skip e
        | .ok (site, nameStart) => reportModal input ctx site call nameStart
  | _ => return ctx

/-- Reports every modal call when the policy forbids them. -/
def modality : Rule where
  lint := modalityLint
  check input ctx :=
    if input.project.modality.forbidsModalCalls then
      walk LintContext.isCancelled (visitModal input) ctx (Event.ofModule input.module)
    else return ctx

end BslLint.Rules
