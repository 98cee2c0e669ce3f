import BslLint.Scope
import BslLint.Text.Cut
import BslLint.Text.Word

/-!
Call sites: invocations and executed code, located in the text of their module. The name of the
called routine is looked up again in the text of the call, behind the receiver.
-/

namespace BslLint

/-- A located invocation or execution of code. `receiverEnd` is where the text of the receiver
ends, counted from the start of the call. -/
structure CallSite where
  module : Module
  callee : Text
  text : SourceText
  receiverEnd : Option Nat
  routine : Option Method
  environments : EnvironmentSet

namespace CallSite

/-- The end of a receiver relative to the start of its call, provided it lies in the call. -/
def receiverEndIn (call : SourceText) (receiver : Option Expression) : Analysis (Option Nat) :=
  match receiver.bind Expression.span with
  | none => return none
  | some s => do
    let stop ← s.checkedStop
    return if call.start ≤ stop && stop - call.start ≤ call.length
      then some (stop - call.start) else none

def ofInvocation (scope : Scope) : Expression → Analysis CallSite
  | .invocation name receiver _ span => do
    let text ← locate scope.module.source span
    let receiverEnd ← receiverEndIn text receiver
    return ⟨scope.module, name, text, receiverEnd, scope.method, scope.environments⟩
  | _ => .error .notACall

/-- The site of executed code; its name is the keyword at the front of its text. -/
def ofExecute (scope : Scope) : Statement → Analysis CallSite
  | .execute _ span => do
    let text ← locate scope.module.source span
    let (keyword, _) ← Text.cut text.raw (Text.lengthUntil (!Text.isIdentifier ·) text.raw)
    return ⟨scope.module, keyword, text, none, scope.method, scope.environments⟩
  | _ => .error .notExecute

/-- The statements among which the call stands: those of its method, or the module body. -/
def statements (site : CallSite) : List Statement :=
  match site.routine with
  | some m => m.statements
  | none => site.module.statements

/-- Where the name of the routine starts in the text of the call. Both the finding and its fix
rest on this place. -/
def nameStart (site : CallSite) : Analysis Nat :=
  match Text.findWord? site.text.raw site.callee (site.receiverEnd.getD 0) with
  | some start => return start
  | none => .error (.malformedCall site.text.raw)

def nameLength (site : CallSite) : Nat := Text.byteLength site.callee

end CallSite

end BslLint
