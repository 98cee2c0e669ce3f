import BslLint.Cancellation
import BslLint.Call.Registry
import BslLint.Call.Site

/-!
The safe-mode guard. A routine counts as guarded when some statement of it switches the safe mode
on by a literal. The branches of conditionals are searched, whichever of them leads to the risky
call; the bodies of loops and of tries are not.
-/

namespace BslLint

/-- The state of the safe mode that statements establish. -/
inductive GuardState where
  | enabled
  | disabled
  | unknown
deriving DecidableEq, Repr

namespace GuardState

/-- The state after two findings: switching on anywhere wins, then switching off. -/
def merge : GuardState → GuardState → GuardState
  | .enabled, _ | _, .enabled => .enabled
  | .disabled, _ | _, .disabled => .disabled
  | .unknown, .unknown => .unknown

/-- The state that a call establishes: one of the safe-mode switch, without receiver and with a
boolean literal as its only argument. -/
def ofCall : Expression → GuardState
  | .invocation name none [some argument] _ =>
    if CallId.lookup? name = some .setSafeMode then
      match argument.boolean? with
      | some true => .enabled
      | some false => .disabled
      | none => .unknown
    else .unknown
  | _ => .unknown

mutual

def ofStatement : Statement → GuardState
  | .simple left none _ => ofCall left
  | .ifChain first elseIfs otherwise _ =>
    merge (merge (ofBranch first) (ofBranches elseIfs)) (ofElse otherwise)
  | _ => .unknown

def ofBranch : Branch → GuardState
  | .mk _ body => ofStatements body

def ofBranches : List Branch → GuardState
  | [] => .unknown
  | b :: bs => merge (ofBranch b) (ofBranches bs)

def ofElse : Option (List Statement) → GuardState
  | none => .unknown
  | some body => ofStatements body

def ofStatements : List Statement → GuardState
  | [] => .unknown
  | s :: ss => merge (ofStatement s) (ofStatements ss)

end

/-- The state that the rest of a statement list establishes, given the state so far. The
cancellation is polled before every statement. -/
def scanFrom (state : GuardState) :
    List Statement → Cancellation → Except AnalysisError GuardState × Cancellation
  | [], c => (.ok state, c)
  | s :: ss, c =>
    match c.poll with
    | (true, c) => (.error .cancelled, c)
    | (false, c) => scanFrom (state.merge (ofStatement s)) ss c

def scan (statements : List Statement) (c : Cancellation) :
    Except AnalysisError GuardState × Cancellation :=
  scanFrom .unknown statements c

end GuardState

namespace CallSite

/-- Whether the call may run on the server, where it needs the guard. -/
def requiresGuard (site : CallSite) : Bool := site.environments.contains .server

/-- Whether the routine of the call switches the safe mode on. -/
def isGuarded (site : CallSite) (c : Cancellation) : Except AnalysisError Bool × Cancellation :=
  match GuardState.scan site.statements c with
  | (.ok state, c) => (.ok (state == .enabled), c)
  | (.error e, c) => (.error e, c)

end CallSite

namespace Expression

def isEval : Expression → Bool
  | .invocation name _ _ _ => CallId.lookup? name = some .eval
  | _ => false

end Expression

end BslLint
