import BslLint.Call.Registry
import BslLint.Call.Site
import BslLint.Edit.Basic

/-!
The replacement of a modal call by its asynchronous counterpart. A dot in front of the name is
replaced and written again; the arguments keep their text.
-/

namespace BslLint

namespace Text

def splitFirst? (c : Char) (t : Text) : Option (Text × Text) :=
  match t.dropWhile (· != c) with
  | [] => none
  | _ :: rest => some (t.takeWhile (· != c), rest)

def splitLast? (c : Char) (t : Text) : Option (Text × Text) :=
  (splitFirst? c t.reverse).map fun (after, before) => (before.reverse, after.reverse)

end Text

namespace CallSite

/-- The pieces of a call's text around its name and its outermost parentheses. -/
structure Pieces where
  /-- What stands before the name, a dot directly in front of it apart. -/
  lead : Text
  /-- The dot in front of the name, if there is one. -/
  dot : Text
  /-- What stands between the start of the name and the opening parenthesis. -/
  head : Text
  /-- The arguments, up to the last closing parenthesis. -/
  arguments : Text
deriving DecidableEq, Repr

/-- Takes a call's text apart, given the start and the length of the name. The parentheses are the
first opening one behind the name and the last closing one of the text. -/
def pieces (raw : Text) (nameStart nameLength : Nat) : Analysis Pieces := do
  let (before, fromName) ← Text.cut raw nameStart
  let (name, afterName) ← Text.cut fromName nameLength
  let some (gap, fromArguments) := Text.splitFirst? '(' afterName | .error (.malformedCall raw)
  let some (arguments, _) := Text.splitLast? ')' fromArguments | .error (.malformedCall raw)
  let (lead, dot) := if before.getLast? = some '.' then (before.dropLast, ['.']) else (before, [])
  return ⟨lead, dot, name ++ gap, arguments⟩

/-- The edit that puts the replacement of a registered call into the place of the call. -/
def replacementEdit (site : CallSite) (call : CallId) (variant : ScriptVariant) :
    Analysis Edit := do
  let some replacement := call.replacement? | .error (.noReplacement call.code)
  let nameStart ← site.nameStart
  let p ← pieces site.text.raw nameStart site.nameLength
  let name := p.dot ++ replacement.name.textIn variant
  let anchor := Text.byteLength p.lead
  let afterOpen := anchor + Text.byteLength (p.dot ++ p.head) + 1
  let new := match replacement.style with
    | .passthrough => name ++ ['('] ++ p.arguments ++ [')']
    | .commaFirst => name ++ ['(', ','] ++ p.arguments ++ [')']
    | .selector => name ++ ['(', ',']
  let stop := match replacement.reach with
    | .throughCallEnd => afterOpen + Text.byteLength p.arguments + 1
    | .throughOpenParen => afterOpen
  return Edit.replace (← addOffsets site.text.start anchor) (← addOffsets site.text.start stop) new

end CallSite

end BslLint
