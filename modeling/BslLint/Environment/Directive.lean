import BslLint.Spelling
import BslLint.Text.Blank
import BslLint.Environment.Basic

/-!
Compilation directives: the marks on a routine that limit where it is compiled.
-/

namespace BslLint

inductive Directive where
  | atClient
  | atServer
  | atServerNoContext
  | atClientAtServerNoContext
  | atClientAtServer
deriving DecidableEq, Repr

/-- The name that a mark above a routine carries: no white space around it, no leading
ampersands. -/
def pragmaName (name : Text) : Text := (Text.trim name).dropWhile (· == '&')

namespace Directive

def all : List Directive :=
  [atClient, atServer, atServerNoContext, atClientAtServerNoContext, atClientAtServer]

def spelling : Directive → Spelling
  | atClient => ⟨"НаКлиенте", "AtClient"⟩
  | atServer => ⟨"НаСервере", "AtServer"⟩
  | atServerNoContext => ⟨"НаСервереБезКонтекста", "AtServerNoContext"⟩
  | atClientAtServerNoContext => ⟨"НаКлиентеНаСервереБезКонтекста", "AtClientAtServerNoContext"⟩
  | atClientAtServer => ⟨"НаКлиентеНаСервере", "AtClientAtServer"⟩

def code : Directive → String
  | atClient => "at_client"
  | atServer => "at_server"
  | atServerNoContext => "at_server_no_context"
  | atClientAtServerNoContext => "at_client_at_server_no_context"
  | atClientAtServer => "at_client_at_server"

def ofName? (name : Text) : Option Directive :=
  all.find? fun d => d.spelling.covers (pragmaName name)

def environments : Directive → EnvironmentSet
  | atClient => .client
  | atServer | atServerNoContext => .server
  | atClientAtServerNoContext | atClientAtServer => EnvironmentSet.client.union .server

/-- The environments that a list of directives allows: those of any of them, and all of them when
there is no directive. -/
def environmentsOf : List Directive → EnvironmentSet
  | [] => .all
  | ds => ds.foldl (fun s d => s.union d.environments) .empty

end Directive

end BslLint
