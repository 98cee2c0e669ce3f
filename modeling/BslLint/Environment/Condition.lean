import BslLint.Spelling
import BslLint.Text.Blank
import BslLint.Environment.Basic

/-!
Preprocessor conditions: symbols joined by negation, conjunction and disjunction, each of which
holds in a set of environments.
-/

namespace BslLint

inductive Symbol where
  | client
  | atClient
  | server
  | atServer
  | thinClient
  | webClient
  | mobileClient
  | thickClientOrdinaryApplication
  | thickClientManagedApplication
  | externalConnection
  | mobileAppClient
  | mobileAppServer
  | mobileStandaloneServer
deriving DecidableEq, Repr

namespace Symbol

def all : List Symbol :=
  [client, atClient, server, atServer, thinClient, webClient, mobileClient,
   thickClientOrdinaryApplication, thickClientManagedApplication, externalConnection,
   mobileAppClient, mobileAppServer, mobileStandaloneServer]

theorem mem_all (s : Symbol) : s ∈ all := by cases s <;> decide

def spelling : Symbol → Spelling
  | client => ⟨"Клиент", "Client"⟩
  | atClient => ⟨"НаКлиенте", "AtClient"⟩
  | server => ⟨"Сервер", "Server"⟩
  | atServer => ⟨"НаСервере", "AtServer"⟩
  | thinClient => ⟨"ТонкийКлиент", "ThinClient"⟩
  | webClient => ⟨"ВебКлиент", "WebClient"⟩
  | mobileClient => ⟨"МобильныйКлиент", "MobileClient"⟩
  | thickClientOrdinaryApplication =>
    ⟨"ТолстыйКлиентОбычноеПриложение", "ThickClientOrdinaryApplication"⟩
  | thickClientManagedApplication =>
    ⟨"ТолстыйКлиентУправляемоеПриложение", "ThickClientManagedApplication"⟩
  | externalConnection => ⟨"ВнешнееСоединение", "ExternalConnection"⟩
  | mobileAppClient => ⟨"МобильноеПриложениеКлиент", "MobileAppClient"⟩
  | mobileAppServer => ⟨"МобильноеПриложениеСервер", "MobileAppServer"⟩
  | mobileStandaloneServer => ⟨"МобильныйАвтономныйСервер", "MobileStandaloneServer"⟩

def code : Symbol → String
  | client => "client"
  | atClient => "at_client"
  | server => "server"
  | atServer => "at_server"
  | thinClient => "thin_client"
  | webClient => "web_client"
  | mobileClient => "mobile_client"
  | thickClientOrdinaryApplication => "thick_client_ordinary_application"
  | thickClientManagedApplication => "thick_client_managed_application"
  | externalConnection => "external_connection"
  | mobileAppClient => "mobile_app_client"
  | mobileAppServer => "mobile_app_server"
  | mobileStandaloneServer => "mobile_standalone_server"

/-- The symbol with the given name, in either spelling, surrounding white space apart. -/
def ofName? (name : Text) : Option Symbol :=
  all.find? fun s => s.spelling.covers (Text.trim name)

def environments : Symbol → EnvironmentSet
  | client | atClient => .client
  | server | atServer => .server
  | thinClient => .only .thinClient
  | webClient => .only .webClient
  | mobileClient => .only .mobileClient
  | thickClientOrdinaryApplication => .only .thickClientOrdinaryApplication
  | thickClientManagedApplication => .only .thickClientManagedApplication
  | externalConnection => .only .externalConnection
  | mobileAppClient => .only .mobileAppClient
  | mobileAppServer => .only .mobileAppServer
  | mobileStandaloneServer => .only .mobileStandaloneServer

end Symbol

inductive Condition where
  | symbol (s : Symbol)
  | not (operand : Condition)
  | and (parts : List Condition)
  | or (parts : List Condition)
deriving Repr

namespace Condition

mutual

def environments : Condition → EnvironmentSet
  | .symbol s => s.environments
  | .not operand => operand.environments.complement
  | .and parts => interAll .all parts
  | .or parts => unionAll .empty parts

def interAll (s : EnvironmentSet) : List Condition → EnvironmentSet
  | [] => s
  | c :: cs => interAll (s.inter c.environments) cs

/-- The environments of the first set, and those in which one of the conditions holds. -/
def unionAll (s : EnvironmentSet) : List Condition → EnvironmentSet
  | [] => s
  | c :: cs => unionAll (s.union c.environments) cs

end

def anyOf (symbols : List Symbol) : Condition := .or (symbols.map .symbol)

end Condition

end BslLint
