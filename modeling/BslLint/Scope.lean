import BslLint.Analysis
import BslLint.Syntax.Module

/-!
Scopes: where a node sits in its module, and the environments that are left there. Every region on
the way narrows them by its condition, and the method by its directives.
-/

namespace BslLint

/-- The module of a node, the innermost region around it, the method it belongs to, and the
environments it is compiled for. -/
structure Scope where
  module : Module
  region : Option Region
  method : Option Method
  environments : EnvironmentSet

namespace Scope

def ofModule (m : Module) : Scope := ⟨m, none, none, m.environments⟩

def enterRegion (s : Scope) (r : Region) : Scope :=
  { s with region := some r, environments := s.environments.inter r.condition.environments }

def enterMethod (s : Scope) (m : Method) : Scope :=
  { s with
    method := some m
    environments := s.environments.inter (Directive.environmentsOf m.directives) }

/-- The statements of the method, or of the module body. -/
def statements (s : Scope) : List Statement :=
  match s.method with
  | some m => m.statements
  | none => s.module.statements

end Scope

/-- A declared method together with its place: the way down the item lists of its module. The
place, not the content, tells two methods apart. -/
structure Declaration where
  path : List Nat
  method : Method

namespace Item

mutual

def declarations (place : List Nat) : Item → List Declaration
  | .method m => [⟨place.reverse, m⟩]
  | .region _ items => declarationsFrom place 0 items

def declarationsFrom (place : List Nat) (index : Nat) : List Item → List Declaration
  | [] => []
  | item :: items =>
    item.declarations (index :: place) ++ declarationsFrom place (index + 1) items

end

mutual

/-- The scope of the method at the target place, if it is in an item that stands at the given place,
read backwards. -/
def search? (target : List Nat) (scope : Scope) (place : List Nat) : Item → Option Scope
  | .method m => if place.reverse = target then some (scope.enterMethod m) else none
  | .region r items => searchFrom? target (scope.enterRegion r) place 0 items

/-- The scope of the method at the target place, searched for in the items from the given index on,
one after the other. -/
def searchFrom? (target : List Nat) (scope : Scope) (place : List Nat) (index : Nat) :
    List Item → Option Scope
  | [] => none
  | item :: items =>
    match search? target scope (index :: place) item with
    | some s => some s
    | none => searchFrom? target scope place (index + 1) items

end

end Item

namespace Module

def declarations (m : Module) : List Declaration := Item.declarationsFrom [] 0 m.items

def findDeclaration? (m : Module) (name : Text) : Option Declaration :=
  m.declarations.find? fun d => Text.sameName d.method.name name

end Module

namespace Scope

/-- The scope of a declared method; an error when the module has no method at its place. -/
def ofDeclaration (m : Module) (d : Declaration) : Analysis Scope :=
  match Item.searchFrom? d.path (ofModule m) [] 0 m.items with
  | some s => return s
  | none => .error (.undeclared d.method.name m.name)

end Scope

end BslLint
