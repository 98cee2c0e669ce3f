import BslLint.Environment.Condition
import BslLint.Environment.Directive
import BslLint.Syntax.Statement

/-!
Modules: the text of a unit of code, where it runs, and the methods it declares, some of them
inside preprocessor regions.
-/

namespace BslLint

/-- How an extension method is attached to the method it extends. -/
inductive AnnotationKind where
  | before
  | after
  | around
  | changeAndValidate
deriving DecidableEq, Repr

namespace AnnotationKind

def all : List AnnotationKind := [before, after, around, changeAndValidate]

def spelling : AnnotationKind → Spelling
  | before => ⟨"Перед", "Before"⟩
  | after => ⟨"После", "After"⟩
  | around => ⟨"Вместо", "Around"⟩
  | changeAndValidate => ⟨"ИзменениеИКонтроль", "ChangeAndValidate"⟩

def code : AnnotationKind → String
  | before => "before"
  | after => "after"
  | around => "around"
  | changeAndValidate => "change_and_validate"

def ofName? (name : Text) : Option AnnotationKind :=
  all.find? fun k => k.spelling.covers (pragmaName name)

end AnnotationKind

/-- The link from an extension method to the method it extends. -/
structure Annotation where
  kind : AnnotationKind
  target : Text
  span : Option Span
deriving DecidableEq, Repr

inductive MethodKind where
  | procedure
  | function
deriving DecidableEq, Repr

namespace MethodKind

def all : List MethodKind := [procedure, function]

def code : MethodKind → String
  | procedure => "procedure"
  | function => "function"

end MethodKind

/-- A declared method. Its span covers the whole declaration with the marks above it; the
documentation comment stands above those. -/
structure Method where
  name : Text
  kind : MethodKind
  isExport : Bool
  directives : List Directive
  annotations : List Annotation
  statements : List Statement
  span : Option Span
  nameSpan : Option Span
  docComment : Option Span

namespace Method

/-- The annotation that names the extended method: the first one. -/
def extensionTarget (m : Method) : Option Annotation := m.annotations.head?

end Method

/-- The head of a preprocessor region. The condition span covers the text between the opening
words. -/
structure Region where
  condition : Condition
  conditionSpan : Option Span
  span : Option Span

/-- What a module declares: a method, or a preprocessor region around further items. -/
inductive Item where
  | method (m : Method)
  | region (head : Region) (items : List Item)

namespace Item

mutual

def methods : Item → List Method
  | .method m => [m]
  | .region _ items => methodsList items

def methodsList : List Item → List Method
  | [] => []
  | item :: items => item.methods ++ methodsList items

end

end Item

/-- A module: its name and text, the environments it is compiled for, what it declares, and the
body that runs when it is loaded. -/
structure Module where
  name : Text
  source : Text
  environments : EnvironmentSet := .all
  items : List Item := []
  statements : List Statement := []

namespace Module

def methods (m : Module) : List Method := Item.methodsList m.items

def findMethod? (m : Module) (name : Text) : Option Method :=
  m.methods.find? fun method => Text.sameName method.name name

end Module

end BslLint
