import BslLint.Edit.Basic
import BslLint.Scope

/-!
Extensions: the base configuration that an extension builds on, the method that an extension method
extends, and the environments in which the two differ.
-/

namespace BslLint

structure BaseIndex where
  modules : List Module

namespace BaseIndex

/-- The module with the given name, up to case; the last one of several. -/
def module? (base : BaseIndex) (name : Text) : Option Module :=
  base.modules.reverse.find? fun m => Text.sameName m.name name

/-- A method of the base configuration with the module that declares it. -/
structure Source where
  module : Module
  declaration : Declaration

/-- The method that a method of the given module extends: the target of its first annotation, in
the base module of the same name. -/
def source? (base : BaseIndex) (m : Module) (method : Method) : Option Source := do
  let annotation ← method.extensionTarget
  let owner ← base.module? m.name
  let declaration ← owner.findDeclaration? annotation.target
  return ⟨owner, declaration⟩

end BaseIndex

/-- The environments that a declared method of the module is compiled for. -/
def environmentsOf (m : Module) (d : Declaration) : Analysis EnvironmentSet := do
  return (← Scope.ofDeclaration m d).environments

/-- The innermost region around a declared method of the module. -/
def enclosingRegion (m : Module) (d : Declaration) : Analysis (Option Region) := do
  return (← Scope.ofDeclaration m d).region

/-- The environments that an extension method claims and its source lacks; nothing when it claims
no more than its source. -/
def incompatibleEnvironments (derived source : EnvironmentSet) : Option EnvironmentSet :=
  if derived.isSubset source then none else some (derived.diff source)

/-- The words around a preprocessor region: its opening, the end of its condition, its closing. -/
structure RegionWords where
  opening : String
  conditionEnd : String
  closing : String

/-- The words of a region in the given variant. -/
def RegionWords.inVariant (v : ScriptVariant) : RegionWords :=
  v.pick ⟨"#Если", "Тогда", "#КонецЕсли"⟩ ⟨"#If", "Then", "#EndIf"⟩

/-- The text of a region around a text. -/
def RegionWords.wrap (words : RegionWords) (condition body : Text) : Text :=
  words.opening.toList ++ [' '] ++ condition ++ [' '] ++ words.conditionEnd.toList ++ ['\n'] ++
    body ++ ['\n'] ++ words.closing.toList

/-- The edit that puts an extension method into a region with the condition of its source; nothing
when the source stands in no region. -/
def wrapInSourceRegion (derived : Module) (method : Method) (source : BaseIndex.Source)
    (variant : ScriptVariant) : Analysis (Option Edit) := do
  let some region ← enclosingRegion source.module source.declaration | return none
  let condition ← locate source.module.source region.conditionSpan
  let body ← locate derived.source method.span
  let new := (RegionWords.inVariant variant).wrap condition.raw body.raw
  return some ⟨body.start, body.length, new⟩

end BslLint
