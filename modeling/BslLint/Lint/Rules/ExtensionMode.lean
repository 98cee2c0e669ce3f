import BslLint.Lint.Context

/-!
The rule that an extension method is available nowhere its source is not.
-/

namespace BslLint.Rules

def extensionModeLint : LintDescriptor where
  name := "extension_method_visible_mode"
  category := .compatibility
  description := "Extension methods must not be available where the extended method is not"
  fix := some
    ⟨.unsafeFix, "Wrap the method in the preprocessor condition of the source method"⟩

structure ModeConflict where
  name : SourceText
  extra : EnvironmentSet
  fix : Option Edit

/-- The conflict of a declared method with the method it extends, if it claims more environments.
A fix that cannot be worked out is left out. -/
def modeConflict? (input : LintInput) (d : Declaration) (source : BaseIndex.Source) :
    Analysis (Option ModeConflict) := do
  let derived ← environmentsOf input.module d
  let allowed ← environmentsOf source.module source.declaration
  match incompatibleEnvironments derived allowed with
  | none => return none
  | some extra =>
    let name ← locate input.module.source d.method.nameSpan
    let wrap ← (wrapInSourceRegion input.module d.method source input.project.variant).attempt
    let fix := match wrap with
      | .ok edit => edit
      | .error _ => none
    return some ⟨name, extra, fix⟩

def reportConflict (input : LintInput) (ctx : LintContext) (d : Declaration)
    (source : BaseIndex.Source) (c : ModeConflict) : Checked LintContext :=
  ctx.report input extensionModeLint c.name.start c.name.length
    ("Method `" ++ String.ofList d.method.name ++ "` is available in environments where `" ++
      String.ofList source.declaration.method.name ++ "` is not: " ++ c.extra.label)
    (c.fix.map fun edit =>
      ⟨"wrap the method in the condition of its source method", edit, .maybeIncorrect⟩)

def checkMode (input : LintInput) (base : BaseIndex) (ctx : LintContext) (d : Declaration) :
    Checked LintContext :=
  match ctx.checkpoint with
  | (.error e, ctx) => return ctx.skip e
  | (.ok _, ctx) =>
    match base.source? input.module d.method with
    | none => return ctx
    | some source => do
      match ← (modeConflict? input d source).attempt with
      | .error e => return ctx.skip e
      | .ok none => return ctx
      | .ok (some c) => reportConflict input ctx d source c

def checkModes (input : LintInput) (base : BaseIndex) (ctx : LintContext) :
    List Declaration → Checked LintContext
  | [] => return ctx
  | d :: rest => do
    let ctx ← checkMode input base ctx d
    if ctx.isCancelled then return ctx else checkModes input base ctx rest

/-- Reports the methods of an extension that claim more environments than their sources. -/
def extensionMode : Rule where
  lint := extensionModeLint
  check input ctx :=
    match input.project.isExtension, input.base with
    | true, some base => checkModes input base ctx input.module.declarations
    | _, _ => return ctx

end BslLint.Rules
