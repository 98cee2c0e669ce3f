import BslLint.Lint.Context
import BslLint.Lint.LinkSpacing

/-!
The rule that a link in a documentation comment stands apart from its keyword.
-/

namespace BslLint.Rules

def linkSpacingLint : LintDescriptor where
  name := "link_part_comment_space"
  category := .codeStyle
  description := "A link in a documentation comment needs a space after `See`"
  fix := some ⟨.safe, "Separate the link keyword from the link with a single space"⟩

def reportIssue (input : LintInput) (base : Nat) (ctx : LintContext) (i : LinkSpacing.Issue) :
    Checked LintContext := do
  let anchor ← addOffsets base i.edit.anchor
  let offset ← addOffsets base i.offset
  ctx.report input linkSpacingLint offset i.length "Link keyword must be followed by a space"
    (some ⟨"separate the link with a space", { i.edit with anchor }, .machineApplicable⟩)

def reportIssues (input : LintInput) (comment : SourceText) (ctx : LintContext) :
    Checked LintContext := do
  Outcome.foldList (reportIssue input comment.start) ctx (← LinkSpacing.scan comment.raw)

/-- Checks the documentation comments of methods one after the other. A cancellation ends the
check; a comment without text is passed over. -/
def checkComments (input : LintInput) (ctx : LintContext) : List Method → Checked LintContext
  | [] => return ctx
  | m :: rest =>
    if m.docComment.isNone then checkComments input ctx rest
    else match ctx.checkpoint with
      | (.error e, ctx) => return ctx.skip e
      | (.ok _, ctx) => do
        match ← (locate input.module.source m.docComment).attempt with
        | .error e => checkComments input (ctx.skip e) rest
        | .ok comment =>
          let ctx ← reportIssues input comment ctx
          checkComments input ctx rest

def linkSpacing : Rule where
  lint := linkSpacingLint
  check input ctx := checkComments input ctx input.module.methods

end BslLint.Rules
