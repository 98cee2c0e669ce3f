import BslLint.Cancellation
import BslLint.Extension
import BslLint.Lint.Diagnostic
import BslLint.Project

/-!
The state of a lint run over one module: the findings so far and whether the run was seen to be
cancelled. Once a cancellation was seen it stays.
-/

namespace BslLint

structure LintInput where
  module : Module
  settings : LintSettings := {}
  project : Project := {}
  base : Option BaseIndex := none

/-- The state of a run. -/
structure LintContext where
  cancellation : Cancellation := .never
  isCancelled : Bool := false
  diagnostics : List Diagnostic := []

namespace LintContext

/-- Polls the cancellation and keeps the answer. A run that was seen to be cancelled polls no
more. -/
def checkpoint (ctx : LintContext) : Except AnalysisError Unit × LintContext :=
  if ctx.isCancelled then (.error .cancelled, ctx)
  else match ctx.cancellation.poll with
    | (true, c) => (.error .cancelled, { ctx with cancellation := c, isCancelled := true })
    | (false, c) => (.ok (), { ctx with cancellation := c })

def withCancellation (ctx : LintContext) (c : Cancellation) : LintContext :=
  { ctx with cancellation := c }

/-- Passes over a node. Only a cancellation leaves a trace. -/
def skip (ctx : LintContext) (e : AnalysisError) : LintContext :=
  if e = .cancelled then { ctx with isCancelled := true } else ctx

/-- Adds a finding at the level of its lint, unless the lint is switched off. -/
def add (ctx : LintContext) (settings : LintSettings) (d : Diagnostic) : LintContext :=
  let level := settings.levelFor d.lint.name
  if level = .allow then ctx
  else { ctx with diagnostics := ctx.diagnostics ++ [{ d with level := level }] }

def report (ctx : LintContext) (input : LintInput) (lint : LintDescriptor) (offset length : Nat)
    (message : String) (suggestion : Option Suggestion := none) : Checked LintContext := do
  let extent ← Extent.of input.module.source offset length
  return ctx.add input.settings
    { lint, level := .warn, file := none, extent, message,
      help := suggestion.map Suggestion.message, suggestion }

def finish (ctx : LintContext) : List Diagnostic :=
  if ctx.isCancelled || ctx.cancellation.isRequested then [] else ctx.diagnostics

end LintContext

structure Rule where
  lint : LintDescriptor
  check : LintInput → LintContext → Checked LintContext

end BslLint
