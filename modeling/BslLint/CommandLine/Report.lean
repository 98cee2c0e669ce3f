import BslLint.CommandLine.Arguments
import BslLint.Json.Writer
import BslLint.Lint.Engine

/-!
Findings as they are printed: for readers, as JSON, or as notes to a build service.
-/

namespace BslLint

structure FileReport where
  path : Path
  diagnostics : List Diagnostic

namespace Report

def line (s : String) : String := s ++ "\n"

def prettyLines (path : Path) (d : Diagnostic) : String :=
  line (d.file.getD path.toString ++ ":" ++ toString d.extent.first.row ++ ":" ++
      toString d.extent.first.column ++ ": " ++ d.level.label ++ ": " ++ d.lint.name ++ ": " ++
      d.message) ++
    match d.help with
    | some help => line ("  help: " ++ help)
    | none => ""

/-- A text inside a note to a build service. -/
def escape (s : String) : String :=
  String.ofList (s.toList.flatMap fun c =>
    match c with
    | '%' => ['%', '2', '5']
    | '\r' => ['%', '0', 'D']
    | '\n' => ['%', '0', 'A']
    | c => [c])

/-- Whether a finding is noted as an error: warnings are, when they are denied. -/
def isErrorNote (denyWarnings : Bool) (d : Diagnostic) : Bool :=
  d.level == .error || (denyWarnings && d.level == .warn)

def note (denyWarnings : Bool) (path : Path) (d : Diagnostic) : String :=
  line ("::" ++ (if isErrorNote denyWarnings d then "error" else "warning") ++ " file=" ++
    escape (d.file.getD path.toString) ++ ",line=" ++ toString d.extent.first.row ++ ",col=" ++
    toString d.extent.first.column ++ ",title=" ++ d.lint.name ++ "::" ++ escape d.message)

def notes (denyWarnings : Bool) (r : FileReport) : String :=
  String.join (r.diagnostics.map (note denyWarnings r.path))

def prettyFile (r : FileReport) : String :=
  String.join (r.diagnostics.map (prettyLines r.path)) ++
    line (toString r.diagnostics.length ++ " diagnostics for " ++ r.path.toString)

def fixRecord (e : Edit) : Json :=
  .object [("offset", .natural e.anchor), ("length", .natural e.length),
    ("replacement", .string (String.ofList e.replacement))]

structure Finding where
  file : String
  diagnostic : Diagnostic
deriving DecidableEq, Repr

namespace Finding

def ofReports (rs : List FileReport) : List Finding :=
  rs.flatMap fun r => r.diagnostics.map fun d => ⟨d.file.getD r.path.toString, d⟩

def compareStrings (s t : String) : Ordering := Component.compareText s.toList t.toList

/-- The order of findings: by file, row, column and lint. -/
def compare (a b : Finding) : Ordering :=
  ((compareStrings a.file b.file).then
    (Ord.compare a.diagnostic.extent.first.row b.diagnostic.extent.first.row)).then
      ((Ord.compare a.diagnostic.extent.first.column b.diagnostic.extent.first.column).then
        (compareStrings a.diagnostic.lint.name b.diagnostic.lint.name))

/-- Whether a finding comes before another one, or ranks with it. -/
def le (a b : Finding) : Bool := (compare a b).isLE

/-- The findings in their order; those that rank the same stay as they are. -/
def sorted (fs : List Finding) : List Finding := fs.mergeSort le

/-- A finding as a record; what it lacks is left out. -/
def toJson (f : Finding) : Json :=
  let d := f.diagnostic
  .object ([("file", .string f.file), ("row", .natural d.extent.first.row),
    ("column", .natural d.extent.first.column), ("end_row", .natural d.extent.last.row),
    ("end_column", .natural d.extent.last.column), ("level", .string d.level.label),
    ("lint", .string d.lint.name), ("message", .string d.message)] ++
    (d.help.map fun help => ("help", Json.string help)).toList ++
    (d.suggestion.map fun s => ("fix", fixRecord s.edit)).toList)

end Finding

/-- All findings as one JSON document. -/
def jsonDocument (rs : List FileReport) : String :=
  line (Json.pretty (.array ((Finding.sorted (Finding.ofReports rs)).map Finding.toJson)))

/-- Whether a finding counts as an error in a format. -/
def countsAsError (format : OutputFormat) (denyWarnings : Bool) (d : Diagnostic) : Bool :=
  match format with
  | .pretty | .json => d.level == .error
  | .github => isErrorNote denyWarnings d

/-- The exit code of a run: one when something counts as an error, or warnings are denied and there
is a finding. -/
def exitCode (format : OutputFormat) (denyWarnings : Bool) (rs : List FileReport) : Nat :=
  let found := rs.flatMap FileReport.diagnostics
  if found.any (countsAsError format denyWarnings) || (denyWarnings && !found.isEmpty) then 1
  else 0

def render (format : OutputFormat) (denyWarnings : Bool) (rs : List FileReport) : String :=
  match format with
  | .pretty => String.join (rs.map prettyFile)
  | .github => String.join (rs.map (notes denyWarnings))
  | .json => jsonDocument rs

/-- What is printed when a file cannot be read, about the files before it: JSON is printed as a
whole or not at all. -/
def renderPartial (format : OutputFormat) (denyWarnings : Bool) (rs : List FileReport) : String :=
  match format with
  | .pretty | .github => render format denyWarnings rs
  | .json => ""

def listing (l : LintDescriptor) : String :=
  line (l.name ++ "\t" ++ l.category.label ++ "\t" ++ l.description ++
    match l.fix with
    | some fix => " [fix: " ++ fix.safety.label ++ "]"
    | none => "")

def listings : String :=
  String.join (((defaultRules.map Rule.lint).mergeSort fun a b =>
    (Finding.compareStrings a.name b.name).isLE).map listing)

def explanation (name : String) (l : LintDescriptor) : String :=
  line ("name: " ++ l.name) ++
    (if resolveLintAlias name == name then "" else line ("alias: " ++ name)) ++
    line ("category: " ++ l.category.label) ++
    line ("description: " ++ l.description) ++
    match l.fix with
    | some fix =>
      line ("fix: available (" ++ fix.safety.label ++ ")") ++
        if fix.description.isEmpty then "" else line ("fix description: " ++ fix.description)
    | none => line "fix: not available"

end Report

end BslLint
