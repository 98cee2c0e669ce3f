import BslLint.CommandLine.FileTree
import BslLint.CommandLine.Report
import BslLint.Config
import BslLint.Diff
import BslLint.Lint.Fix
import BslLint.Snapshot.Module

/-!
Commands and what they do: the output they print, the files they leave, and how they end. A run
that fails keeps what it printed and wrote before.
-/

namespace BslLint

inductive CommandError where
  | noSnapshots
  | unknownLint (e : UnknownLint)
  | unreadableConfig (path : Path) (e : FileError)
  | invalidConfig (path : Path)
  | unwalkable (path : Path) (e : FileError)
  | unreadable (path : Path) (e : FileError)
  | invalidSnapshot (path : Path) (e : SnapshotError)
  | unfixable (path : Path) (e : EditError)
  | unwritable (path : Path) (e : FileError)
deriving DecidableEq, Repr

namespace CommandError

/-- The wording of the error with its causes. -/
def message : CommandError → String
  | noSnapshots => "no module snapshots given"
  | unknownLint e => e.message
  | unreadableConfig path e => "failed to read config file: " ++ path.toString ++ ": " ++ e.message
  | invalidConfig path => "failed to parse config file: " ++ path.toString
  | unwalkable path e =>
    "failed to walk " ++ path.toString ++ ": IO error for operation on " ++ path.toString ++ ": " ++
      e.message ++ ": " ++ e.message
  | unreadable path e =>
    "failed to load module snapshot " ++ path.toString ++ ": I/O error: " ++ e.message ++ ": " ++
      e.message
  | invalidSnapshot path e =>
    "failed to load module snapshot " ++ path.toString ++ ": " ++ e.message
  | unfixable path e => "failed to apply fixes to " ++ path.toString ++ ": " ++ e.message
  | unwritable path e => "failed to write " ++ path.toString ++ ": " ++ e.message

end CommandError

abbrev Step (α : Type) := Outcome CommandError α

inductive Ending where
  | exit (code : Nat)
  | failure (e : CommandError)
  | abort (cause : Abort)
  | usage
deriving DecidableEq, Repr

namespace Ending

def code : Ending → Nat
  | exit code => code
  | failure _ | usage => 2
  | abort _ => 101

/-- How a run of steps ends that leads to an exit code. -/
def ofStep : Step Nat → Ending
  | .ok code => .exit code
  | .error e => .failure e
  | .abort cause => .abort cause

end Ending

structure RunResult where
  output : String := ""
  ending : Ending
  tree : FileTree

def fileStep {α : Type} (wrap : FileError → CommandError) : Except FileError α → Step α
  | .ok a => .ok a
  | .error e => .error (wrap e)

/-- The directory in which the search for a configuration starts. -/
def configStart (tree : FileTree) (paths : List Path) : Path :=
  match paths with
  | [] => Path.ofString "."
  | p :: _ => if tree.isFile p then p.parent?.getD (Path.ofString ".") else p

/-- The first configuration file in a directory or one above it; each step up makes the path
shorter. -/
def findConfig (tree : FileTree) : Nat → Path → Option Path
  | 0, _ => none
  | steps + 1, dir =>
    let candidate := dir.join Config.fileName.toList
    if tree.isFile candidate then some candidate
    else dir.parent?.bind (findConfig tree steps)

def readConfig (tree : FileTree) (p : Path) : Step Config := do
  let text ← fileStep (.unreadableConfig p) (tree.read p)
  match Config.parse? text with
  | some c => return c
  | none => .error (.invalidConfig p)

/-- The configuration of a run: the given file, or the first one that is found. -/
def loadConfig (tree : FileTree) (a : LintArguments) : Step Config :=
  match a.config with
  | some p => readConfig tree p
  | none =>
    let start := configStart tree a.paths
    match findConfig tree (start.text.length + 2) start with
    | some p => readConfig tree p
    | none => return {}

def dropRepeatedAfter (last : Path) : List Path → List Path
  | [] => []
  | p :: rest =>
    if last.same p then dropRepeatedAfter last rest else p :: dropRepeatedAfter p rest

/-- Paths without those that repeat the one before them. -/
def dropRepeated : List Path → List Path
  | [] => []
  | p :: rest => p :: dropRepeatedAfter p rest

/-- The snapshots that paths stand for, in the order of their components. A file stands for itself,
whatever its name. -/
def collect (tree : FileTree) (paths : List Path) : Step (List Path) := do
  let found ← Outcome.mapList (fun p =>
    if tree.isFile p then return [p]
    else fileStep (.unwalkable p) (tree.snapshotsBelow p)) paths
  return dropRepeated (found.flatten.mergeSort Path.le)

def readModule (tree : FileTree) (p : Path) : Step Module := do
  let text ← fileStep (.unreadable p) (tree.read p)
  match Module.ofSnapshot text with
  | .ok m => return m
  | .error e => .error (.invalidSnapshot p e)

structure Session where
  rules : List Rule
  settings : LintSettings
  project : Project
  base : BaseIndex

namespace Session

/-- The project of a run: the command line overrides the configuration. -/
def projectOf (a : LintArguments) (p : Project) : Project :=
  let p := match a.variant with
    | some v => p.withVariant v
    | none => p
  let p := match a.modality with
    | some m => p.withModality m
    | none => p
  if a.isExtension then p.asExtension else p

def start (tree : FileTree) (a : LintArguments) : Step Session := do
  let config ← loadConfig tree a
  match RuleFilter.rules ⟨a.only, a.skip, config.disabled⟩ with
  | .error e => .error (.unknownLint e)
  | .ok rules =>
    let base ← Outcome.mapList (readModule tree) (← collect tree a.base)
    return ⟨rules, config.settings, projectOf a config.project, ⟨base⟩⟩

def lint {ε : Type} (s : Session) (p : Path) (m : Module) : Outcome ε (List Diagnostic) := do
  let found ← (lintModule s.rules
    { module := m, settings := s.settings, project := s.project, base := some s.base }).lift
  return found.map fun d => { d with file := some (d.file.getD p.toString) }

end Session

/-- Checks the files one after the other: the reports of those before the first failure, and how it
ended. -/
def lintFiles (tree : FileTree) (s : Session) : List Path → List FileReport × Step Unit
  | [] => ([], return ())
  | p :: rest =>
    match (do s.lint p (← readModule tree p) : Step (List Diagnostic)) with
    | .ok found =>
      let (reports, ending) := lintFiles tree s rest
      (⟨p, found⟩ :: reports, ending)
    | .error e => ([], .error e)
    | .abort cause => ([], .abort cause)

def runLint (tree : FileTree) (a : LintArguments) : RunResult :=
  let format := a.format.getD .pretty
  match (do
    let session ← Session.start tree a
    return (session, ← collect tree a.paths) : Step (Session × List Path)) with
  | .error e => { ending := .failure e, tree }
  | .abort cause => { ending := .abort cause, tree }
  | .ok (session, paths) =>
    let (reports, ending) := lintFiles tree session paths
    match ending with
    | .ok _ =>
      { output := Report.render format a.denyWarnings reports
        ending := .exit (Report.exitCode format a.denyWarnings reports), tree }
    | .error e =>
      { output := Report.renderPartial format a.denyWarnings reports, ending := .failure e, tree }
    | .abort cause =>
      { output := Report.renderPartial format a.denyWarnings reports, ending := .abort cause, tree }

/-- The numbers in the summary of a fixing run. -/
structure FixTally where
  applied : Nat := 0
  modified : Nat := 0
  skippedUnsafe : Nat := 0
  skippedOther : Nat := 0
deriving DecidableEq, Repr

namespace FixTally

def add (t : FixTally) (dryRun : Bool) (r : FixResult) : FixTally where
  applied := t.applied + r.applied
  modified := t.modified + if dryRun || r.applied = 0 then 0 else 1
  skippedUnsafe := t.skippedUnsafe + r.skippedUnsafe
  skippedOther := t.skippedOther + r.skippedOther

/-- The summary of a run over a number of files. A dry run names the number of all files. -/
def summary (t : FixTally) (dryRun : Bool) (files : Nat) : String :=
  (if dryRun then
    "\n" ++ toString t.applied ++ " fix(es) would be applied to " ++ toString files ++ " file(s)\n"
  else
    "Applied " ++ toString t.applied ++ " fix(es) to " ++ toString t.modified ++ " file(s)\n") ++
  (if t.skippedUnsafe = 0 then ""
    else toString t.skippedUnsafe ++ " fix(es) skipped (use --unsafe-fixes to apply)\n") ++
  (if t.skippedOther = 0 then ""
    else toString t.skippedOther ++ " fix(es) skipped (overlapping or out of date)\n")

end FixTally

/-- The text of a module with its suggestions applied; nothing when no finding has a suggestion. -/
def fixModule (s : Session) (allowUnsafe : Bool) (p : Path) (m : Module) :
    Step (Option FixResult) := do
  let found ← s.lint p m
  if found.all fun d => d.suggestion.isNone then return none
  else match ← (applySuggestions m.source found allowUnsafe).attempt with
    | .ok r => return some r
    | .error e => .error (.unfixable p e)

structure FixRun where
  tree : FileTree
  output : String := ""
  tally : FixTally := {}

namespace FixRun

/-- Prints the changes of a file, or writes its fixed text beside its snapshot. -/
def deliver (run : FixRun) (dryRun : Bool) (p : Path) (m : Module) (r : FixResult) :
    Step FixRun := do
  if r.applied = 0 then return run
  else if dryRun then
    let diff ← Diff.format m.source r.source p.toString
    return { run with output := run.output ++ if diff.isEmpty then "" else Report.line diff }
  else
    let target := p.fixedSource
    let tree ← fileStep (.unwritable target) (run.tree.write target r.source)
    return { run with tree }

def fixFile (run : FixRun) (s : Session) (a : LintArguments) (p : Path) : Step FixRun := do
  let m ← readModule run.tree p
  match ← fixModule s a.unsafeFixes p m with
  | none => return run
  | some r =>
    let delivered ← run.deliver a.diff p m r
    return { delivered with tally := run.tally.add a.diff r }

/-- Fixes files one after the other, up to the first failure, and says how it ended. -/
def fixFiles (run : FixRun) (s : Session) (a : LintArguments) : List Path → FixRun × Step Unit
  | [] => (run, return ())
  | p :: rest =>
    match run.fixFile s a p with
    | .ok run => run.fixFiles s a rest
    | .error e => (run, .error e)
    | .abort cause => (run, .abort cause)

end FixRun

/-- Fixes the modules of a run, or shows what would change. -/
def runFix (tree : FileTree) (a : LintArguments) : RunResult :=
  match (do
    let session ← Session.start tree a
    return (session, ← collect tree a.paths) : Step (Session × List Path)) with
  | .error e => { ending := .failure e, tree }
  | .abort cause => { ending := .abort cause, tree }
  | .ok (session, paths) =>
    let (run, ending) := FixRun.fixFiles { tree } session a paths
    match ending with
    | .ok _ =>
      { output := run.output ++ run.tally.summary a.diff paths.length
        ending := .exit 0, tree := run.tree }
    | .error e => { output := run.output, ending := .failure e, tree := run.tree }
    | .abort cause => { output := run.output, ending := .abort cause, tree := run.tree }

namespace Command

def versionText : String := "bsl-clippy 0.1.0\n"

def helpText : String :=
  "Usage: bsl-clippy [OPTIONS] [PATH]...\n       bsl-clippy <COMMAND>\n\n" ++
  "Commands: lint, list-rules, explain, help\n"

def run (tree : FileTree) : Command → RunResult
  | .version => { output := versionText, ending := .exit 0, tree }
  | .help => { output := helpText, ending := .exit 0, tree }
  | .listRules => { output := Report.listings, ending := .exit 0, tree }
  | .explain name =>
    match findLint? name with
    | some l => { output := Report.explanation name l, ending := .exit 0, tree }
    | none => { ending := .failure (.unknownLint ⟨name⟩), tree }
  | .lint a =>
    if a.paths.isEmpty then { ending := .failure .noSnapshots, tree }
    else if a.fix then runFix tree a
    else runLint tree a

def runArguments (tree : FileTree) (arguments : List String) : RunResult :=
  match parse? arguments with
  | some command => command.run tree
  | none => { ending := .usage, tree }

end Command

end BslLint
