import BslLint.CommandLine.Path
import BslLint.Project

/-!
The arguments of the command line. Options stand anywhere among the paths, until two hyphens on
their own end them; an option has its value behind an equals sign or in the next argument.
-/

namespace BslLint

inductive OutputFormat where
  | pretty
  | json
  | github
deriving DecidableEq, Repr

namespace OutputFormat

def ofName? : String → Option OutputFormat
  | "pretty" => some .pretty
  | "json" => some .json
  | "github" => some .github
  | _ => none

end OutputFormat

structure LintArguments where
  paths : List Path := []
  base : List Path := []
  config : Option Path := none
  variant : Option ScriptVariant := none
  modality : Option ModalityPolicy := none
  isExtension : Bool := false
  format : Option OutputFormat := none
  only : List String := []
  skip : List String := []
  denyWarnings : Bool := false
  fix : Bool := false
  unsafeFixes : Bool := false
  diff : Bool := false

inductive Command where
  | lint (arguments : LintArguments)
  | listRules
  | explain (name : String)
  | version
  | help

namespace LintArguments

def path? (s : String) : Option Path := if s.isEmpty then none else some (Path.ofString s)

def addPath (a : LintArguments) (s : String) : Option LintArguments := do
  return { a with paths := a.paths ++ [← path? s] }

def addPaths (a : LintArguments) : List String → Option LintArguments
  | [] => some a
  | s :: rest => do (← a.addPath s).addPaths rest

/-- Sets an option that is given at most once. -/
def once {α : Type} (current : Option α) (value : Option α) : Option (Option α) :=
  match current, value with
  | none, some v => some (some v)
  | _, _ => none

/-- Sets a flag that is given at most once. -/
def raise (flag : Bool) : Option Bool := if flag then none else some true

def takesValue (name : String) : Bool :=
  ["base", "config", "variant", "modality", "format", "only", "skip"].contains name

/-- Sets an option with a value. Lints are separated by commas. -/
def setOption (a : LintArguments) (name value : String) : Option LintArguments := do
  match name with
  | "base" => return { a with base := a.base ++ [← path? value] }
  | "config" => return { a with config := ← once a.config (path? value) }
  | "variant" => return { a with variant := ← once a.variant (ScriptVariant.ofName? value) }
  | "modality" => return { a with modality := ← once a.modality (ModalityPolicy.ofName? value) }
  | "format" => return { a with format := ← once a.format (OutputFormat.ofName? value) }
  | "only" => return { a with only := a.only ++ value.splitOn "," }
  | "skip" => return { a with skip := a.skip ++ value.splitOn "," }
  | _ => none

def setFlag (a : LintArguments) (name : String) : Option LintArguments := do
  match name with
  | "extension" => return { a with isExtension := ← raise a.isExtension }
  | "deny-warnings" => return { a with denyWarnings := ← raise a.denyWarnings }
  | "fix" => return { a with fix := ← raise a.fix }
  | "unsafe-fixes" => return { a with unsafeFixes := ← raise a.unsafeFixes }
  | "diff" => return { a with diff := ← raise a.diff }
  | _ => none

/-- The arguments, provided the flags about fixes come with the one that asks for fixes. -/
def checked (a : LintArguments) : Option LintArguments :=
  if (a.unsafeFixes || a.diff) && !a.fix then none else some a

end LintArguments

inductive Argument where
  | separator
  | long (name : String) (value : Option String)
  | short (names : Text)
  | plain (text : String)
deriving DecidableEq, Repr

namespace Argument

/-- The form of an argument; a hyphen on its own is plain. -/
def of (s : String) : Argument :=
  match s.toList with
  | ['-', '-'] => .separator
  | '-' :: '-' :: rest =>
    let name := rest.takeWhile (· != '=')
    match rest.drop name.length with
    | _ :: value => .long (String.ofList name) (some (String.ofList value))
    | [] => .long (String.ofList name) none
  | '-' :: c :: rest => .short (c :: rest)
  | _ => .plain s

def value? : Argument → Option String
  | .plain s => some s
  | _ => none

/-- What the first of several short options asks for. -/
def shortCommand? (hasVersion : Bool) : Text → Option Command
  | 'h' :: _ => some .help
  | 'V' :: _ => if hasVersion then some .version else none
  | _ => none

def longCommand? (hasVersion : Bool) : String → Option Command
  | "help" => some .help
  | "version" => if hasVersion then some .version else none
  | _ => none

end Argument

namespace Command

def parseLint (hasVersion : Bool) (a : LintArguments) : List String → Option Command
  | [] => a.checked.map .lint
  | s :: rest =>
    match Argument.of s with
    | .separator => (a.addPaths rest).bind fun a => a.checked.map .lint
    | .short names => Argument.shortCommand? hasVersion names
    | .plain s => (a.addPath s).bind fun a => parseLint hasVersion a rest
    | .long name (some value) =>
      if LintArguments.takesValue name then
        (a.setOption name value).bind fun a => parseLint hasVersion a rest
      else none
    | .long name none =>
      if LintArguments.takesValue name then
        match rest with
        | [] => none
        | next :: rest =>
          match (Argument.of next).value? with
          | none => none
          | some value => (a.setOption name value).bind fun a => parseLint hasVersion a rest
      else match Argument.longCommand? hasVersion name with
        | some command => some command
        | none => (a.setFlag name).bind fun a => parseLint hasVersion a rest

/-- Reads the only argument of an explanation, given the one read so far. -/
def parseExplain (name : Option String) : List String → Option Command
  | [] => name.map .explain
  | s :: rest =>
    match Argument.of s, name with
    | .separator, none =>
      match rest with
      | [name] => some (.explain name)
      | _ => none
    | .separator, some name => if rest.isEmpty then some (.explain name) else none
    | .plain s, none => parseExplain (some s) rest
    | .plain _, some _ => none
    | .short names, _ => Argument.shortCommand? false names
    | .long name none, _ => Argument.longCommand? false name
    | .long _ (some _), _ => none

def parseListing : List String → Option Command
  | [] => some .listRules
  | s :: rest =>
    match Argument.of s with
    | .separator => if rest.isEmpty then some .listRules else none
    | .short names => Argument.shortCommand? false names
    | .long name none => Argument.longCommand? false name
    | _ => none

def parseHelp : List String → Option Command
  | [] => some .help
  | [topic] => if ["lint", "list-rules", "explain", "help"].contains topic then some .help else none
  | _ => none

/-- What the arguments ask for; nothing when they are not understood. The name of a command counts
as one only in the first place. -/
def parse? : List String → Option Command
  | "lint" :: rest => parseLint false {} rest
  | "list-rules" :: rest => parseListing rest
  | "explain" :: rest => parseExplain none rest
  | "help" :: rest => parseHelp rest
  | arguments => parseLint true {} arguments

end Command

end BslLint
