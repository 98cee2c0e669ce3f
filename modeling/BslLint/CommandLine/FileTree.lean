import BslLint.CommandLine.Path

/-!
The files that a command sees: a tree of directories, given by the place of each entry, and the
directory that relative paths start in.
-/

namespace BslLint

inductive FileError where
  | notFound
  | notDirectory
  | isDirectory
  | notText
deriving DecidableEq, Repr

namespace FileError

def message : FileError → String
  | notFound => "No such file or directory (os error 2)"
  | notDirectory => "Not a directory (os error 20)"
  | isDirectory => "Is a directory (os error 21)"
  | notText => "stream did not contain valid UTF-8"

end FileError

/-- What stands at a place of the tree. A file that is no text is kept without its content. -/
inductive Entry where
  | directory
  | text (content : Text)
  | binary
deriving DecidableEq, Repr

namespace Entry

def isDirectory (e : Entry) : Bool := e == .directory

end Entry

/-- The place of an entry: the names on the way to it from the root. -/
abbrev Place := List Text

/-- The entries of the tree, and the working directory. -/
structure FileTree where
  home : Place := []
  entries : List (Place × Entry) := []

namespace FileTree

def entry? (tree : FileTree) (place : Place) : Option Entry :=
  if place.isEmpty then some .directory else tree.entries.lookup place

/-- The place that the parts of a path lead to. Every part needs a directory to start from; only
the last one may be missing. -/
def follow (tree : FileTree) (place : Place) : List Text → Except FileError Place
  | [] => .ok place
  | part :: parts =>
    match tree.entry? place with
    | none => .error .notFound
    | some .directory =>
      if part == [] || part == ['.'] then follow tree place parts
      else if part == ['.', '.'] then follow tree place.dropLast parts
      else follow tree (place ++ [part]) parts
    | some _ => .error .notDirectory

def place (tree : FileTree) (p : Path) : Except FileError Place :=
  if p.text.isEmpty then .error .notFound
  else tree.follow (if p.isAbsolute then [] else tree.home) p.segments

def find (tree : FileTree) (p : Path) : Except FileError (Place × Entry) := do
  let place ← tree.place p
  match tree.entry? place with
  | some e => return (place, e)
  | none => .error .notFound

def isFile (tree : FileTree) (p : Path) : Bool :=
  match tree.find p with
  | .ok (_, e) => !e.isDirectory
  | .error _ => false

def read (tree : FileTree) (p : Path) : Except FileError Text := do
  match ← tree.find p with
  | (_, .directory) => .error .isDirectory
  | (_, .text content) => return content
  | (_, .binary) => .error .notText

def put (tree : FileTree) (place : Place) (e : Entry) : FileTree :=
  { tree with entries := (place, e) :: tree.entries.filter (·.1 != place) }

def write (tree : FileTree) (p : Path) (content : Text) : Except FileError FileTree := do
  let place ← tree.place p
  match tree.entry? place with
  | some .directory => .error .isDirectory
  | _ => return tree.put place (.text content)

/-- The names of directories that are never searched. -/
def ignoredNames : List Text := [".git".toList, "target".toList, "node_modules".toList]

/-- The paths of the files below a directory, as seen from its own path. -/
def filesBelow (tree : FileTree) (root : Path) (place : Place) : List Path :=
  tree.entries.filterMap fun (key, e) =>
    let way := key.drop place.length
    if !e.isDirectory && place.isPrefixOf key && !way.dropLast.any ignoredNames.contains then
      some (way.foldl Path.join root)
    else none

/-- The snapshots below a directory; none below one that is never searched. -/
def snapshotsBelow (tree : FileTree) (root : Path) : Except FileError (List Path) := do
  match ← tree.find root with
  | (place, .directory) =>
    if root.fileName?.any ignoredNames.contains then return []
    else return (tree.filesBelow root place).filter fun p => p.extension? == some "json".toList
  | (_, _) => return []

end FileTree

end BslLint
