import BslLint.CommandLine.Run

/-!
The program: it takes in the files that the arguments lead to, runs the command over them, and
carries out what the command leaves behind.
-/

namespace BslLint.Main

/-- The place that a path names, seen from a directory. -/
def placeOf (home : Place) (p : Path) : Place :=
  p.segments.foldl (fun place part =>
    if part == [] || part == ['.'] then place
    else if part == ['.', '.'] then place.dropLast
    else place ++ [part]) (if p.isAbsolute then [] else home)

def absolutePath (place : Place) : String := "/" ++ "/".intercalate (place.map String.ofList)

/-- The tree with the directories above a place. -/
def withAncestors (tree : FileTree) (place : Place) : FileTree :=
  (List.range place.length).foldl (fun tree n => tree.put (place.take n) .directory) tree

def lineage : Nat → Path → List Path
  | 0, p => [p]
  | steps + 1, p => p :: (p.parent?.map (lineage steps)).getD []

/-- Takes in a file. -/
def takeFile (tree : FileTree) (place : Place) : IO FileTree := do
  let bytes ← IO.FS.readBinFile (absolutePath place)
  let entry := match String.fromUTF8? bytes with
    | some s => Entry.text s.toList
    | none => Entry.binary
  return (withAncestors tree place).put place entry

/-- Takes in a directory, with everything below it if asked. -/
partial def takeDirectory (tree : FileTree) (place : Place) (deep : Bool) : IO FileTree := do
  let mut tree := (withAncestors tree place).put place .directory
  if deep then
    for entry in ← (← IO.FS.realPath (absolutePath place)).readDir do
      let name := entry.fileName.toList
      if ← entry.path.isDir then
        if !FileTree.ignoredNames.contains name then
          tree ← takeDirectory tree (place ++ [name]) true
      else if (Path.mk name).extension? == some "json".toList then
        tree ← takeFile tree (place ++ [name])
  return tree

/-- Takes in what a path leads to, if it leads anywhere. -/
def take (tree : FileTree) (deep : Bool) (p : Path) : IO FileTree := do
  let place := placeOf tree.home p
  try
    let real ← IO.FS.realPath (absolutePath place)
    if ← real.isDir then takeDirectory tree place deep
    else if ← real.pathExists then takeFile tree place
    else return tree
  catch _ => return tree

/-- Takes in the files that a lint run may look at. -/
def takeAll (a : LintArguments) : IO FileTree := do
  let home := placeOf [] (Path.ofString (← IO.currentDir).toString)
  let mut tree ← takeDirectory { home } home false
  for p in a.paths ++ a.base ++ a.config.toList do
    for q in lineage p.text.length p do
      tree ← take tree false q
    tree ← take tree true p
  for p in a.paths.take 1 do
    for q in lineage p.text.length p do
      tree ← take tree false (q.join Config.fileName.toList)
  return tree

/-- Writes the files that a run changed. -/
def writeChanges (before after : FileTree) : IO Unit := do
  for (place, entry) in after.entries do
    match entry with
    | .text content =>
      if before.entry? place != some entry then
        IO.FS.writeFile (absolutePath place) (String.ofList content)
    | _ => pure ()

/-- Takes in the files of a command. -/
def treeFor (command : Option Command) : IO FileTree :=
  match command with
  | some (.lint a) => takeAll a
  | _ => return {}

end BslLint.Main

open BslLint BslLint.Main in
def main (arguments : List String) : IO UInt32 := do
  let tree ← treeFor (Command.parse? arguments)
  let result := Command.runArguments tree arguments
  writeChanges tree result.tree
  (← IO.getStdout).putStr result.output
  match result.ending with
  | .failure e => (← IO.getStderr).putStrLn e.message
  | .usage => (← IO.getStderr).putStrLn "error: invalid arguments; try --help"
  | .abort _ => (← IO.getStderr).putStrLn "error: an offset is out of range"
  | .exit _ => pure ()
  return result.ending.code.toUInt32
