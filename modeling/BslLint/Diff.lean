import BslLint.Outcome
import BslLint.Text.Lines

/-!
Unified diffs of two texts whose lines correspond by their numbers. Every line within `context`
lines of a difference is shown, and differences whose surroundings touch share a hunk.
-/

namespace BslLint.Diff

/-- A line number of either text: its line in the first, and its line in the second. -/
structure Pair where
  old : Option Text
  new : Option Text
deriving DecidableEq, Repr

namespace Pair

def isChange (p : Pair) : Bool := p.old != p.new

end Pair

/-- The lines of two texts side by side, up to the end of the longer one. -/
def pairs : List Text → List Text → List Pair
  | [], fs => fs.map fun f => ⟨none, some f⟩
  | os, [] => os.map fun o => ⟨some o, none⟩
  | o :: os, f :: fs => ⟨some o, some f⟩ :: pairs os fs

inductive Line where
  | kept (text : Text)
  | removed (text : Text)
  | added (text : Text)
deriving DecidableEq, Repr

/-- A range of line numbers, from `start` up to and without `stop`. -/
structure Range where
  start : Nat
  stop : Nat
deriving DecidableEq, Repr

/-- A hunk: where it starts, how many lines of each text it covers, and its lines. -/
structure Hunk where
  start : Nat
  oldCount : Nat
  newCount : Nat
  lines : List Line
deriving DecidableEq, Repr

/-- A line number at which the texts differ, with their lines. -/
structure Change where
  index : Nat
  pair : Pair
deriving DecidableEq, Repr

/-- The differences, with the line numbers counted on from `index`. -/
def changesFrom (index : Nat) : List Pair → List Change
  | [] => []
  | p :: ps => if p.isChange then ⟨index, p⟩ :: changesFrom (index + 1) ps
    else changesFrom (index + 1) ps

/-- Differences that share a hunk, and the line numbers that the hunk shows. -/
structure Group where
  range : Range
  changes : List Change
deriving DecidableEq, Repr

/-- The line numbers around a difference, no further than the given number of lines. -/
def surroundings {ε : Type} (context total change : Nat) : Outcome ε Range := do
  let last ← addOffsets change context
  let stop ← addOffsets last 1
  return ⟨change - context, min stop total⟩

/-- The groups of differences, given the group that is still open. A difference whose surroundings
reach the open group joins it. -/
def groupsFrom {ε : Type} (context total : Nat) (current : Group) :
    List Change → Outcome ε (List Group)
  | [] => return [current]
  | change :: rest => do
    let r ← surroundings context total change.index
    if r.start ≤ current.range.stop then
      groupsFrom context total
        ⟨⟨current.range.start, r.stop⟩, current.changes ++ [change]⟩ rest
    else return current :: (← groupsFrom context total ⟨r, [change]⟩ rest)

def groups {ε : Type} (context total : Nat) : List Change → Outcome ε (List Group)
  | [] => return []
  | change :: rest => do
    groupsFrom context total ⟨← surroundings context total change.index, [change]⟩ rest

/-- What a hunk shows of a line number: the difference at it, and the old line if there is none. -/
def Group.linesAt (os : List Text) (g : Group) (i : Nat) : List Line :=
  match g.changes.find? fun c => c.index == i with
  | some c => (c.pair.old.map Line.removed).toList ++ (c.pair.new.map Line.added).toList
  | none => (os[i]?.map Line.kept).toList

def Hunk.ofGroup (os fs : List Text) (g : Group) : Hunk where
  start := g.range.start
  oldCount := min g.range.stop os.length - g.range.start
  newCount := min g.range.stop fs.length - g.range.start
  lines := (List.range' g.range.start (g.range.stop - g.range.start)).flatMap (g.linesAt os)

def hunks {ε : Type} (old new : Text) (context : Nat) : Outcome ε (List Hunk) := do
  let os := Text.lines old
  let fs := Text.lines new
  let ps := pairs os fs
  let gs ← groups context ps.length (changesFrom 0 ps)
  return gs.map (Hunk.ofGroup os fs)

def Line.render : Line → String
  | .kept t => " " ++ String.ofList t ++ "\n"
  | .removed t => "-" ++ String.ofList t ++ "\n"
  | .added t => "+" ++ String.ofList t ++ "\n"

/-- A hunk with its header; line numbers count from one. -/
def Hunk.render (h : Hunk) : String :=
  let start := toString (h.start + 1)
  "@@ -" ++ start ++ "," ++ toString h.oldCount ++ " +" ++ start ++ "," ++
    toString h.newCount ++ " @@\n" ++ String.join (h.lines.map Line.render)

/-- The diff of a file; empty without hunks. -/
def render (path : String) : List Hunk → String
  | [] => ""
  | hs => "--- a/" ++ path ++ "\n+++ b/" ++ path ++ "\n" ++ String.join (hs.map Hunk.render)

def defaultContext : Nat := 3

def format {ε : Type} (old new : Text) (path : String) (context : Nat := defaultContext) :
    Outcome ε String := do
  return render path (← hunks old new context)

end BslLint.Diff
