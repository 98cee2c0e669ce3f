import BslLint.Outcome
import BslLint.Text.Basic

/-!
Edits: replacements of byte ranges of a text, and the application of several of them at once.

The edits of a list are checked against the text and against each other, and then carried out from
the last anchor to the first, so that the offsets of those still to come keep their meaning.
-/

namespace BslLint

/-- Replaces `length` bytes from `anchor` on. -/
structure Edit where
  anchor : Nat
  length : Nat
  replacement : Text
deriving DecidableEq, Repr

inductive EditError where
  | overlapping (anchor : Nat)
  | outOfRange (start stop size : Nat)
  | splitsCharacter (offset : Nat)
deriving DecidableEq, Repr

namespace EditError

def message : EditError → String
  | overlapping anchor => "Overlapping edits detected at byte " ++ toString anchor
  | outOfRange start stop size =>
    "Edit range [" ++ toString start ++ ".." ++ toString stop ++ ") exceeds source length " ++
      toString size
  | splitsCharacter offset => "Edit boundary " ++ toString offset ++ " splits a character"

end EditError

namespace Edit

def replace (start stop : Nat) (replacement : Text) : Edit := ⟨start, stop - start, replacement⟩

def insert (anchor : Nat) (text : Text) : Edit := ⟨anchor, 0, text⟩

def delete (start stop : Nat) : Edit := replace start stop []

def stop (e : Edit) : Nat := e.anchor + e.length

/-- The offset after the replaced range, if it is an offset. -/
def checkedStop {ε : Type} (e : Edit) : Outcome ε Nat := addOffsets e.anchor e.length

/-- Whether two edits touch the same text. Two insertions at one place do too: their order would
be open. The end of an edit is only computed where the answer needs it. -/
def overlaps {ε : Type} (d e : Edit) : Outcome ε Bool :=
  if d.length = 0 && e.length = 0 then return d.anchor == e.anchor
  else do
    if d.anchor < (← e.checkedStop) then return e.anchor < (← d.checkedStop)
    else return false

/-- Whether the edit lies in the text, with both ends on character boundaries. -/
def validate (source : Text) (e : Edit) : Outcome EditError Unit := do
  let stop ← e.checkedStop
  if Text.byteLength source < stop then
    .error (.outOfRange e.anchor stop (Text.byteLength source))
  else if !Text.isBoundary source e.anchor then .error (.splitsCharacter e.anchor)
  else if !Text.isBoundary source stop then .error (.splitsCharacter stop)
  else return ()

def anyOverlaps {ε : Type} (e : Edit) : List Edit → Outcome ε Bool
  | [] => return false
  | d :: rest => do if ← d.overlaps e then return true else anyOverlaps e rest

def overlapsAny {ε : Type} (d : Edit) : List Edit → Outcome ε Bool
  | [] => return false
  | e :: rest => do if ← d.overlaps e then return true else overlapsAny d rest

/-- Fails on the first edit that overlaps a later one. -/
def checkOverlaps : List Edit → Outcome EditError Unit
  | [] => return ()
  | d :: rest => do
    if ← d.overlapsAny rest then .error (.overlapping d.anchor) else checkOverlaps rest

/-- Whether the edits can be carried out together: each of them fits the text, and no two of them
overlap. -/
def validateAll (source : Text) (edits : List Edit) : Outcome EditError Unit := do
  let _ ← Outcome.mapList (validate source) edits
  checkOverlaps edits

def splice {ε : Type} (source : Text) (e : Edit) : Outcome ε Text := do
  let stop ← e.checkedStop
  match Text.take? source e.anchor, Text.drop? source stop with
  | some before, some after => return before ++ e.replacement ++ after
  | _, _ => .abort .offBoundary

/-- The edits from the last anchor to the first; those with one anchor stay in their order. -/
def fromLast (edits : List Edit) : List Edit :=
  edits.mergeSort fun d e => decide (e.anchor ≤ d.anchor)

def applyAll (source : Text) (edits : List Edit) : Outcome EditError Text := do
  validateAll source edits
  Outcome.foldList splice source (fromLast edits)

end Edit

end BslLint
