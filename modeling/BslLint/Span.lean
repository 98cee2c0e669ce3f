import BslLint.Outcome
import BslLint.Text.Position

/-!
Spans: the byte ranges that tie the nodes of a syntax tree to the text of their module. A span
comes from outside and may point anywhere; it is resolved against the text before use.
-/

namespace BslLint

/-- A byte range of a text. -/
structure Span where
  offset : Nat
  length : Nat
deriving DecidableEq, Repr

namespace Span

/-- The range from one offset up to another, empty when they are out of order. -/
def between (start stop : Nat) : Span := ⟨start, stop - start⟩

def stop (s : Span) : Nat := s.offset + s.length

/-- The offset after the range, if it is an offset. -/
def checkedStop {ε : Type} (s : Span) : Outcome ε Nat := addOffsets s.offset s.length

/-- The range from the start of one span to the end of another; nothing without both. -/
def join (first last : Option Span) : Option Span := do
  return between (← first).offset (← last).stop

end Span

/-- The text behind a node: where it starts, how long it is, and what it reads. -/
structure SourceText where
  start : Nat
  length : Nat
  row : Nat
  raw : Text
deriving DecidableEq, Repr

namespace SourceText

def stop (s : SourceText) : Nat := s.start + s.length

end SourceText

/-- Where a finding lies: its byte range and the places of its two ends. -/
structure Extent where
  offset : Nat
  length : Nat
  first : Position
  last : Position
deriving DecidableEq, Repr

namespace Extent

def of {ε : Type} (source : Text) (offset length : Nat) : Outcome ε Extent := do
  let stop ← addOffsets offset length
  return ⟨offset, length, Text.positionAt source offset, Text.positionAt source stop⟩

end Extent

end BslLint
