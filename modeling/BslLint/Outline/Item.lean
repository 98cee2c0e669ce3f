import BslLint.Environment.Condition.Parse
import BslLint.Outline.Declaration
import BslLint.Outline.Statement

/-!
Described items and their places in a text. Of a method only its body is described, of a region only
its items: everything else is read from the text.
-/

namespace BslLint

inductive ItemOutline where
  | method (body : List StatementOutline)
  | region (items : List ItemOutline)

namespace Outline

def procedureWord : Spelling := ⟨"Процедура", "Procedure"⟩

def functionWord : Spelling := ⟨"Функция", "Function"⟩

def endProcedureWord : Spelling := ⟨"КонецПроцедуры", "EndProcedure"⟩

def endFunctionWord : Spelling := ⟨"КонецФункции", "EndFunction"⟩

def exportWord : Spelling := ⟨"Экспорт", "Export"⟩

def regionWord : Spelling := ⟨"#Если", "#If"⟩

def endRegionWord : Spelling := ⟨"#КонецЕсли", "#EndIf"⟩

def methodKind (keyword : Text) : MethodKind :=
  if functionWord.covers keyword then .function else .procedure

def lineStop (source : Text) (pos : Nat) : Checked Nat := do
  return pos + Text.byteLength ((← restAt source pos).takeWhile (· != '\n'))

/-- Whether the declaration of a method whose parameters end at the cursor is exported, on the same
line, and the cursor behind it. -/
def seekExport (source : Text) (cursor : Nat) : Checked (Bool × Nat) := do
  let lineStop ← lineStop source cursor
  match search source (spellings exportWord) cursor with
  | some found => return if found.stop ≤ lineStop then (true, found.stop) else (false, cursor)
  | none => return (false, cursor)

/-- The head of a method: the method without statements and without its end, where its declaration
starts, and the cursor behind the head. -/
structure MethodHead where
  method : Method
  start : Option Nat
  cursor : Nat

/-- Reads the head of the next method. Without a keyword there is nothing to read. -/
def readHead (source : Text) (cursor : Nat) : Checked MethodHead := do
  match search source (spellings procedureWord ++ spellings functionWord) cursor with
  | none => return ⟨⟨[], .procedure, false, [], [], [], none, none, none⟩, none, cursor⟩
  | some keyword =>
    let kind := methodKind (← sliceAt source keyword.offset keyword.stop)
    let nameStart := skipBlanks source keyword.stop
    let name := (← restAt source nameStart).takeWhile Text.isIdentifier
    let nameSpan : Span := ⟨nameStart, Text.byteLength name⟩
    let (isExport, cursor) ←
      match (openingParen source (some nameSpan)).bind (matchingParen source) with
      | some closing => seekExport source (closing + 1)
      | none => pure (false, nameSpan.stop)
    let above ← linesAbove source keyword.offset
    let marks := marksAbove above
    return {
      method :=
        { name, kind, isExport
          directives := marks.filterMap Mark.directive?
          annotations := marks.filterMap Mark.extending?
          statements := []
          span := none
          nameSpan := some nameSpan
          docComment := docComment above }
      start := some (declarationStart above keyword.offset)
      cursor }

/-- The condition of a region, its span, and the cursor behind the word that ends it. -/
structure RegionHead where
  condition : Condition
  span : Option Span
  cursor : Nat

/-- Reads the condition of a region behind its opening word. A condition that cannot be read holds
everywhere. -/
def readCondition (source : Text) (opening : Option Span) (cursor : Nat) :
    Checked RegionHead := do
  match opening with
  | none => return ⟨.and [], none, cursor⟩
  | some opening =>
    match search source (spellings thenWord) opening.stop with
    | none => return ⟨.and [], none, cursor⟩
    | some closing =>
      let raw ← sliceAt source opening.stop closing.offset
      let text := Text.trim raw
      let lead := Text.byteLength (raw.takeWhile Text.isBlank)
      return ⟨(Condition.parse? text).getD (.and []),
        some ⟨opening.stop + lead, Text.byteLength text⟩, closing.stop⟩

end Outline

namespace ItemOutline

open Outline

mutual

def place (source : Text) : ItemOutline → Nat → Checked (Item × Nat)
  | .method body, cursor => do
    let head ← readHead source cursor
    let (statements, cursor) ← StatementOutline.placeList source body head.cursor
    let (last, cursor) :=
      seek source (spellings endProcedureWord ++ spellings endFunctionWord) cursor
    let span := Span.join (head.start.map fun pos => ⟨pos, 0⟩) last
    return (.method { head.method with statements, span }, cursor)
  | .region items, cursor => do
    let (opening, cursor) := seek source (spellings regionWord) cursor
    let head ← readCondition source opening cursor
    let (items, cursor) ← placeList source items head.cursor
    let (closing, cursor) := seek source (spellings endRegionWord) cursor
    return (.region ⟨head.condition, head.span, Span.join opening closing⟩ items, cursor)

def placeList (source : Text) : List ItemOutline → Nat → Checked (List Item × Nat)
  | [], cursor => return ([], cursor)
  | i :: is, cursor => do
    let (i, cursor) ← i.place source cursor
    let (is, cursor) ← placeList source is cursor
    return (i :: is, cursor)

end

end ItemOutline

end BslLint
